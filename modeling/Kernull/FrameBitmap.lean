import Kernull.Multiboot2Parser
import Kernull.PageAlloc

/-!
# The bitmap as a set of frames

`frame_set`, `frame_clear` and `frame_test` insert, remove and look up the
frame of a byte address.  All three compare the address with `nframes *
PAGE_SIZE`, a product in `u32`: from 4 GiB of memory on the bound is too low,
and for the addresses between it and the end of memory the operations do
nothing.
-/

namespace Kernull.FrameBitmap

open Kernull.Mm
open Kernull.PageAlloc
open Kernull.Multiboot2Parser
open Kernull.Library.ByteMemory

/-- The marked frames. -/
def markedFrames (allocator : PageAllocator) : Set Nat :=
  {frame | Marked allocator frame}

/-- The frame count that `page_allocator_init` stores for `memsize`. -/
def CountsFrames (memsize : Nat) (allocator : PageAllocator) : Prop :=
  allocator.nframes = (memsize >>> 12) % 2 ^ 32

theorem countsFrames_of_pageAllocatorInit
    {firstFreePage memsize : Nat} {allocator next : PageAllocator}
    (initialised : pageAllocatorInit firstFreePage memsize allocator =
      some next) :
    CountsFrames memsize next := by
  simp only [pageAllocatorInit] at initialised
  split_ifs at initialised
  obtain rfl := Option.some.inj initialised
  exact nframes_reserve _ _

/-! ## The operations on the set -/

section Operations

variable {allocator : PageAllocator} {frameAddr other : Nat}

@[simp]
theorem frameLimit_frameSet :
    frameLimit (frameSet frameAddr allocator) = frameLimit allocator := by
  rw [frameLimit, nframes_frameSet, frameLimit]

@[simp]
theorem frameLimit_frameClear :
    frameLimit (frameClear frameAddr allocator) = frameLimit allocator := by
  rw [frameLimit, nframes_frameClear, frameLimit]

/-- Addresses from the bound on are reported in use. -/
theorem frameTest_eq_true_iff :
    frameTest frameAddr allocator = true ↔
      frameLimit allocator ≤ frameAddr ∨
        frameAddr / 4096 ∈ markedFrames allocator := by
  by_cases inside : frameAddr < frameLimit allocator
  · rw [frameTest_iff inside, or_iff_right (Nat.not_le.mpr inside)]
    rfl
  · rw [frameTest, if_neg inside]
    exact iff_of_true rfl (Or.inl (Nat.not_lt.mp inside))

theorem frameSet_of_outside (outside : frameLimit allocator ≤ frameAddr) :
    frameSet frameAddr allocator = allocator :=
  if_neg (Nat.not_lt.mpr outside)

theorem frameClear_of_outside (outside : frameLimit allocator ≤ frameAddr) :
    frameClear frameAddr allocator = allocator :=
  if_neg (Nat.not_lt.mpr outside)

theorem markedFrames_frameSet (inside : frameAddr < frameLimit allocator) :
    markedFrames (frameSet frameAddr allocator) =
      insert (frameAddr / 4096) (markedFrames allocator) := by
  ext frame
  exact marked_frameSet inside frame

theorem markedFrames_frameClear (inside : frameAddr < frameLimit allocator) :
    markedFrames (frameClear frameAddr allocator) =
      markedFrames allocator \ {frameAddr / 4096} := by
  ext frame
  rw [Set.mem_sdiff, Set.mem_singleton_iff, and_comm]
  exact marked_frameClear inside frame

/-- Setting a frame leaves the test of other frames alone. -/
theorem frameTest_frameSet_of_ne
    (different : frameAddr / 4096 ≠ other / 4096) :
    frameTest other (frameSet frameAddr allocator) =
      frameTest other allocator := by
  by_cases inside : frameAddr < frameLimit allocator
  · rw [Bool.eq_iff_iff, frameTest_eq_true_iff, frameTest_eq_true_iff,
      frameLimit_frameSet, markedFrames_frameSet inside,
      Set.mem_insert_iff, or_iff_right different.symm]
  · rw [frameSet_of_outside (Nat.not_lt.mp inside)]

/-- Clearing a frame leaves the test of other frames alone. -/
theorem frameTest_frameClear_of_ne
    (different : frameAddr / 4096 ≠ other / 4096) :
    frameTest other (frameClear frameAddr allocator) =
      frameTest other allocator := by
  by_cases inside : frameAddr < frameLimit allocator
  · rw [Bool.eq_iff_iff, frameTest_eq_true_iff, frameTest_eq_true_iff,
      frameLimit_frameClear, markedFrames_frameClear inside, Set.mem_sdiff,
      Set.mem_singleton_iff, and_iff_left different.symm]
  · rw [frameClear_of_outside (Nat.not_lt.mp inside)]

/-- A frame that was set is in use, also when nothing was stored. -/
theorem frameTest_frameSet_same :
    frameTest frameAddr (frameSet frameAddr allocator) = true := by
  rw [frameTest_eq_true_iff, frameLimit_frameSet]
  by_cases inside : frameAddr < frameLimit allocator
  · right
    rw [markedFrames_frameSet inside]
    exact Set.mem_insert _ _
  · exact Or.inl (Nat.not_lt.mp inside)

/-- A frame that was cleared is free exactly below the bound. -/
theorem frameTest_frameClear_same :
    frameTest frameAddr (frameClear frameAddr allocator) = false ↔
      frameAddr < frameLimit allocator := by
  rw [← Bool.not_eq_true, frameTest_eq_true_iff, frameLimit_frameClear]
  by_cases inside : frameAddr < frameLimit allocator
  · rw [markedFrames_frameClear inside]
    simp [inside]
  · rw [frameClear_of_outside (Nat.not_lt.mp inside)]
    simp [inside, Nat.not_lt.mp inside]

end Operations

/-! ## The laws of a set of frames -/

/--
The operations at `left` are those of the set of the `memsize / 4096` frames
of memory, as far as `left` itself and the frame of `right` can tell.
-/
structure SetLaws (memsize left right : Nat) (allocator : PageAllocator) :
    Prop where
  set : left < memsize / 4096 * 4096 →
    frameTest left (frameSet left allocator) = true
  clear : left < memsize / 4096 * 4096 →
    frameTest left (frameClear left allocator) = false
  setOther : left / 4096 ≠ right / 4096 →
    frameTest right (frameSet left allocator) = frameTest right allocator
  clearOther : left / 4096 ≠ right / 4096 →
    frameTest right (frameClear left allocator) = frameTest right allocator
  setOutside : memsize / 4096 * 4096 ≤ left →
    frameSet left allocator = allocator
  clearOutside : memsize / 4096 * 4096 ≤ left →
    frameClear left allocator = allocator
  testOutside : memsize / 4096 * 4096 ≤ left →
    frameTest left allocator = true

/-- Neither `nframes` nor `nframes * PAGE_SIZE` wraps. -/
def Unwrapped (memsize : Nat) (allocator : PageAllocator) : Prop :=
  allocator.nframes = memsize / 4096 ∧
    frameLimit allocator = memsize / 4096 * 4096

section Laws

variable {memsize : Nat} {allocator : PageAllocator}

/-- The bound is the end of memory modulo 4 GiB. -/
theorem frameLimit_of_countsFrames
    (counts : CountsFrames memsize allocator) :
    frameLimit allocator = memsize / 4096 * 4096 % 2 ^ 32 := by
  rw [CountsFrames, Nat.shiftRight_eq_div_pow] at counts
  rw [frameLimit, counts, pageSize]
  omega

/-- For one pair of addresses only the addresses cut off by the bound fail. -/
theorem setLaws_iff
    (counts : CountsFrames memsize allocator) (left right : Nat) :
    SetLaws memsize left right allocator ↔
      memsize / 4096 * 4096 ≤ left ∨
        left < memsize / 4096 * 4096 % 2 ^ 32 := by
  have limit := frameLimit_of_countsFrames counts
  have lower : frameLimit allocator ≤ memsize / 4096 * 4096 :=
    limit ▸ Nat.mod_le _ _
  constructor
  · intro laws
    rw [← limit, or_iff_not_imp_left]
    intro inMemory
    exact frameTest_frameClear_same.mp (laws.clear (Nat.not_le.mp inMemory))
  · intro covered
    rw [← limit] at covered
    constructor
    · exact fun _ => frameTest_frameSet_same
    · intro inMemory
      exact frameTest_frameClear_same.mpr
        (covered.resolve_left (Nat.not_le.mpr inMemory))
    · exact frameTest_frameSet_of_ne
    · exact frameTest_frameClear_of_ne
    · exact fun outside => frameSet_of_outside (Nat.le_trans lower outside)
    · exact fun outside => frameClear_of_outside (Nat.le_trans lower outside)
    · exact fun outside =>
        frameTest_eq_true_iff.mpr (Or.inl (Nat.le_trans lower outside))

/--
The bitmap is the set of frames of memory, with no product wrapping, exactly
for memory below 4 GiB; with more memory it fails for the addresses between
the wrapped bound and the end of memory.
-/
theorem bitmap_is_set_of_frames_iff
    (counts : CountsFrames memsize allocator) :
    ((Unwrapped memsize allocator ∧
        ∀ left right, SetLaws memsize left right allocator) ↔
      memsize < 2 ^ 32) ∧
    ∀ left right, SetLaws memsize left right allocator ↔
      memsize / 4096 * 4096 ≤ left ∨
        left < memsize / 4096 * 4096 % 2 ^ 32 := by
  have limit := frameLimit_of_countsFrames counts
  refine ⟨⟨?_, fun small => ⟨⟨?_, ?_⟩, fun left right => ?_⟩⟩,
    setLaws_iff counts⟩
  · rintro ⟨⟨_, unwrapped⟩, _⟩
    rw [limit] at unwrapped
    omega
  · rw [CountsFrames, Nat.shiftRight_eq_div_pow] at counts
    omega
  · rw [limit]
    omega
  · rw [setLaws_iff counts]
    omega

end Laws

/-- An allocator for 64 KiB with two frames in use. -/
def sixteenFrames : PageAllocator where
  frames := fun i => if i = 0 then 0x03 else 0
  nframes := 16
  totalMemory := 0
  unavailableMemory := 0

theorem sixteenFrames_is_set_of_frames :
    Unwrapped 0x10000 sixteenFrames ∧
      ∀ left right, SetLaws 0x10000 left right sixteenFrames := by
  have counts : CountsFrames 0x10000 sixteenFrames := by
    rw [CountsFrames]
    rfl
  exact (bitmap_is_set_of_frames_iff counts).1.mpr (by decide)

/-! ## A machine with 8 GiB -/

/--
A tag list with a memory map of one entry, the memory from 1 MiB to 8 GiB,
and the end tag.
-/
def eightGiB : Memory := fun address =>
  ([6, 0, 0, 0, 40, 0, 0, 0, 24, 0, 0, 0, 0, 0, 0, 0,
    0, 0, 0x10, 0, 0, 0, 0, 0, 0, 0, 0xF0, 0xFF, 1, 0, 0, 0, 1, 0, 0, 0,
    0, 0, 0, 0, 0, 0, 0, 0, 8, 0, 0, 0] : List (BitVec 8)).getD address 0

theorem memoryMap_eightGiB : MemoryMap eightGiB 0 24 1 where
  entry_size := by decide
  size := by decide
  large := Nat.le_refl 24
  aligned := by decide
  unwrapped := by decide +kernel

theorem returns_eightGiB : Returns eightGiB 0 0x1FFFFFFFF := by
  have highest := memoryMap_eightGiB.returns_visited
    (FirstTag.here (by decide) (by decide))
  have value : ((visitedFrom 1 0).sup fun index =>
      contribution eightGiB (entryAt 0 24 index)) = 0x1FFFFFFFF := by
    decide +kernel
  rwa [value] at highest

/-- With 8 GiB of memory the frame at 4 GiB cannot be cleared. -/
theorem frame_at_4GiB_not_cleared :
    ¬ ∀ memory tags memsize allocator,
      Returns memory tags memsize → CountsFrames memsize allocator →
        Unwrapped memsize allocator ∧
          ∀ left right, SetLaws memsize left right allocator := by
  intro always
  obtain ⟨_, laws⟩ := always eightGiB 0 0x1FFFFFFFF
    { sixteenFrames with nframes := 0x1FFFFF } returns_eightGiB
    (by rw [CountsFrames]; rfl)
  have cleared := (laws 0x100000000 0).clear (by decide)
  exact absurd (frameTest_frameClear_same.mp cleared) (by decide)

end Kernull.FrameBitmap
