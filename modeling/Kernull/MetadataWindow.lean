import Kernull.MmuInit

/-!
# The metadata of the page allocator

The size of the allocator's bitmap is computed three times.  `metadata_size`
shifts by `sizeof(*frames)`, which is one, so it asks for four times as much
as `page_allocator_init` clears and reserves; `page_allocator_init` divides by
eight and drops the last partial byte, which the index macro still reaches.
The computations agree exactly for whole bitmap bytes in a small memory.
-/

namespace Kernull.MetadataWindow

open Kernull.Mm
open Kernull.PageAlloc
open Kernull.MmuInit

/-- `metadata_bytes` of `page_allocator_init`. -/
def metadataBytes (memsize : Nat) : Nat :=
  (memsize >>> 12) % 2 ^ 32 / 8

/-- The frame that `mmu_init` maps at a page of the metadata window. -/
def windowFrame (firstFreePage page : Nat) : Nat :=
  (firstFreePage + page * pageSize) / pageSize

/-- The index macro stays below the bytes that are cleared. -/
def IndicesCleared (memsize : Nat) (allocator : PageAllocator) : Prop :=
  ∀ frameAddr, frameAddr < frameLimit allocator →
    bitmapIndex (frameAddr >>> 12) < metadataBytes memsize

/-- The frames of the metadata window are in use and not available. -/
def WindowReserved (firstFreePage memsize : Nat)
    (allocator : PageAllocator) : Prop :=
  ∀ page, page < metadataPages memsize →
    Marked allocator (windowFrame firstFreePage page) ∧
      windowFrame firstFreePage page ∉ freeFrames allocator

/-- Both hold after initialisation, whatever the memory held before. -/
def MetadataAgrees (firstFreePage memsize : Nat) : Prop :=
  ∀ allocator, ∃ initialised,
    pageAllocatorInit firstFreePage memsize allocator = some initialised ∧
      IndicesCleared memsize initialised ∧
      WindowReserved firstFreePage memsize initialised

/-- The index macro is right for whole bytes of the bitmap only. -/
theorem indicesCleared_iff
    {memsize : Nat} (small : memsize < 2 ^ 32) {allocator : PageAllocator}
    (count : allocator.nframes = memsize / 4096) :
    IndicesCleared memsize allocator ↔ memsize / 4096 % 8 = 0 := by
  have limit : frameLimit allocator = memsize / 4096 * 4096 := by
    rw [frameLimit, count, pageSize]
    omega
  have bytes : metadataBytes memsize = memsize / 4096 / 8 := by
    rw [metadataBytes, Nat.shiftRight_eq_div_pow]
    omega
  simp only [IndicesCleared, limit, bytes, bitmapIndex_eq,
    Nat.shiftRight_eq_div_pow]
  constructor
  · intro below
    by_contra partly
    have last := below (8 * (memsize / 4096 / 8) * 4096) (by omega)
    omega
  · intro whole frameAddr inside
    omega

/-- The window has one page for up to 8192 frames, more than that above. -/
theorem metadataPages_eq
    {memsize : Nat} (small : memsize < 2 ^ 32) :
    metadataPages memsize = (memsize / 4096 / 2 + 4095) / 4096 := by
  simp only [metadataPages, pageRound, metadataSize, pageLowMask, pageSize,
    Nat.shiftRight_eq_div_pow]
  omega

theorem windowFrame_eq
    {firstFreePage : Nat} (aligned : firstFreePage % 4096 = 0)
    (page : Nat) :
    windowFrame firstFreePage page = firstFreePage / 4096 + page := by
  rw [windowFrame, pageSize]
  omega

/-- The frames that hold the window when it is reserved. -/
theorem condition_of_metadataAgrees
    {firstFreePage memsize : Nat} (small : memsize < 2 ^ 32)
    (aligned : firstFreePage % 4096 = 0)
    (physical : firstFreePage < 2 ^ 52)
    (agrees : MetadataAgrees firstFreePage memsize) :
    memsize / 4096 % 8 = 0 ∧
      (memsize / 4096 = 0 ∨
        memsize / 4096 ≤ 8192 ∧
          firstFreePage < memsize / 4096 * 4096) := by
  have unwrapped : firstFreePage + memsize / 4096 / 8 < 2 ^ 64 := by omega
  obtain ⟨initialised, returned, indices, window⟩ :=
    agrees Kernel.zeroed.mm.allocator
  obtain ⟨count, marked⟩ :=
    pageAllocatorInit_marked small unwrapped returned
  have whole := (indicesCleared_iff small count).mp indices
  have pages := metadataPages_eq small
  have blank : ∀ frame, ¬ Marked (clearBitmap (memsize / 4096)
      Kernel.zeroed.mm.allocator) frame := by
    intro frame
    simp [Marked, clearBitmap, Kernel.zeroed]
  have reserved : ∀ page, page < metadataPages memsize →
      (firstFreePage / 4096 + page) * 4096 <
          firstFreePage + memsize / 4096 / 8 ∧
        firstFreePage / 4096 + page < memsize / 4096 := by
    intro page inside
    have inUse := (window page inside).1
    rw [windowFrame_eq aligned, marked, or_iff_left (blank _)] at inUse
    exact inUse
  refine ⟨whole, ?_⟩
  by_contra fails
  -- with more than one page, the page behind those that are reserved
  have first := reserved 0
  have beyond := reserved ((memsize / 4096 / 8 + 4095) / 4096)
  omega

/--
The three computations of the metadata size agree exactly when the frames
fill whole bytes of the bitmap and there are none, or at most 8192 with the
first free page among them.
-/
theorem metadata_agrees_iff
    {firstFreePage memsize : Nat} (small : memsize < 2 ^ 32)
    (aligned : firstFreePage % 4096 = 0)
    (physical : firstFreePage < 2 ^ 52) :
    MetadataAgrees firstFreePage memsize ↔
      memsize / 4096 % 8 = 0 ∧
        (memsize / 4096 = 0 ∨
          memsize / 4096 ≤ 8192 ∧
            firstFreePage < memsize / 4096 * 4096) := by
  refine ⟨condition_of_metadataAgrees small aligned physical, ?_⟩
  rintro ⟨whole, agreed⟩ allocator
  obtain ⟨initialised, returned⟩ := pageAllocatorInit_returns
    (show firstFreePage < 2 ^ 63 by omega) memsize allocator
  obtain ⟨count, marked⟩ :=
    pageAllocatorInit_marked small (by omega) returned
  refine ⟨initialised, returned, (indicesCleared_iff small count).mpr whole,
    fun page inside => ?_⟩
  have pages := metadataPages_eq small
  have inUse : Marked initialised (windowFrame firstFreePage page) := by
    rw [windowFrame_eq aligned, marked]
    exact Or.inl (by omega)
  exact ⟨inUse, fun free => (mem_freeFrames.mp free).2 inUse⟩

/-- With 32 MiB of memory the window is reserved. -/
theorem metadata_agrees_32MiB : MetadataAgrees 0x200000 0x2000000 :=
  (metadata_agrees_iff (by decide) (by decide) (by decide)).mpr (by decide)

/-- Of the four pages of the window of 128 MiB three are available. -/
theorem window_not_reserved_128MiB :
    ¬ ∀ firstFreePage memsize,
      memsize < 2 ^ 32 → firstFreePage % 4096 = 0 →
        firstFreePage < 2 ^ 52 → MetadataAgrees firstFreePage memsize := by
  intro always
  have agrees := always 0x200000 0x8000000 (by decide) (by decide) (by decide)
  exact absurd (condition_of_metadataAgrees (by decide) (by decide)
    (by decide) agrees) (by decide)

end Kernull.MetadataWindow
