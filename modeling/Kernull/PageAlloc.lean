import Kernull.MmConstants
import Kernull.Pml
import Mathlib.Data.List.Find
import Mathlib.Data.List.Nodup
import Mathlib.Data.List.Range
import Mathlib.Logic.Function.Basic

/-!
# The page allocator

A translation of `arch/x86_64/mm/page_alloc.c`.  The bitmap holds one bit for
each frame; the bytes behind the part that `page_allocator_init` clears keep
what memory held before.  The product `nframes * PAGE_SIZE` is computed in
`u32`.  `first_free_frame` falls off its end when every scanned byte is full,
and using its value is undefined then; such a call has the result `none`.
-/

namespace Kernull.PageAlloc

open Kernull.Mm
open Kernull.Pml

/-- The static variables of the allocator and its bitmap. -/
structure PageAllocator where
  frames : Nat → BitVec 8
  nframes : Nat
  totalMemory : Nat
  unavailableMemory : Nat

/-- `BITMAP_INDEX`. -/
def bitmapIndex (frame : Nat) : Nat := frame >>> 3

/-- `BITMAP_OFFSET`. -/
def bitmapOffset (frame : Nat) : Nat := frame &&& 7

/-- `nframes * PAGE_SIZE`, in `u32`. -/
def frameLimit (allocator : PageAllocator) : Nat :=
  allocator.nframes * pageSize % 2 ^ 32

/-- `frame_set`. -/
def frameSet (frameAddr : Nat) (allocator : PageAllocator) :
    PageAllocator :=
  if frameAddr < frameLimit allocator then
    let frame := frameAddr >>> 12
    { allocator with
      frames := Function.update allocator.frames (bitmapIndex frame)
        (allocator.frames (bitmapIndex frame) |||
          (1#8 <<< bitmapOffset frame)) }
  else allocator

/-- `frame_clear`. -/
def frameClear (frameAddr : Nat) (allocator : PageAllocator) :
    PageAllocator :=
  if frameAddr < frameLimit allocator then
    let frame := frameAddr >>> 12
    { allocator with
      frames := Function.update allocator.frames (bitmapIndex frame)
        (allocator.frames (bitmapIndex frame) &&&
          ~~~ (1#8 <<< bitmapOffset frame)) }
  else allocator

/-- `frame_test`: whether the result is nonzero. -/
def frameTest (frameAddr : Nat) (allocator : PageAllocator) : Bool :=
  if frameAddr < frameLimit allocator then
    let frame := frameAddr >>> 12
    allocator.frames (bitmapIndex frame) &&&
      (1#8 <<< bitmapOffset frame) != 0#8
  else true

/-- `first_free_frame`; `none` when the loops end without a result. -/
def firstFreeFrame (allocator : PageAllocator) : Option Nat :=
  (List.range (bitmapIndex allocator.nframes)).findSome? fun i =>
    if allocator.frames i = 0xFF#8 then none
    else
      ((List.range 8).find? fun j =>
        allocator.frames i &&& (1#8 <<< j) == 0#8).map fun j => (i <<< 3) + j

/-- `metadata_size`; `sizeof(*frames)` is one. -/
def metadataSize (memsize : Nat) : Nat :=
  ((memsize >>> 12) % 2 ^ 64) >>> 1

/-- The loop of `page_allocator_init` for the given number of pages. -/
def reserve (pages : Nat) (allocator : PageAllocator) : PageAllocator :=
  (List.range pages).foldl
    (fun allocator page => frameSet (page * pageSize) allocator) allocator

/-- The bitmap for `nframes` frames, with its whole bytes cleared. -/
def clearBitmap (nframes : Nat) (allocator : PageAllocator) :
    PageAllocator :=
  { allocator with
    frames := fun i => if i < nframes / 8 then 0#8 else allocator.frames i
    nframes := nframes }

/--
`page_allocator_init`; `none` when `unavail` wraps before it reaches the
bound, so that the loop does not end.
-/
def pageAllocatorInit (firstFreePage memsize : Nat)
    (allocator : PageAllocator) : Option PageAllocator :=
  let nframes := (memsize >>> 12) % 2 ^ 32
  let metadataBytes := nframes / 8
  let bound := (firstFreePage + metadataBytes) % 2 ^ 64
  let pages := (bound + pageLowMask) / pageSize
  if pages * pageSize < 2 ^ 64 then
    let unavail := pages * pageSize
    let avail := sub64 nframes unavail
    some { reserve pages (clearBitmap nframes allocator) with
      totalMemory := avail * pageSize % 2 ^ 64
      unavailableMemory := unavail * pageSize % 2 ^ 64 }
  else none

/-- `page_alloc`. -/
def pageAlloc (page : PmlEntry) (flags : BitVec 64)
    (allocator : PageAllocator) : Option (PmlEntry × PageAllocator) :=
  if address page ≠ 0 then some (page, allocator)
  else
    (firstFreeFrame allocator).map fun idx =>
      let marked := frameSet ((idx <<< 12) % 2 ^ 64) allocator
      (orFlags (setPresent (setAddress page idx)) flags,
        { marked with
          unavailableMemory := (marked.unavailableMemory + 1) % 2 ^ 64 })

/-- `page_free`. -/
def pageFree (page : PmlEntry) (allocator : PageAllocator) :
    PmlEntry × PageAllocator :=
  let addr := address page
  if !frameTest addr allocator then (page, allocator)
  else
    let cleared := frameClear (address page) allocator
    (setAddress page 0,
      { cleared with
        unavailableMemory := sub64 cleared.unavailableMemory 1 })

/-! ## The bitmap as a set of frames -/

/-- The bit of a frame is set. -/
def Marked (allocator : PageAllocator) (frame : Nat) : Prop :=
  (allocator.frames (frame / 8)).getLsbD (frame % 8) = true

instance (allocator : PageAllocator) (frame : Nat) :
    Decidable (Marked allocator frame) :=
  inferInstanceAs (Decidable (_ = true))

/-- The counters of the allocator do not affect the bitmap. -/
theorem marked_congr
    {left right : PageAllocator} (same : left.frames = right.frames)
    (frame : Nat) :
    Marked left frame ↔ Marked right frame := by
  rw [Marked, Marked, same]

theorem bitmapIndex_eq (frame : Nat) : bitmapIndex frame = frame / 8 := by
  rw [bitmapIndex, Nat.shiftRight_eq_div_pow]

theorem bitmapOffset_eq (frame : Nat) : bitmapOffset frame = frame % 8 :=
  Nat.and_two_pow_sub_one_eq_mod frame 3

/-- The mask of a bit position selects that position. -/
theorem mask_getLsbD {offset bit : Nat} (small : offset < 8) :
    (1#8 <<< offset).getLsbD bit = decide (bit = offset) := by
  rw [← BitVec.twoPow_eq, BitVec.getLsbD_twoPow]
  simp [small, eq_comm]

/-- `frame_set` adds the frame of a byte address to the marked frames. -/
theorem marked_frameSet
    {allocator : PageAllocator} {frameAddr : Nat}
    (inside : frameAddr < frameLimit allocator) (frame : Nat) :
    Marked (frameSet frameAddr allocator) frame ↔
      frame = frameAddr / 4096 ∨ Marked allocator frame := by
  rw [frameSet, if_pos inside, Nat.shiftRight_eq_div_pow]
  simp only [Marked, bitmapIndex_eq, bitmapOffset_eq]
  by_cases sameByte : frame / 8 = frameAddr / 2 ^ 12 / 8
  · rw [sameByte, Function.update_self, BitVec.getLsbD_or, Bool.or_eq_true,
      mask_getLsbD (Nat.mod_lt _ (by decide)), decide_eq_true_eq]
    constructor
    · rintro (old | same)
      · exact Or.inr old
      · left
        omega
    · rintro (rfl | old)
      · exact Or.inr rfl
      · exact Or.inl old
  · rw [Function.update_of_ne sameByte]
    constructor
    · exact Or.inr
    · rintro (rfl | old)
      · exact absurd rfl sameByte
      · exact old

/-- `frame_clear` removes the frame of a byte address. -/
theorem marked_frameClear
    {allocator : PageAllocator} {frameAddr : Nat}
    (inside : frameAddr < frameLimit allocator) (frame : Nat) :
    Marked (frameClear frameAddr allocator) frame ↔
      frame ≠ frameAddr / 4096 ∧ Marked allocator frame := by
  rw [frameClear, if_pos inside, Nat.shiftRight_eq_div_pow]
  simp only [Marked, bitmapIndex_eq, bitmapOffset_eq]
  by_cases sameByte : frame / 8 = frameAddr / 2 ^ 12 / 8
  · have bit : frame % 8 < 8 := Nat.mod_lt _ (by decide)
    rw [sameByte, Function.update_self, BitVec.getLsbD_and,
      BitVec.getLsbD_not, mask_getLsbD (Nat.mod_lt _ (by decide)),
      Bool.and_eq_true]
    simp only [bit, decide_true, Bool.true_and, Bool.not_eq_true',
      decide_eq_false_iff_not]
    constructor
    · rintro ⟨old, different⟩
      exact ⟨fun same => different (by omega), old⟩
    · rintro ⟨different, old⟩
      exact ⟨old, fun same => different (by omega)⟩
  · rw [Function.update_of_ne sameByte]
    constructor
    · intro old
      exact ⟨fun same => sameByte (by omega), old⟩
    · exact fun both => both.2

/-- `frame_test` reads the bit of the frame of a byte address. -/
theorem frameTest_iff
    {allocator : PageAllocator} {frameAddr : Nat}
    (inside : frameAddr < frameLimit allocator) :
    frameTest frameAddr allocator = true ↔
      Marked allocator (frameAddr / 4096) := by
  rw [frameTest, if_pos inside, Nat.shiftRight_eq_div_pow,
    show (2 : Nat) ^ 12 = 4096 from rfl]
  simp only [Marked, bitmapIndex_eq, bitmapOffset_eq, bne_iff_ne]
  exact and_bit_ne_zero_iff _ (Nat.mod_lt _ (by decide))

/-! ## Free frames -/

/-- The frames `first_free_frame` may return, in the order it scans them. -/
def freeFrames (allocator : PageAllocator) : List Nat :=
  (List.range (8 * (allocator.nframes / 8))).filter fun frame =>
    !decide (Marked allocator frame)

theorem mem_freeFrames {allocator : PageAllocator} {frame : Nat} :
    frame ∈ freeFrames allocator ↔
      frame < 8 * (allocator.nframes / 8) ∧ ¬ Marked allocator frame := by
  simp [freeFrames]

theorem freeFrames_nodup (allocator : PageAllocator) :
    (freeFrames allocator).Nodup :=
  List.Nodup.filter _ List.nodup_range

/-- The mask test of `first_free_frame` reads one bit. -/
theorem masked_eq_zero_iff
    (byte : BitVec 8) {bit : Nat} (small : bit < 8) :
    byte &&& (1#8 <<< bit) = 0#8 ↔ byte.getLsbD bit = false := by
  constructor
  · intro zero
    have masked := congrArg (fun byte : BitVec 8 => byte.getLsbD bit) zero
    simpa [mask_getLsbD small] using masked
  · intro clear
    apply BitVec.eq_of_getLsbD_eq
    intro position _
    rw [BitVec.getLsbD_and, mask_getLsbD small]
    by_cases same : position = bit
    · rw [same, clear]
      simp
    · simp [same]

/-- The scan of one byte finds its first free frame. -/
theorem scan_byte (allocator : PageAllocator) (byte : Nat) :
    (if allocator.frames byte = 0xFF#8 then none
      else
        ((List.range 8).find? fun j =>
          allocator.frames byte &&& (1#8 <<< j) == 0#8).map
            fun j => (byte <<< 3) + j) =
      ((List.range 8).find? fun bit =>
        !decide (Marked allocator (8 * byte + bit))).map (8 * byte + ·) := by
  have shift : byte <<< 3 = 8 * byte := by
    rw [Nat.shiftLeft_eq]
    omega
  have marked : ∀ bit ∈ List.range 8,
      (!decide (Marked allocator (8 * byte + bit))) =
        (allocator.frames byte &&& (1#8 <<< bit) == 0#8) := by
    intro bit member
    have small := List.mem_range.mp member
    have sameByte : (8 * byte + bit) / 8 = byte := by omega
    have sameBit : (8 * byte + bit) % 8 = bit := by omega
    rw [Bool.eq_iff_iff, beq_iff_eq, masked_eq_zero_iff _ small]
    simp only [Marked, sameByte, sameBit, Bool.not_eq_true',
      decide_eq_false_iff_not, Bool.not_eq_true]
  rw [List.find?_congr marked, shift]
  split_ifs with full
  · have none : (List.range 8).find? (fun bit =>
        allocator.frames byte &&& (1#8 <<< bit) == 0#8) = none := by
      rw [full]
      decide
    rw [none, Option.map_none]
  · rfl

/-- Scanning bytes and then bits is scanning the frames in order. -/
theorem findSome_bytes
    (allocator : PageAllocator) (bytes : Nat) :
    ((List.range bytes).findSome? fun i =>
      if allocator.frames i = 0xFF#8 then none
      else
        ((List.range 8).find? fun j =>
          allocator.frames i &&& (1#8 <<< j) == 0#8).map
            fun j => (i <<< 3) + j) =
      (List.range (8 * bytes)).find? fun frame =>
        !decide (Marked allocator frame) := by
  induction bytes with
  | zero => rfl
  | succ bytes inductionHypothesis =>
      have step : List.range (bytes + 1) = List.range bytes ++ [bytes] :=
        List.range_succ
      have bits : List.range (8 * (bytes + 1)) =
          List.range (8 * bytes) ++
            (List.range 8).map (8 * bytes + ·) := by
        rw [Nat.mul_succ, List.range_add]
      rw [step, List.findSome?_append, inductionHypothesis, bits,
        List.find?_append, List.find?_map, List.findSome?_singleton,
        scan_byte]
      rfl

/-- `first_free_frame` returns the first free frame. -/
theorem firstFreeFrame_eq_head (allocator : PageAllocator) :
    firstFreeFrame allocator = (freeFrames allocator).head? := by
  rw [firstFreeFrame, bitmapIndex_eq, findSome_bytes, freeFrames,
    List.head?_filter]

/-- Frames below the bound are marked by their byte address. -/
theorem marked_frameSet_frame
    {allocator : PageAllocator} {frame : Nat}
    (small : allocator.nframes < 2 ^ 20) (inside : frame < allocator.nframes)
    (other : Nat) :
    Marked (frameSet (frame * 4096) allocator) other ↔
      other = frame ∨ Marked allocator other := by
  have limit : frameLimit allocator = allocator.nframes * 4096 :=
    Nat.mod_eq_of_lt (by simp only [pageSize]; omega)
  rw [marked_frameSet (by omega), Nat.mul_div_cancel frame (by decide)]

@[simp]
theorem nframes_frameSet (frameAddr : Nat) (allocator : PageAllocator) :
    (frameSet frameAddr allocator).nframes = allocator.nframes := by
  unfold frameSet
  split_ifs <;> rfl

@[simp]
theorem nframes_frameClear (frameAddr : Nat) (allocator : PageAllocator) :
    (frameClear frameAddr allocator).nframes = allocator.nframes := by
  unfold frameClear
  split_ifs <;> rfl

/-- Marking the first free frame takes it off the list of free frames. -/
theorem freeFrames_tail
    {allocator next : PageAllocator} {frame : Nat} {rest : List Nat}
    (free : freeFrames allocator = frame :: rest)
    (sameCount : next.nframes = allocator.nframes)
    (marked : ∀ other, Marked next other ↔
      other = frame ∨ Marked allocator other) :
    freeFrames next = rest := by
  have nodup := freeFrames_nodup allocator
  rw [free, List.nodup_cons] at nodup
  have filtered : freeFrames next =
      (freeFrames allocator).filter (fun other => decide (other ≠ frame)) := by
    rw [freeFrames, freeFrames, sameCount, List.filter_filter]
    refine List.filter_congr fun other _ => ?_
    rw [Bool.eq_iff_iff]
    simp only [marked, Bool.not_eq_true', decide_eq_false_iff_not, not_or,
      Bool.and_eq_true, decide_eq_true_eq, ne_eq]
  rw [filtered, free, List.filter_cons_of_neg (by simp),
    List.filter_eq_self.mpr]
  intro other member
  rw [decide_eq_true_eq]
  rintro rfl
  exact nodup.1 member

/-! ## What the operations do to the free frames -/

/-- `page_alloc` on an empty entry takes the first free frame. -/
theorem pageAlloc_of_free
    {page : PmlEntry} (flags : BitVec 64) {allocator : PageAllocator}
    {frame : Nat} {rest : List Nat}
    (empty : address page = 0) (small : allocator.nframes < 2 ^ 20)
    (free : freeFrames allocator = frame :: rest) :
    ∃ next,
      pageAlloc page flags allocator =
        some (orFlags (setPresent (setAddress page frame)) flags, next) ∧
      next.nframes = allocator.nframes ∧
      freeFrames next = rest ∧
      ∀ other, Marked next other ↔
        other = frame ∨ Marked allocator other := by
  have found : firstFreeFrame allocator = some frame := by
    rw [firstFreeFrame_eq_head, free, List.head?_cons]
  have inRange := (mem_freeFrames.mp (free ▸ List.mem_cons_self)).1
  have inside : frame < allocator.nframes := by omega
  have byteAddress : (frame <<< 12) % 2 ^ 64 = frame * 4096 := by
    rw [Nat.shiftLeft_eq]
    omega
  have marked := marked_frameSet_frame small inside
  have sameCount := nframes_frameSet (frame * 4096) allocator
  have equation : pageAlloc page flags allocator =
      some (orFlags (setPresent (setAddress page frame)) flags,
        { frameSet (frame * 4096) allocator with
          unavailableMemory :=
            ((frameSet (frame * 4096) allocator).unavailableMemory + 1) %
              2 ^ 64 }) := by
    rw [pageAlloc, if_neg (not_not.mpr empty), found, Option.map_some,
      byteAddress]
  exact ⟨_, equation, sameCount,
    freeFrames_tail free sameCount marked, marked⟩

/-- `after` is `before` with some of its first free frames taken. -/
def FramesTaken (before after : PageAllocator) : Prop :=
  after.nframes = before.nframes ∧
    ∃ taken, freeFrames before = taken ++ freeFrames after ∧
      ∀ frame, Marked after frame ↔ frame ∈ taken ∨ Marked before frame

theorem FramesTaken.refl (allocator : PageAllocator) :
    FramesTaken allocator allocator :=
  ⟨rfl, [], rfl, fun _ => by simp⟩

theorem FramesTaken.trans
    {first second third : PageAllocator}
    (earlier : FramesTaken first second)
    (later : FramesTaken second third) :
    FramesTaken first third := by
  obtain ⟨firstCount, taken, firstFree, firstMarked⟩ := earlier
  obtain ⟨secondCount, more, secondFree, secondMarked⟩ := later
  refine ⟨secondCount.trans firstCount, taken ++ more, ?_, ?_⟩
  · rw [firstFree, secondFree, List.append_assoc]
  · intro frame
    rw [secondMarked, firstMarked, List.mem_append]
    constructor
    · rintro (inMore | inTaken | old)
      · exact Or.inl (Or.inr inMore)
      · exact Or.inl (Or.inl inTaken)
      · exact Or.inr old
    · rintro ((inTaken | inMore) | old)
      · exact Or.inr (Or.inl inTaken)
      · exact Or.inl inMore
      · exact Or.inr (Or.inr old)

/-- Without a free frame the result of `page_alloc` is undefined. -/
theorem pageAlloc_of_exhausted
    {page : PmlEntry} {flags : BitVec 64} {allocator : PageAllocator}
    (empty : address page = 0) (exhausted : freeFrames allocator = []) :
    pageAlloc page flags allocator = none := by
  have stuck : firstFreeFrame allocator = none := by
    rw [firstFreeFrame_eq_head, exhausted, List.head?_nil]
  rw [pageAlloc, if_neg (not_not.mpr empty), stuck, Option.map_none]

/-- `page_alloc` on an entry that holds a frame does nothing. -/
theorem pageAlloc_of_allocated
    {page : PmlEntry} {flags : BitVec 64} {allocator : PageAllocator}
    (allocated : address page ≠ 0) :
    pageAlloc page flags allocator = some (page, allocator) :=
  if_pos allocated

/-- The reservation loop marks no frame beyond its pages. -/
theorem marked_of_marked_reserve
    {allocator : PageAllocator} {pages frame : Nat}
    (marked : Marked (reserve pages allocator) frame) :
    frame < pages ∨ Marked allocator frame := by
  induction pages with
  | zero => exact Or.inr marked
  | succ pages inductionHypothesis =>
      have step : reserve (pages + 1) allocator =
          frameSet (pages * 4096) (reserve pages allocator) := by
        rw [reserve, List.range_succ, List.foldl_append]
        rfl
      rw [step] at marked
      have earlier : frame = pages ∨
          Marked (reserve pages allocator) frame := by
        by_cases inside :
            pages * 4096 < frameLimit (reserve pages allocator)
        · rw [marked_frameSet inside, Nat.mul_div_cancel _ (by decide)]
            at marked
          exact marked
        · rw [frameSet, if_neg inside] at marked
          exact Or.inr marked
      rcases earlier with rfl | old
      · exact Or.inl (Nat.lt_succ_self _)
      · exact (inductionHypothesis old).imp_left Nat.lt_succ_of_lt

theorem nframes_reserve (pages : Nat) (allocator : PageAllocator) :
    (reserve pages allocator).nframes = allocator.nframes := by
  induction pages with
  | zero => rfl
  | succ pages inductionHypothesis =>
      rw [reserve, List.range_succ, List.foldl_append]
      exact (nframes_frameSet _ _).trans inductionHypothesis

/-- The reservation loop marks the frames of its pages. -/
theorem marked_reserve
    (allocator : PageAllocator) (small : allocator.nframes < 2 ^ 20)
    (pages frame : Nat) :
    (reserve pages allocator).nframes = allocator.nframes ∧
      (Marked (reserve pages allocator) frame ↔
        (frame < pages ∧ frame < allocator.nframes) ∨
          Marked allocator frame) := by
  induction pages with
  | zero => simp [reserve]
  | succ pages inductionHypothesis =>
      have step : reserve (pages + 1) allocator =
          frameSet (pages * 4096) (reserve pages allocator) := by
        rw [reserve, List.range_succ, List.foldl_append]
        rfl
      obtain ⟨sameCount, marked⟩ := inductionHypothesis
      rw [step, nframes_frameSet]
      refine ⟨sameCount, ?_⟩
      by_cases inside : pages < allocator.nframes
      · rw [marked_frameSet_frame (sameCount ▸ small) (sameCount ▸ inside),
          marked]
        constructor
        · rintro (rfl | ⟨below, bounded⟩ | old)
          · exact Or.inl ⟨Nat.lt_succ_self _, inside⟩
          · exact Or.inl ⟨Nat.lt_succ_of_lt below, bounded⟩
          · exact Or.inr old
        · rintro (⟨below, bounded⟩ | old)
          · rcases Nat.lt_succ_iff_lt_or_eq.mp below with below | rfl
            · exact Or.inr (Or.inl ⟨below, bounded⟩)
            · exact Or.inl rfl
          · exact Or.inr (Or.inr old)
      · have limit : frameLimit (reserve pages allocator) =
            allocator.nframes * 4096 := by
          rw [frameLimit, sameCount]
          exact Nat.mod_eq_of_lt (by simp only [pageSize]; omega)
        have outside : ¬ pages * 4096 <
            frameLimit (reserve pages allocator) := by
          omega
        rw [frameSet, if_neg outside, marked]
        constructor
        · rintro (⟨below, bounded⟩ | old)
          · exact Or.inl ⟨Nat.lt_succ_of_lt below, bounded⟩
          · exact Or.inr old
        · rintro (⟨below, bounded⟩ | old)
          · exact Or.inl ⟨by omega, bounded⟩
          · exact Or.inr old

/-- For addresses in memory the loop of `page_allocator_init` ends. -/
theorem pageAllocatorInit_returns
    {firstFreePage : Nat} (small : firstFreePage < 2 ^ 63) (memsize : Nat)
    (allocator : PageAllocator) :
    ∃ next, pageAllocatorInit firstFreePage memsize allocator =
      some next := by
  have ends : ((firstFreePage + (memsize >>> 12) % 2 ^ 32 / 8) % 2 ^ 64 +
      pageLowMask) / pageSize * pageSize < 2 ^ 64 := by
    simp only [pageLowMask, pageSize]
    omega
  exact ⟨_, if_pos ends⟩

/--
`page_allocator_init` marks the frames of memory below the bound, next to the
bits that clearing the whole bytes of the bitmap left.
-/
theorem pageAllocatorInit_reserved
    {firstFreePage memsize : Nat} {allocator next : PageAllocator}
    (small : memsize < 2 ^ 32)
    (initialised : pageAllocatorInit firstFreePage memsize allocator =
      some next) :
    next.nframes = memsize / 4096 ∧
      ∀ frame, Marked next frame ↔
        (frame * 4096 < (firstFreePage + memsize / 4096 / 8) % 2 ^ 64 ∧
          frame < memsize / 4096) ∨
        Marked (clearBitmap (memsize / 4096) allocator) frame := by
  have count : (memsize >>> 12) % 2 ^ 32 = memsize / 4096 := by
    rw [Nat.shiftRight_eq_div_pow]
    omega
  simp only [pageAllocatorInit, count] at initialised
  split_ifs at initialised with ends
  rw [Option.some.injEq] at initialised
  generalize (firstFreePage + memsize / 4096 / 8) % 2 ^ 64 = bound
    at initialised ⊢
  have bitmap : next.frames =
      (reserve ((bound + pageLowMask) / pageSize)
        (clearBitmap (memsize / 4096) allocator)).frames := by
    rw [← initialised]
  have sameCount : next.nframes =
      (reserve ((bound + pageLowMask) / pageSize)
        (clearBitmap (memsize / 4096) allocator)).nframes := by
    rw [← initialised]
  have cleared : (clearBitmap (memsize / 4096) allocator).nframes =
      memsize / 4096 := rfl
  have reserved := marked_reserve
    (clearBitmap (memsize / 4096) allocator) (by rw [cleared]; omega)
    ((bound + pageLowMask) / pageSize)
  have inPages : ∀ frame,
      frame < (bound + pageLowMask) / pageSize ↔ frame * 4096 < bound := by
    intro frame
    simp only [pageLowMask, pageSize]
    omega
  refine ⟨sameCount.trans (reserved 0).1, fun frame => ?_⟩
  rw [marked_congr bitmap, (reserved frame).2, inPages, cleared]

/-- The same for a bound that does not wrap. -/
theorem pageAllocatorInit_marked
    {firstFreePage memsize : Nat} {allocator next : PageAllocator}
    (small : memsize < 2 ^ 32)
    (unwrapped : firstFreePage + memsize / 4096 / 8 < 2 ^ 64)
    (initialised : pageAllocatorInit firstFreePage memsize allocator =
      some next) :
    next.nframes = memsize / 4096 ∧
      ∀ frame, Marked next frame ↔
        (frame * 4096 < firstFreePage + memsize / 4096 / 8 ∧
          frame < memsize / 4096) ∨
        Marked (clearBitmap (memsize / 4096) allocator) frame := by
  have reserved := pageAllocatorInit_reserved small initialised
  rwa [Nat.mod_eq_of_lt unwrapped] at reserved

/-- The whole bytes of the bitmap are cleared. -/
theorem not_marked_clearBitmap
    {nframes frame : Nat} (inside : frame < 8 * (nframes / 8))
    (allocator : PageAllocator) :
    ¬ Marked (clearBitmap nframes allocator) frame := by
  have inBytes : frame / 8 < nframes / 8 := by omega
  simp [Marked, clearBitmap, inBytes]

/--
After `page_allocator_init` the frames below the bound are marked, and of the
frames of whole bitmap bytes no others are.
-/
theorem pageAllocatorInit_spec
    {firstFreePage memsize : Nat} {allocator next : PageAllocator}
    (small : memsize < 2 ^ 32)
    (unwrapped : firstFreePage + memsize / 4096 / 8 < 2 ^ 64)
    (initialised : pageAllocatorInit firstFreePage memsize allocator =
      some next) :
    next.nframes = memsize / 4096 ∧
      (∀ frame, frame < memsize / 4096 →
        frame * 4096 < firstFreePage + memsize / 4096 / 8 →
          Marked next frame) ∧
      ∀ frame, frame < 8 * (memsize / 4096 / 8) →
        (Marked next frame ↔
          frame * 4096 < firstFreePage + memsize / 4096 / 8) := by
  obtain ⟨count, marked⟩ :=
    pageAllocatorInit_marked small unwrapped initialised
  refine ⟨count, ?_, ?_⟩
  · intro frame inside below
    exact (marked frame).mpr (Or.inl ⟨below, inside⟩)
  · intro frame inside
    rw [marked, or_iff_left (not_marked_clearBitmap inside allocator),
      and_iff_left (by omega)]

@[simp]
theorem nframes_pageFree (page : PmlEntry) (allocator : PageAllocator) :
    (pageFree page allocator).2.nframes = allocator.nframes := by
  have kept := nframes_frameClear (address page) allocator
  rw [pageFree]
  split_ifs
  · rfl
  · exact kept

/-- `page_free` clears at most the frame its entry's number is an address of. -/
theorem marked_pageFree
    {page : PmlEntry} {allocator : PageAllocator} {frame : Nat}
    (marked : Marked allocator frame) :
    Marked (pageFree page allocator).2 frame ∨
      (frameTest (address page) allocator = true ∧
        frame = address page / 4096) := by
  by_cases tested : frameTest (address page) allocator = true
  · by_cases same : frame = address page / 4096
    · exact Or.inr ⟨tested, same⟩
    · left
      have bitmap : (pageFree page allocator).2.frames =
          (frameClear (address page) allocator).frames := by
        rw [pageFree, tested]
        rfl
      rw [marked_congr bitmap]
      by_cases inside : address page < frameLimit allocator
      · exact (marked_frameClear inside frame).mpr ⟨same, marked⟩
      · rw [frameClear, if_neg inside]
        exact marked
  · left
    have skipped : pageFree page allocator = (page, allocator) :=
      if_pos (by simpa using tested)
    rw [skipped]
    exact marked

end Kernull.PageAlloc
