import Kernull.FrameBitmap
import Kernull.FrameSearch

/-!
# `page_free` after `page_alloc`

The address field of an entry holds a frame number.  `page_alloc` shifts it to
the byte address that the `frame_*` functions expect; `page_free` passes the
number itself, so that the bit of frame `f / 4096` is cleared for an entry
that holds frame `f`, and the entry stays present.
-/

namespace Kernull.PageRelease

open Kernull.Mm
open Kernull.Pml
open Kernull.PageAlloc
open Kernull.FrameBitmap
open Kernull.FrameSearch

/-- The variables of the allocator hold values of their types. -/
structure InRange (allocator : PageAllocator) : Prop where
  nframes : allocator.nframes < 2 ^ 32
  unavailable : allocator.unavailableMemory < 2 ^ 64

/-- `page_alloc` followed by `page_free` of the same entry. -/
def allocFree (page : PmlEntry) (flags : BitVec 64)
    (allocator : PageAllocator) : Option (PmlEntry × PageAllocator) :=
  (pageAlloc page flags allocator).map fun taken => pageFree taken.1 taken.2

/-- Bitmap and counter are as before. -/
def RestoresAllocator (page : PmlEntry) (flags : BitVec 64)
    (allocator : PageAllocator) : Prop :=
  ∃ freed, allocFree page flags allocator = some freed ∧
    freed.2.frames = allocator.frames ∧
    freed.2.unavailableMemory = allocator.unavailableMemory

/-- Bitmap and counter are as before, and the entry maps nothing. -/
def Undoes (page : PmlEntry) (flags : BitVec 64)
    (allocator : PageAllocator) : Prop :=
  ∃ freed, allocFree page flags allocator = some freed ∧
    freed.2.frames = allocator.frames ∧
    freed.2.unavailableMemory = allocator.unavailableMemory ∧
    address freed.1 = 0 ∧ present freed.1 = false

/-- `page_free` clears the bit of the frame its entry holds and no other. -/
def ClearsItsFrame (page : PmlEntry) (allocator : PageAllocator) : Prop :=
  markedFrames (pageFree page allocator).2 =
    markedFrames allocator \ {address page}

/-- The marked frames determine the bitmap. -/
theorem frames_eq_iff {left right : PageAllocator} :
    left.frames = right.frames ↔ markedFrames left = markedFrames right := by
  constructor
  · intro same
    ext frame
    exact marked_congr same frame
  · intro same
    funext byte
    apply BitVec.eq_of_getLsbD_eq
    intro bit small
    have bits := Set.ext_iff.mp same (8 * byte + bit)
    have sameByte : (8 * byte + bit) / 8 = byte := by omega
    have sameBit : (8 * byte + bit) % 8 = bit := by omega
    simp only [markedFrames, Set.mem_ofPred_eq, Marked, sameByte,
      sameBit] at bits
    exact Bool.eq_iff_iff.mpr bits

/-! ## What `page_free` does to the set -/

section Release

variable {page : PmlEntry} {allocator : PageAllocator}

/-- An entry whose test fails is left alone. -/
theorem pageFree_of_untested
    (untested : frameTest (address page) allocator = false) :
    pageFree page allocator = (page, allocator) := by
  rw [pageFree, untested]
  rfl

theorem pageFree_of_tested
    (tested : frameTest (address page) allocator = true) :
    pageFree page allocator =
      (setAddress page 0,
        { frameClear (address page) allocator with
          unavailableMemory :=
            sub64 (frameClear (address page) allocator).unavailableMemory
              1 }) := by
  rw [pageFree, tested]
  rfl

/-- `page_free` removes the frame whose number is the byte address's. -/
theorem markedFrames_pageFree :
    markedFrames (pageFree page allocator).2 =
      if address page < frameLimit allocator then
        markedFrames allocator \ {address page / 4096}
      else markedFrames allocator := by
  by_cases inside : address page < frameLimit allocator
  · rw [if_pos inside]
    cases tested : frameTest (address page) allocator with
    | true =>
        rw [pageFree_of_tested tested]
        exact markedFrames_frameClear inside
    | false =>
        rw [pageFree_of_untested tested]
        have unmarked : address page / 4096 ∉ markedFrames allocator := by
          intro marked
          rw [frameTest_eq_true_iff.mpr (Or.inr marked)] at tested
          exact nomatch tested
        exact (Set.sdiff_singleton_eq_self unmarked).symm
  · rw [if_neg inside]
    have tested : frameTest (address page) allocator = true :=
      frameTest_eq_true_iff.mpr (Or.inl (Nat.not_lt.mp inside))
    rw [pageFree_of_tested tested,
      frameClear_of_outside (Nat.not_lt.mp inside)]
    rfl

/-- Only frame zero has the number of its byte address. -/
theorem clearsItsFrame_iff :
    ClearsItsFrame page allocator ↔
      (address page = 0 ∧ 0 < frameLimit allocator) ∨
        (address page ∉ markedFrames allocator ∧
          (frameLimit allocator ≤ address page ∨
            address page / 4096 ∉ markedFrames allocator)) := by
  rw [ClearsItsFrame, markedFrames_pageFree]
  by_cases inside : address page < frameLimit allocator
  · rw [if_pos inside]
    by_cases zero : address page = 0
    · have limit : 0 < frameLimit allocator := by omega
      rw [zero]
      exact iff_of_true rfl (Or.inl ⟨rfl, limit⟩)
    · have different : address page / 4096 ≠ address page := by omega
      have notOutside : ¬ frameLimit allocator ≤ address page := by omega
      simp only [zero, false_and, false_or, notOutside]
      constructor
      · intro same
        have shifted := Set.ext_iff.mp same (address page / 4096)
        have itself := Set.ext_iff.mp same (address page)
        simp only [Set.mem_sdiff, Set.mem_singleton_iff, not_true_eq_false,
          and_false, different, different.symm, not_false_eq_true, and_true,
          false_iff, iff_false] at shifted itself
        exact ⟨itself, shifted⟩
      · rintro ⟨itself, shifted⟩
        rw [Set.sdiff_singleton_eq_self itself,
          Set.sdiff_singleton_eq_self shifted]
  · rw [if_neg inside, eq_comm, sdiff_eq_left,
      Set.disjoint_singleton_right]
    constructor
    · exact fun free => Or.inr ⟨free, Or.inl (Nat.not_lt.mp inside)⟩
    · rintro (⟨zero, limit⟩ | ⟨free, _⟩)
      · omega
      · exact free

end Release

/-! ## Allocation and release -/

section Undo

variable {page : PmlEntry} {allocator : PageAllocator} {frame : Nat}

/-- The entry stays present through both calls. -/
theorem present_allocFree
    {flags : BitVec 64} {freed : PmlEntry × PageAllocator}
    (empty : address page = 0)
    (runs : allocFree page flags allocator = some freed) :
    present freed.1 = true := by
  obtain ⟨taken, allocates, rfl⟩ := Option.map_eq_some_iff.mp runs
  rw [pageAlloc, if_neg (not_not.mpr empty)] at allocates
  obtain ⟨frame, _, rfl⟩ := Option.map_eq_some_iff.mp allocates
  rw [pageFree]
  split_ifs
  · simp only [present_orFlags, present_setPresent]
  · simp only [present_setAddress, present_orFlags, present_setPresent]

/-- The allocator behind a successful `page_alloc`. -/
def taken (frame : Nat) (allocator : PageAllocator) : PageAllocator :=
  { frameSet (frame * 4096) allocator with
    unavailableMemory :=
      ((frameSet (frame * 4096) allocator).unavailableMemory + 1) % 2 ^ 64 }

theorem frameLimit_taken :
    frameLimit (taken frame allocator) = frameLimit allocator :=
  frameLimit_frameSet

theorem markedFrames_taken :
    markedFrames (taken frame allocator) =
      markedFrames (frameSet (frame * 4096) allocator) :=
  rfl

/--
All frames below the first free one are in use, so the test of `page_free`
never fails for the entry that was just allocated.
-/
theorem frameTest_taken
    (found : firstFreeFrame allocator = some frame) :
    frameTest frame (taken frame allocator) = true := by
  rw [frameTest_eq_true_iff, frameLimit_taken, markedFrames_taken]
  by_cases inside : frame < frameLimit allocator
  · right
    rcases Nat.eq_zero_or_pos frame with rfl | positive
    · rw [Nat.zero_mul, markedFrames_frameSet inside]
      exact Set.mem_insert _ _
    · have marked := (leastFree_of_found found).least (frame / 4096)
        (by omega)
      by_cases stored : frame * 4096 < frameLimit allocator
      · rw [markedFrames_frameSet stored]
        exact Set.mem_insert_of_mem _ marked
      · rw [frameSet_of_outside (Nat.not_lt.mp stored)]
        exact marked
  · exact Or.inl (Nat.not_lt.mp inside)

theorem allocFree_of_found
    (range : InRange allocator) (flags : BitVec 64)
    (empty : address page = 0)
    (found : firstFreeFrame allocator = some frame) :
    allocFree page flags allocator =
      some (setAddress (orFlags (setPresent (setAddress page frame)) flags) 0,
        { frameClear frame (taken frame allocator) with
          unavailableMemory :=
            sub64 (frameClear frame
              (taken frame allocator)).unavailableMemory 1 }) := by
  have inMemory := (leastFree_of_found found).inMemory
  have count := range.nframes
  have byteAddress : (frame <<< 12) % 2 ^ 64 = frame * 4096 := by
    rw [Nat.shiftLeft_eq]
    omega
  have held : address (orFlags (setPresent (setAddress page frame)) flags) =
      frame := by
    rw [address_orFlags, address_setPresent, address_setAddress]
    exact Nat.mod_eq_of_lt (by omega)
  rw [allocFree, pageAlloc_of_found flags empty found, byteAddress,
    Option.map_some, pageFree_of_tested (held.symm ▸ frameTest_taken found),
    held]
  rfl

@[simp]
theorem unavailableMemory_frameClear
    (frameAddr : Nat) (allocator : PageAllocator) :
    (frameClear frameAddr allocator).unavailableMemory =
      allocator.unavailableMemory := by
  rw [frameClear]
  split_ifs <;> rfl

/-- The counter is always restored. -/
theorem counter_restored (range : InRange allocator) :
    sub64 (frameClear frame (taken frame allocator)).unavailableMemory 1 =
      allocator.unavailableMemory := by
  have bound := range.unavailable
  rw [unavailableMemory_frameClear]
  simp only [taken, unavailableMemory_frameSet, sub64]
  omega

/-- The bitmap is restored for frame zero, and where nothing is stored. -/
theorem bitmap_restored_iff
    (found : firstFreeFrame allocator = some frame) :
    markedFrames (frameClear frame (taken frame allocator)) =
        markedFrames allocator ↔
      frame = 0 ∨ frameLimit allocator ≤ frame := by
  have least := leastFree_of_found found
  by_cases inside : frame < frameLimit allocator
  · have insideTaken : frame < frameLimit (taken frame allocator) := by
      rw [frameLimit_taken]
      exact inside
    rw [markedFrames_frameClear insideTaken, markedFrames_taken,
      or_iff_left (Nat.not_le.mpr inside)]
    constructor
    · intro same
      by_contra positive
      have marked := least.least (frame / 4096) (by omega)
      have cleared := (Set.ext_iff.mp same (frame / 4096)).mpr marked
      exact cleared.2 rfl
    · rintro rfl
      rw [Nat.zero_mul, markedFrames_frameSet inside]
      exact Set.insert_sdiff_self_of_notMem least.free
  · have outside : frameLimit (taken frame allocator) ≤ frame := by
      rw [frameLimit_taken]
      exact Nat.not_lt.mp inside
    have stored : frameLimit allocator ≤ frame * 4096 := by omega
    rw [frameClear_of_outside outside, markedFrames_taken,
      frameSet_of_outside stored]
    exact iff_of_true rfl (Or.inr (Nat.not_lt.mp inside))

theorem restoresAllocator_iff
    (range : InRange allocator) (flags : BitVec 64)
    (empty : address page = 0) :
    RestoresAllocator page flags allocator ↔
      ∃ frame, firstFreeFrame allocator = some frame ∧
        (frame = 0 ∨ frameLimit allocator ≤ frame) := by
  constructor
  · rintro ⟨freed, runs, bitmap, _⟩
    obtain ⟨_, allocates, _⟩ := Option.map_eq_some_iff.mp runs
    rw [pageAlloc, if_neg (not_not.mpr empty)] at allocates
    obtain ⟨frame, found, _⟩ := Option.map_eq_some_iff.mp allocates
    rw [allocFree_of_found range flags empty found] at runs
    obtain rfl := Option.some.inj runs
    exact ⟨frame, found,
      (bitmap_restored_iff found).mp (frames_eq_iff.mp bitmap)⟩
  · rintro ⟨frame, found, restored⟩
    exact ⟨_, allocFree_of_found range flags empty found,
      frames_eq_iff.mpr ((bitmap_restored_iff found).mpr restored),
      counter_restored range⟩

/--
`page_free` never undoes `page_alloc`, since the entry stays present.  Bitmap
and counter are restored exactly for frame zero and for frames behind the
wrapped bound, and the entry's own bit is the one that is cleared exactly for
frame zero and for frames that are free anyway.
-/
theorem page_free_undoes_iff
    (range : InRange allocator) (page : PmlEntry) :
    (∀ flags, address page = 0 →
      (∃ frame < allocator.nframes, ¬ Marked allocator frame) →
        ¬ Undoes page flags allocator) ∧
    (∀ flags, address page = 0 →
      (RestoresAllocator page flags allocator ↔
        ∃ frame, firstFreeFrame allocator = some frame ∧
          (frame = 0 ∨ frameLimit allocator ≤ frame))) ∧
    (ClearsItsFrame page allocator ↔
      (address page = 0 ∧ 0 < frameLimit allocator) ∨
        (address page ∉ markedFrames allocator ∧
          (frameLimit allocator ≤ address page ∨
            address page / 4096 ∉ markedFrames allocator))) := by
  refine ⟨?_, fun flags empty => restoresAllocator_iff range flags empty,
    clearsItsFrame_iff⟩
  rintro flags empty - ⟨freed, runs, -, -, -, absent⟩
  rw [present_allocFree empty runs] at absent
  exact nomatch absent

end Undo

/-- For an entry that holds frame zero the right bit is cleared. -/
theorem frame_zero_cleared : ClearsItsFrame 0x1 sixteenFrames :=
  (page_free_undoes_iff ⟨by decide, by decide⟩ 0x1).2.2.mpr
    (Or.inl ⟨by decide, by decide⟩)

/-- Freeing the entry that holds frame 2 does not restore the bitmap. -/
theorem allocated_frame_not_freed :
    ¬ ∀ (allocator : PageAllocator) (page : PmlEntry) (flags : BitVec 64),
      InRange allocator → address page = 0 →
      (∃ frame < allocator.nframes, ¬ Marked allocator frame) →
        Undoes page flags allocator := by
  intro undoes
  have range : InRange sixteenFrames := ⟨by decide, by decide⟩
  obtain ⟨freed, runs, bitmap, counter, _⟩ := undoes sixteenFrames 0
    pmlFlagWritable range (by decide) ⟨2, by decide, by decide⟩
  obtain ⟨frame, found, restored⟩ :=
    (restoresAllocator_iff range pmlFlagWritable (by decide)).mp
      ⟨freed, runs, bitmap, counter⟩
  have second : firstFreeFrame sixteenFrames = some 2 := by decide
  obtain rfl := Option.some.inj (second.symm.trans found)
  exact absurd restored (by decide)

end Kernull.PageRelease
