import Kernull.PageAlloc

/-!
# The search for a free frame

`first_free_frame` scans the whole bytes of the bitmap and returns the least
free frame among them.  It does not look at the bits of a last, partial byte,
and it has no `return` behind its loops.  `page_alloc` goes on with whatever
value the call leaves behind; here that value is a parameter, which may depend
on the state of the allocator in any way.
-/

namespace Kernull.FrameSearch

open Kernull.Mm
open Kernull.Pml
open Kernull.PageAlloc

/-! ## The least free frame -/

/-- The least frame below `nframes` whose bit is clear. -/
structure LeastFree (allocator : PageAllocator) (frame : Nat) : Prop where
  inMemory : frame < allocator.nframes
  free : ¬ Marked allocator frame
  least : ∀ other, other < frame → Marked allocator other

/-- The least free frame is found, and `page_alloc` uses it. -/
def FindsLeast (allocator : PageAllocator) : Prop :=
  ∃ frame, LeastFree allocator frame ∧
    firstFreeFrame allocator = some frame ∧
    ∀ page flags, address page = 0 →
      ∃ result, pageAlloc page flags allocator = some result ∧
        address result.1 = frame

section Search

variable {allocator : PageAllocator}

/-- What `first_free_frame` returns is the least free frame it scans. -/
theorem firstFreeFrame_eq_some_iff {frame : Nat} :
    firstFreeFrame allocator = some frame ↔
      frame < 8 * (allocator.nframes / 8) ∧ ¬ Marked allocator frame ∧
        ∀ other, other < frame → Marked allocator other := by
  rw [firstFreeFrame, bitmapIndex_eq, findSome_bytes,
    List.find?_range_eq_some]
  simp only [Bool.not_eq_true', decide_eq_false_iff_not, List.mem_range,
    Bool.not_not, decide_eq_true_eq]
  tauto

/-- The frames below the first free one are in use. -/
theorem leastFree_of_found
    {frame : Nat} (found : firstFreeFrame allocator = some frame) :
    LeastFree allocator frame := by
  obtain ⟨scanned, free, least⟩ := firstFreeFrame_eq_some_iff.mp found
  exact ⟨by omega, free, least⟩

/-- A free frame in a whole byte makes the search end with one. -/
theorem exists_found_of_free
    {frame : Nat} (scanned : frame < 8 * (allocator.nframes / 8))
    (free : ¬ Marked allocator frame) :
    ∃ first, firstFreeFrame allocator = some first := by
  have member := mem_freeFrames.mpr ⟨scanned, free⟩
  rw [firstFreeFrame_eq_head]
  cases frames : freeFrames allocator with
  | nil =>
      rw [frames] at member
      exact nomatch member
  | cons first rest => exact ⟨first, rfl⟩

theorem pageAlloc_of_found
    {page : PmlEntry} {frame : Nat} (flags : BitVec 64)
    (empty : address page = 0)
    (found : firstFreeFrame allocator = some frame) :
    pageAlloc page flags allocator =
      some (orFlags (setPresent (setAddress page frame)) flags,
        { frameSet ((frame <<< 12) % 2 ^ 64) allocator with
          unavailableMemory :=
            ((frameSet ((frame <<< 12) % 2 ^ 64)
              allocator).unavailableMemory + 1) % 2 ^ 64 }) := by
  rw [pageAlloc, if_neg (not_not.mpr empty), found, Option.map_some]

/--
The search is complete exactly when a whole byte of the bitmap has a free
frame: free frames of a last, partial byte are never found.
-/
theorem search_complete_iff
    (count : allocator.nframes < 2 ^ 32)
    (free : ∃ frame < allocator.nframes, ¬ Marked allocator frame) :
    FindsLeast allocator ↔
      ∃ frame < 8 * (allocator.nframes / 8), ¬ Marked allocator frame := by
  constructor
  · rintro ⟨frame, _, found, _⟩
    obtain ⟨scanned, unmarked, _⟩ := firstFreeFrame_eq_some_iff.mp found
    exact ⟨frame, scanned, unmarked⟩
  · rintro ⟨_, scanned, unmarked⟩
    obtain ⟨first, found⟩ := exists_found_of_free scanned unmarked
    have least := leastFree_of_found found
    have inMemory := least.inMemory
    refine ⟨first, least, found, fun page flags empty => ?_⟩
    refine ⟨_, pageAlloc_of_found flags empty found, ?_⟩
    rw [address_orFlags, address_setPresent, address_setAddress]
    exact Nat.mod_eq_of_lt (by omega)

end Search

/-- Ten frames, of which all but the ninth are in use. -/
def lastByteFree : PageAllocator where
  frames := fun i => if i = 0 then 0xFF else 0x02
  nframes := 10
  totalMemory := 0
  unavailableMemory := 0

/-- With the last frame of the first byte free the search is complete. -/
theorem search_complete_in_first_byte :
    FindsLeast { lastByteFree with frames := fun _ => 0x7F } :=
  (search_complete_iff (by decide) ⟨7, by decide, by decide⟩).mpr
    ⟨7, by decide, by decide⟩

/-- The free frame of a partial byte is not found. -/
theorem partial_byte_not_searched :
    ¬ ∀ allocator : PageAllocator, allocator.nframes < 2 ^ 32 →
      (∃ frame < allocator.nframes, ¬ Marked allocator frame) →
        FindsLeast allocator := by
  intro complete
  obtain ⟨frame, least, found, _⟩ :=
    complete lastByteFree (by decide) ⟨8, by decide, by decide⟩
  have scanned := (firstFreeFrame_eq_some_iff.mp found).1
  have full : ∀ frame < 8, Marked lastByteFree frame := by decide
  exact least.free (full frame scanned)

/-! ## Exhaustion -/

/--
`first_free_frame` with the value its caller sees when the loops end without
a result.
-/
def firstFreeFrameOr (fallOff : PageAllocator → Nat)
    (allocator : PageAllocator) : Nat :=
  (firstFreeFrame allocator).getD (fallOff allocator)

/-- `page_alloc` for every result of the search. -/
def pageAllocOr (fallOff : PageAllocator → Nat) (page : PmlEntry)
    (flags : BitVec 64) (allocator : PageAllocator) :
    PmlEntry × PageAllocator :=
  if address page ≠ 0 then (page, allocator)
  else
    let idx := firstFreeFrameOr fallOff allocator
    let marked := frameSet ((idx <<< 12) % 2 ^ 64) allocator
    (orFlags (setPresent (setAddress page idx)) flags,
      { marked with
        unavailableMemory := (marked.unavailableMemory + 1) % 2 ^ 64 })

/-- Where `page_alloc` is defined the value does not matter. -/
theorem pageAllocOr_of_pageAlloc
    {page : PmlEntry} {flags : BitVec 64} {allocator : PageAllocator}
    {result : PmlEntry × PageAllocator} (fallOff : PageAllocator → Nat)
    (allocates : pageAlloc page flags allocator = some result) :
    pageAllocOr fallOff page flags allocator = result := by
  rw [pageAlloc] at allocates
  rw [pageAllocOr]
  split_ifs at allocates ⊢ with allocated
  · exact Option.some.inj allocates
  · obtain ⟨frame, found, rfl⟩ := Option.map_eq_some_iff.mp allocates
    rw [firstFreeFrameOr, found, Option.getD_some]

@[simp]
theorem unavailableMemory_frameSet
    (frameAddr : Nat) (allocator : PageAllocator) :
    (frameSet frameAddr allocator).unavailableMemory =
      allocator.unavailableMemory := by
  rw [frameSet]
  split_ifs <;> rfl

/-- `page_alloc` changes neither entry, nor bitmap, nor counter. -/
structure LeavesUntouched (fallOff : PageAllocator → Nat) (page : PmlEntry)
    (flags : BitVec 64) (allocator : PageAllocator) : Prop where
  entry : (pageAllocOr fallOff page flags allocator).1 = page
  bitmap : (pageAllocOr fallOff page flags allocator).2.frames =
    allocator.frames
  counter : (pageAllocOr fallOff page flags allocator).2.unavailableMemory =
    allocator.unavailableMemory

/--
Without a free frame `page_alloc` is an error exactly for an entry that holds
a frame already.  An empty entry is marked present with whatever value the
search leaves, and the counter moves.
-/
theorem exhaustion_untouched_iff
    {allocator : PageAllocator}
    (exhausted : firstFreeFrame allocator = none)
    (fallOff : PageAllocator → Nat) (page : PmlEntry) (flags : BitVec 64) :
    (LeavesUntouched fallOff page flags allocator ↔ address page ≠ 0) ∧
      (address page = 0 →
        present (pageAllocOr fallOff page flags allocator).1 = true ∧
        address (pageAllocOr fallOff page flags allocator).1 =
          fallOff allocator % 2 ^ 40) := by
  have value : firstFreeFrameOr fallOff allocator = fallOff allocator := by
    rw [firstFreeFrameOr, exhausted, Option.getD_none]
  refine ⟨⟨?_, ?_⟩, fun empty => ?_⟩
  · rintro untouched empty
    have counter := untouched.counter
    simp only [pageAllocOr, if_neg (not_not.mpr empty),
      unavailableMemory_frameSet] at counter
    omega
  · intro allocated
    have same : pageAllocOr fallOff page flags allocator =
        (page, allocator) := if_pos allocated
    constructor <;> rw [same]
  · rw [pageAllocOr, if_neg (not_not.mpr empty), value]
    simp only [present_orFlags, present_setPresent, address_orFlags,
      address_setPresent, address_setAddress, and_self]

/-- Eight frames, all in use. -/
def fullByte : PageAllocator where
  frames := fun _ => 0xFF
  nframes := 8
  totalMemory := 0
  unavailableMemory := 8

theorem exhaustion_of_allocated_entry :
    LeavesUntouched (fun _ => 0) 0x5003 pmlFlagWritable fullByte :=
  (exhaustion_untouched_iff (by decide) (fun _ => 0) 0x5003
    pmlFlagWritable).1.mpr (by decide)

/-- An empty entry is marked present when all frames are in use. -/
theorem exhaustion_marks_entry_present :
    ¬ ∀ (allocator : PageAllocator) (fallOff : PageAllocator → Nat)
      (page : PmlEntry) (flags : BitVec 64),
      firstFreeFrame allocator = none →
        LeavesUntouched fallOff page flags allocator := by
  intro untouched
  have entry := (untouched fullByte (fun _ => 0) 0 0 (by decide)).entry
  exact absurd entry (by decide)

end Kernull.FrameSearch
