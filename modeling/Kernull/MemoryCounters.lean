import Kernull.FrameSearch
import Kernull.Library.LabelledRun
import Kernull.MetadataWindow
import Mathlib.Data.Finset.Card
import Mathlib.Order.Interval.Finset.Nat

/-!
# The memory counters of the page allocator

`page_allocator_init` counts the reserved memory in bytes, subtracts it from a
number of frames and scales both results by the page size once more;
`page_alloc` and `page_free` then count single frames.  The counters agree
with the bitmap, in bytes, only where nothing is ever reserved or handed out,
not even by a call that finds no free frame.
-/

namespace Kernull.MemoryCounters

open Kernull.Mm
open Kernull.Pml
open Kernull.PageAlloc
open Kernull.FrameSearch
open Kernull.MetadataWindow
open Kernull.Library.LabelledRun

/-- `get_total_memory`. -/
def getTotalMemory (allocator : PageAllocator) : Nat :=
  allocator.totalMemory

/-- `get_used_memory`. -/
def getUsedMemory (allocator : PageAllocator) : Nat :=
  allocator.unavailableMemory

/-! ## Calls and the property -/

/-- A call of the allocator with the contents of the entry it is given. -/
inductive PageCall where
  | alloc (page : PmlEntry) (flags : BitVec 64)
  | free (page : PmlEntry)

/--
The allocator after a call; `fallOff` is the number that `page_alloc` sees
when no frame is free.
-/
def callStep (fallOff : PageAllocator → Nat) (allocator : PageAllocator) :
    PageCall → Option PageAllocator
  | .alloc page flags => some (pageAllocOr fallOff page flags allocator).2
  | .free page => some (pageFree page allocator).2

/-- The frames of memory that are marked as in use. -/
def framesInUse (allocator : PageAllocator) : Finset Nat :=
  (Finset.range allocator.nframes).filter fun frame =>
    Marked allocator frame

/-- `unavail` at the end of its loop. -/
def unavailBytes (firstFreePage memsize : Nat) : Nat :=
  ((firstFreePage + metadataBytes memsize) % 2 ^ 64 + pageLowMask) /
    pageSize * pageSize

/-- The computations of `page_allocator_init` do not wrap around. -/
structure NoWrap (firstFreePage memsize nframes : Nat) : Prop where
  avail : unavailBytes firstFreePage memsize ≤ nframes
  total : (nframes - unavailBytes firstFreePage memsize) * pageSize < 2 ^ 64
  unavailable : unavailBytes firstFreePage memsize * pageSize < 2 ^ 64

/--
The counters are the memory in use and the memory that was left unreserved,
in bytes.
-/
structure CountersRight (initialised allocator : PageAllocator) : Prop where
  used : getUsedMemory allocator =
    (framesInUse allocator).card * pageSize
  total : getTotalMemory allocator =
    (initialised.nframes - (framesInUse initialised).card) * pageSize

/--
The accounting after `page_allocator_init` and along every sequence of calls
that follows.
-/
def AccountingHolds (fallOff : PageAllocator → Nat)
    (firstFreePage memsize : Nat) (allocator : PageAllocator)
    (calls : List PageCall) : Prop :=
  ∃ initialised,
    pageAllocatorInit firstFreePage memsize allocator = some initialised ∧
    NoWrap firstFreePage memsize initialised.nframes ∧
    ∀ visited, Visits (callStep fallOff) initialised calls visited →
      CountersRight initialised visited

/--
The call does not change an allocator with no whole byte of the bitmap:
`page_alloc` is given an entry that holds a frame, and `page_free` one with a
number below the limit.
-/
def ChangesNothing (limit : Nat) : PageCall → Prop
  | .alloc page _ => address page ≠ 0
  | .free page => address page < limit

instance (limit : Nat) :
    (call : PageCall) → Decidable (ChangesNothing limit call)
  | .alloc page _ => inferInstanceAs (Decidable (address page ≠ 0))
  | .free page => inferInstanceAs (Decidable (address page < limit))

/--
When the accounting holds: nothing is reserved, the bitmap has no whole byte
and no stale bit of a frame, and no call changes it.
-/
structure NothingCounted (firstFreePage memsize : Nat)
    (allocator : PageAllocator) (calls : List PageCall) : Prop where
  noKernel : firstFreePage = 0
  few : (memsize >>> 12) % 2 ^ 32 < 8
  clean : ∀ frame, frame < (memsize >>> 12) % 2 ^ 32 →
    ¬ Marked allocator frame
  idle : ∀ call ∈ calls,
    ChangesNothing ((memsize >>> 12) % 2 ^ 32 * pageSize) call

/-! ## What is marked after initialisation -/

/-- The fields that `page_allocator_init` computes. -/
theorem pageAllocatorInit_fields
    {firstFreePage memsize : Nat} {allocator initialised : PageAllocator}
    (returned : pageAllocatorInit firstFreePage memsize allocator =
      some initialised) :
    initialised.nframes = (memsize >>> 12) % 2 ^ 32 ∧
      initialised.frames =
        (reserve (unavailBytes firstFreePage memsize / pageSize)
          (clearBitmap ((memsize >>> 12) % 2 ^ 32) allocator)).frames ∧
      initialised.totalMemory =
        sub64 ((memsize >>> 12) % 2 ^ 32)
          (unavailBytes firstFreePage memsize) * pageSize % 2 ^ 64 ∧
      initialised.unavailableMemory =
        unavailBytes firstFreePage memsize * pageSize % 2 ^ 64 := by
  have pages : unavailBytes firstFreePage memsize / pageSize =
      ((firstFreePage + metadataBytes memsize) % 2 ^ 64 + pageLowMask) /
        pageSize :=
    Nat.mul_div_cancel _ (by decide)
  rw [pages]
  simp only [pageAllocatorInit] at returned
  split_ifs at returned
  rw [Option.some.injEq] at returned
  subst returned
  exact ⟨nframes_reserve _ _, rfl, rfl, rfl⟩

/-- At most the reserved pages and a partial byte are in use. -/
theorem card_framesInUse_le
    {firstFreePage memsize : Nat} {allocator initialised : PageAllocator}
    (returned : pageAllocatorInit firstFreePage memsize allocator =
      some initialised) :
    (framesInUse initialised).card ≤
      unavailBytes firstFreePage memsize / pageSize + 7 := by
  obtain ⟨count, bitmap, _, _⟩ := pageAllocatorInit_fields returned
  have covered : framesInUse initialised ⊆
      Finset.range (unavailBytes firstFreePage memsize / pageSize) ∪
        Finset.Ico (8 * (initialised.nframes / 8)) initialised.nframes := by
    intro frame inUse
    rw [framesInUse, Finset.mem_filter, Finset.mem_range] at inUse
    rw [Finset.mem_union, Finset.mem_range, Finset.mem_Ico]
    have marked := (marked_congr bitmap frame).mp inUse.2
    rcases marked_of_marked_reserve marked with below | old
    · exact Or.inl below
    · refine Or.inr ⟨?_, inUse.1⟩
      by_contra whole
      rw [count] at whole
      exact not_marked_clearBitmap (Nat.not_le.mp whole) allocator old
  calc
    (framesInUse initialised).card ≤ _ := Finset.card_le_card covered
    _ ≤ _ := Finset.card_union_le _ _
    _ ≤ _ := by
      rw [Finset.card_range, Nat.card_Ico]
      omega

/-! ## Runs in which nothing is counted -/

/-- Fewer than eight frames, none in use, and counters that say so. -/
structure Quiet (nframes : Nat) (allocator : PageAllocator) : Prop where
  count : allocator.nframes = nframes
  few : nframes < 8
  clean : ∀ frame, frame < nframes → ¬ Marked allocator frame
  used : allocator.unavailableMemory = 0
  total : allocator.totalMemory = nframes * pageSize

namespace Quiet

variable {nframes : Nat} {allocator initialised : PageAllocator}

theorem framesInUse_eq (quiet : Quiet nframes allocator) :
    framesInUse allocator = ∅ := by
  rw [framesInUse, Finset.filter_eq_empty_iff]
  intro frame inside
  rw [Finset.mem_range, quiet.count] at inside
  exact quiet.clean frame inside

theorem countersRight (quiet : Quiet nframes allocator)
    (start : Quiet nframes initialised) :
    CountersRight initialised allocator := by
  refine ⟨?_, ?_⟩
  · rw [getUsedMemory, quiet.used, quiet.framesInUse_eq, Finset.card_empty,
      Nat.zero_mul]
  · rw [getTotalMemory, quiet.total, start.framesInUse_eq,
      Finset.card_empty, start.count, Nat.sub_zero]

theorem frameLimit_eq (quiet : Quiet nframes allocator) :
    frameLimit allocator = nframes * pageSize := by
  have few := quiet.few
  rw [frameLimit, quiet.count]
  simp only [pageSize]
  omega

/-- No frame below the limit is in use, so nothing is freed. -/
theorem callStep_of_changesNothing (quiet : Quiet nframes allocator)
    (fallOff : PageAllocator → Nat) {call : PageCall}
    (idle : ChangesNothing (nframes * pageSize) call) :
    callStep fallOff allocator call = some allocator := by
  cases call with
  | alloc page flags =>
      have same : pageAllocOr fallOff page flags allocator =
          (page, allocator) := if_pos idle
      rw [callStep, same]
  | free page =>
      have inside : address page < nframes * pageSize := idle
      have frameInside : address page / 4096 < nframes := by
        simp only [pageSize] at inside
        omega
      have limit : address page < frameLimit allocator := by
        rwa [quiet.frameLimit_eq]
      have untested : frameTest (address page) allocator = false :=
        Bool.eq_false_iff.mpr fun tested =>
          quiet.clean _ frameInside ((frameTest_iff limit).mp tested)
      rw [callStep, pageFree, untested]
      rfl

/--
An allocation for an empty entry is counted although no frame is found, and a
number beyond the limit counts as in use and is counted down.
-/
theorem callStep_of_not_changesNothing (quiet : Quiet nframes allocator)
    (fallOff : PageAllocator → Nat) {call : PageCall}
    (changes : ¬ ChangesNothing (nframes * pageSize) call) :
    ∃ next, callStep fallOff allocator call = some next ∧
      next.unavailableMemory % pageSize ≠ 0 := by
  cases call with
  | alloc page flags =>
      have empty : address page = 0 := not_not.mp changes
      refine ⟨_, rfl, ?_⟩
      rw [pageAllocOr, if_neg (not_not.mpr empty)]
      simp only [unavailableMemory_frameSet, quiet.used]
      decide
  | free page =>
      have outside : ¬ address page < nframes * pageSize := changes
      have limit : ¬ address page < frameLimit allocator := by
        rwa [quiet.frameLimit_eq]
      have tested : frameTest (address page) allocator = true :=
        if_neg limit
      have kept : frameClear (address page) allocator = allocator :=
        if_neg limit
      refine ⟨_, rfl, ?_⟩
      simp only [pageFree, tested, kept, quiet.used]
      show sub64 0 1 % pageSize ≠ 0
      decide

/-- The memory in use is a multiple of the page size. -/
theorem not_countersRight_of_mod
    (odd : allocator.unavailableMemory % pageSize ≠ 0) :
    ¬ CountersRight initialised allocator := by
  intro right
  have used := right.used
  rw [getUsedMemory] at used
  rw [used, Nat.mul_mod_left] at odd
  exact odd rfl

/-- The counters stay right exactly as long as no call changes anything. -/
theorem forall_visits_iff (quiet : Quiet nframes allocator)
    (start : Quiet nframes initialised) (fallOff : PageAllocator → Nat)
    (calls : List PageCall) :
    (∀ visited, Visits (callStep fallOff) allocator calls visited →
      CountersRight initialised visited) ↔
      ∀ call ∈ calls, ChangesNothing (nframes * pageSize) call := by
  have here := quiet.countersRight start
  induction calls with
  | nil =>
      refine iff_of_true ?_ fun _ member => absurd member List.not_mem_nil
      rintro visited ⟨before, after, split, reached⟩
      obtain ⟨rfl, rfl⟩ := List.append_eq_nil_iff.mp split.symm
      exact Option.some.inj reached ▸ here
  | cons call rest inductionHypothesis =>
      rw [List.forall_mem_cons]
      by_cases idle : ChangesNothing (nframes * pageSize) call
      · have stepped := quiet.callStep_of_changesNothing fallOff idle
        refine Iff.trans ?_ (inductionHypothesis.trans
          (and_iff_right idle).symm)
        simp only [visits_cons_iff, stepped, Option.some.injEq,
          exists_eq_left']
        constructor
        · exact fun right visited visits => right visited (Or.inr visits)
        · rintro right visited (rfl | visits)
          · exact here
          · exact right visited visits
      · obtain ⟨next, stepped, odd⟩ :=
          quiet.callStep_of_not_changesNothing fallOff idle
        refine iff_of_false ?_ fun both => idle both.1
        intro right
        refine not_countersRight_of_mod odd (right next ?_)
        exact visits_cons_iff.mpr (Or.inr ⟨next, stepped,
          visits_start (callStep fallOff) next rest⟩)

end Quiet

/-! ## When the accounting holds -/

/-- Nothing is reserved if the first free page is zero and the bitmap empty. -/
theorem unavailBytes_eq_zero_iff
    {firstFreePage memsize : Nat} (bounded : memsize < 2 ^ 64)
    (room : firstFreePage + metadataBytes memsize ≤ memsize) :
    unavailBytes firstFreePage memsize = 0 ↔
      firstFreePage = 0 ∧ (memsize >>> 12) % 2 ^ 32 < 8 := by
  rw [unavailBytes, Nat.mod_eq_of_lt (Nat.lt_of_le_of_lt room bounded)]
  simp only [metadataBytes, pageLowMask, pageSize]
  omega

/-- Without whole bytes and reserved pages, initialisation is quiet. -/
theorem quiet_of_returned
    {firstFreePage memsize : Nat} {allocator initialised : PageAllocator}
    (returned : pageAllocatorInit firstFreePage memsize allocator =
      some initialised)
    (unreserved : unavailBytes firstFreePage memsize = 0)
    (few : (memsize >>> 12) % 2 ^ 32 < 8)
    (clean : ∀ frame, frame < (memsize >>> 12) % 2 ^ 32 →
      ¬ Marked initialised frame) :
    Quiet ((memsize >>> 12) % 2 ^ 32) initialised := by
  obtain ⟨count, _, total, used⟩ := pageAllocatorInit_fields returned
  refine ⟨count, few, clean, ?_, ?_⟩
  · rw [used, unreserved]
    decide
  · rw [total, unreserved, sub64_of_le (Nat.zero_le _) (by omega),
      Nat.sub_zero, Nat.mod_eq_of_lt (by simp only [pageSize]; omega)]

/-- The bits of the frames are then those that memory held before. -/
theorem marked_iff_of_returned
    {firstFreePage memsize : Nat} {allocator initialised : PageAllocator}
    (returned : pageAllocatorInit firstFreePage memsize allocator =
      some initialised)
    (unreserved : unavailBytes firstFreePage memsize = 0)
    (few : (memsize >>> 12) % 2 ^ 32 < 8) (frame : Nat) :
    Marked initialised frame ↔ Marked allocator frame := by
  obtain ⟨_, bitmap, _, _⟩ := pageAllocatorInit_fields returned
  rw [unreserved, Nat.zero_div] at bitmap
  have kept : initialised.frames = allocator.frames := by
    rw [bitmap]
    funext byte
    exact if_neg (by omega)
  exact marked_congr kept frame

/-- A counter in use that is right leaves nothing to be reserved. -/
theorem unavailBytes_eq_zero_of_countersRight
    {firstFreePage memsize : Nat} {allocator initialised : PageAllocator}
    (returned : pageAllocatorInit firstFreePage memsize allocator =
      some initialised)
    (noWrap : NoWrap firstFreePage memsize initialised.nframes)
    (right : CountersRight initialised initialised) :
    unavailBytes firstFreePage memsize = 0 := by
  obtain ⟨_, _, _, unavailable⟩ := pageAllocatorInit_fields returned
  have bounded := card_framesInUse_le returned
  have used := right.used
  have unwrapped := noWrap.unavailable
  have whole : unavailBytes firstFreePage memsize % pageSize = 0 :=
    Nat.mul_mod_left _ _
  rw [getUsedMemory, unavailable, Nat.mod_eq_of_lt unwrapped] at used
  simp only [pageSize] at used bounded whole
  omega

/--
Whatever `page_alloc` sees when no frame is free, the counters agree with the
bitmap, in bytes and without wrapping, along a sequence of calls exactly when
nothing is ever reserved, handed out or freed.
-/
theorem accounting_holds_iff
    {firstFreePage memsize : Nat} (bounded : memsize < 2 ^ 64)
    (room : firstFreePage + metadataBytes memsize ≤ memsize)
    (fallOff : PageAllocator → Nat) (allocator : PageAllocator)
    (calls : List PageCall) :
    AccountingHolds fallOff firstFreePage memsize allocator calls ↔
      NothingCounted firstFreePage memsize allocator calls := by
  constructor
  · rintro ⟨initialised, returned, noWrap, right⟩
    have start := right initialised (visits_start _ _ _)
    have unreserved :=
      unavailBytes_eq_zero_of_countersRight returned noWrap start
    obtain ⟨noKernel, few⟩ :=
      (unavailBytes_eq_zero_iff bounded room).mp unreserved
    have count := (pageAllocatorInit_fields returned).1
    have none : framesInUse initialised = ∅ := by
      have used := start.used
      rw [getUsedMemory, (pageAllocatorInit_fields returned).2.2.2,
        unreserved] at used
      simp only [pageSize] at used
      exact Finset.card_eq_zero.mp (by omega)
    have clean : ∀ frame, frame < (memsize >>> 12) % 2 ^ 32 →
        ¬ Marked initialised frame := by
      intro frame inside
      rw [framesInUse, Finset.filter_eq_empty_iff] at none
      exact none (Finset.mem_range.mpr (count.symm ▸ inside))
    have quiet := quiet_of_returned returned unreserved few clean
    refine ⟨noKernel, few, fun frame inside marked => ?_,
      (quiet.forall_visits_iff quiet fallOff calls).mp right⟩
    exact clean frame inside
      ((marked_iff_of_returned returned unreserved few frame).mpr marked)
  · rintro ⟨noKernel, few, clean, idle⟩
    have unreserved :=
      (unavailBytes_eq_zero_iff bounded room).mpr ⟨noKernel, few⟩
    obtain ⟨initialised, returned⟩ := pageAllocatorInit_returns
      (show firstFreePage < 2 ^ 63 by omega) memsize allocator
    have quiet := quiet_of_returned returned unreserved few
      fun frame inside marked => clean frame inside
        ((marked_iff_of_returned returned unreserved few frame).mp marked)
    refine ⟨initialised, returned, ?_,
      (quiet.forall_visits_iff quiet fallOff calls).mpr idle⟩
    refine ⟨by rw [unreserved]; exact Nat.zero_le _, ?_, by
      rw [unreserved]; decide⟩
    rw [unreserved, quiet.count, pageSize]
    omega

/-- An allocator over memory that is all zero. -/
def zeroAllocator : PageAllocator where
  frames := fun _ => 0
  nframes := 0
  totalMemory := 0
  unavailableMemory := 0

/--
In 28 KiB of memory without a kernel the counters stay right while an entry
below the limit is freed and one that holds a frame is allocated again.
-/
theorem accounting_of_28KiB :
    AccountingHolds (fun _ => 0) 0 0x7000 zeroAllocator
      [.free 0x1000, .alloc 0x5003 0x3] := by
  refine (accounting_holds_iff (by decide) (by decide) _ _ _).mpr ?_
  exact ⟨rfl, by decide, by decide, by decide⟩

/-- With 128 MiB of memory and a kernel below 2 MiB, both counters are wrong. -/
theorem counters_wrong_128MiB :
    ¬ ∀ fallOff firstFreePage memsize allocator calls,
      memsize < 2 ^ 64 →
        firstFreePage + metadataBytes memsize ≤ memsize →
          AccountingHolds fallOff firstFreePage memsize allocator
            calls := by
  intro always
  obtain ⟨initialised, returned, noWrap, right⟩ :=
    always (fun _ => 0) 0x200000 0x8000000 zeroAllocator [] (by decide)
      (by decide)
  have unreserved := unavailBytes_eq_zero_of_countersRight returned noWrap
    (right initialised (visits_start _ _ _))
  exact absurd unreserved (by decide)

end Kernull.MemoryCounters
