import Kernull.Library.LabelledRun
import Kernull.PageAlloc
import Mathlib.Order.Bounds.Basic

/-!
# The order of allocations after the boot

`page_allocator_init` leaves the bitmap a full prefix of the frames that it
scans: the reserved frames are marked, and of the frames of whole bytes no
others are.  Every `page_alloc` on an empty entry makes that prefix one frame
longer, so frames are handed out in order, whatever the memory of the bitmap
held before.
-/

namespace Kernull.AllocationOrder

open Kernull.Pml
open Kernull.PageAlloc
open Kernull.Library.LabelledRun

/-- A call of `page_alloc`. -/
def allocStep (allocator : PageAllocator) (call : PmlEntry × BitVec 64) :
    Option PageAllocator :=
  (pageAlloc call.1 call.2 allocator).map Prod.snd

/-- The number of calls that are made on an empty entry. -/
def emptyCalls (calls : List (PmlEntry × BitVec 64)) : Nat :=
  calls.countP fun call => address call.1 = 0

theorem emptyCalls_cons
    (call : PmlEntry × BitVec 64) (calls : List (PmlEntry × BitVec 64)) :
    emptyCalls (call :: calls) =
      emptyCalls calls + if address call.1 = 0 then 1 else 0 := by
  rw [emptyCalls, List.countP_cons, emptyCalls]
  simp only [decide_eq_true_eq]

/-- A run of `page_alloc` drops one free frame for each empty entry. -/
theorem run_drops_freeFrames
    {start : PageAllocator} (small : start.nframes < 2 ^ 20)
    {calls : List (PmlEntry × BitVec 64)}
    (enough : emptyCalls calls ≤ (freeFrames start).length) :
    ∃ after, run allocStep start calls = some after ∧
      after.nframes = start.nframes ∧
      freeFrames after = (freeFrames start).drop (emptyCalls calls) := by
  induction calls generalizing start with
  | nil => exact ⟨start, rfl, rfl, rfl⟩
  | cons call calls inductionHypothesis =>
      rw [emptyCalls_cons] at enough ⊢
      by_cases empty : address call.1 = 0
      · rw [if_pos empty] at enough ⊢
        cases free : freeFrames start with
        | nil =>
            rw [free] at enough
            exact absurd enough (Nat.not_succ_le_zero _)
        | cons frame rest =>
            obtain ⟨next, allocates, count, remaining, _⟩ :=
              pageAlloc_of_free call.2 empty small free
            have step : allocStep start call = some next := by
              rw [allocStep, allocates, Option.map_some]
            rw [free, List.length_cons] at enough
            obtain ⟨after, runs, sameCount, dropped⟩ :=
              inductionHypothesis (count ▸ small)
                (remaining ▸ Nat.le_of_succ_le_succ enough)
            refine ⟨after, run_cons_eq_some_iff.mpr ⟨next, step, runs⟩,
              sameCount.trans count, ?_⟩
            rw [dropped, remaining, List.drop_succ_cons]
      · rw [if_neg empty, Nat.add_zero] at enough ⊢
        have step : allocStep start call = some start := by
          rw [allocStep, pageAlloc_of_allocated empty, Option.map_some]
        obtain ⟨after, runs, rest⟩ := inductionHypothesis small enough
        exact ⟨after, run_cons_eq_some_iff.mpr ⟨start, step, runs⟩, rest⟩

/-- The numbers from `first` on, as a filtered range. -/
theorem filter_range_le {first count : Nat} (inside : first ≤ count) :
    (List.range count).filter (fun number => decide (first ≤ number)) =
      List.range' first (count - first) := by
  have split : List.range count =
      List.range first ++ List.range' first (count - first) := by
    have joined : List.range' 0 first ++
        List.range' (0 + first) (count - first) =
          List.range' 0 (first + (count - first)) := List.range'_append_1
    rw [Nat.zero_add, Nat.add_sub_cancel' inside] at joined
    rw [List.range_eq_range', List.range_eq_range', joined]
  have below : (List.range first).filter
      (fun number => decide (first ≤ number)) = [] := by
    rw [List.filter_eq_nil_iff]
    intro number member
    have bound := List.mem_range.mp member
    rw [decide_eq_true_eq]
    omega
  have above : (List.range' first (count - first)).filter
      (fun number => decide (first ≤ number)) =
        List.range' first (count - first) := by
    rw [List.filter_eq_self]
    intro number member
    rw [decide_eq_true_eq]
    exact (List.mem_range'_1.mp member).1
  rw [split, List.filter_append, below, above, List.nil_append]

/-- Behind the initialisation the free frames are a range. -/
theorem freeFrames_of_init
    {firstFreePage memsize first : Nat} {allocator booted : PageAllocator}
    (small : memsize < 2 ^ 32)
    (least : IsLeast {frame |
      firstFreePage + memsize / 4096 / 8 ≤ frame * 4096} first)
    (scanned : first ≤ 8 * (memsize / 4096 / 8))
    (initialised : pageAllocatorInit firstFreePage memsize allocator =
      some booted) :
    booted.nframes = memsize / 4096 ∧
      freeFrames booted =
        List.range' first (8 * (memsize / 4096 / 8) - first) := by
  have reached : firstFreePage + memsize / 4096 / 8 ≤ first * 4096 := least.1
  obtain ⟨count, _, marked⟩ :=
    pageAllocatorInit_spec small (by omega) initialised
  refine ⟨count, ?_⟩
  rw [freeFrames, count, ← filter_range_le scanned]
  refine List.filter_congr fun frame member => ?_
  have inside := List.mem_range.mp member
  rw [Bool.eq_iff_iff, Bool.not_eq_true', decide_eq_false_iff_not,
    decide_eq_true_eq, marked frame inside]
  constructor
  · intro unreserved
    exact least.2 (Nat.not_lt.mp unreserved)
  · intro behind reserved
    omega

/--
After `page_allocator_init` the calls on empty entries take the frames behind
the reserved ones in order, and each marks the frame it takes and no other.
-/
theorem frames_allocated_in_order
    {firstFreePage memsize first : Nat}
    {calls : List (PmlEntry × BitVec 64)}
    (small : memsize < 2 ^ 32)
    (least : IsLeast {frame |
      firstFreePage + memsize / 4096 / 8 ≤ frame * 4096} first)
    (inBytes : first + emptyCalls calls < 8 * (memsize / 4096 / 8))
    (allocator : PageAllocator) :
    ∃ booted after,
      pageAllocatorInit firstFreePage memsize allocator = some booted ∧
      run allocStep booted calls = some after ∧
      ∀ page flags, address page = 0 →
        ∃ result, pageAlloc page flags after = some result ∧
          address result.1 = first + emptyCalls calls ∧
          ∀ frame, Marked result.2 frame ↔
            frame = first + emptyCalls calls ∨ Marked after frame := by
  have reached : firstFreePage + memsize / 4096 / 8 ≤ first * 4096 := least.1
  obtain ⟨booted, initialised⟩ := pageAllocatorInit_returns
    (show firstFreePage < 2 ^ 63 by omega) memsize allocator
  obtain ⟨count, free⟩ :=
    freeFrames_of_init small least (by omega) initialised
  have enough : emptyCalls calls ≤ (freeFrames booted).length := by
    rw [free, List.length_range']
    omega
  obtain ⟨after, runs, sameCount, dropped⟩ :=
    run_drops_freeFrames (by omega) enough
  have head : freeFrames after =
      (first + emptyCalls calls) ::
        List.range' (first + emptyCalls calls + 1)
          (8 * (memsize / 4096 / 8) - first - emptyCalls calls - 1) := by
    rw [dropped, free, List.drop_range', Nat.mul_one, ← List.range'_succ]
    congr 1
    omega
  refine ⟨booted, after, initialised, runs, fun page flags empty => ?_⟩
  obtain ⟨next, allocates, _, _, marked⟩ :=
    pageAlloc_of_free flags empty (by omega) head
  refine ⟨_, allocates, ?_, marked⟩
  rw [address_orFlags, address_setPresent, address_setAddress]
  exact Nat.mod_eq_of_lt (by omega)

/--
With 128 MiB and a first free page at 2 MiB, frame 513 comes first; behind two
calls on empty entries and one on an allocated entry it is frame 515's turn.
-/
theorem third_frame_of_128MiB :
    ∃ booted after,
      pageAllocatorInit 0x200000 0x8000000
        ⟨fun _ => 0xA5, 0, 0, 0⟩ = some booted ∧
      run allocStep booted [(0, 3), (0x5003, 0), (0, 7)] = some after ∧
      ∀ page flags, address page = 0 →
        ∃ result, pageAlloc page flags after = some result ∧
          address result.1 = 515 ∧
          ∀ frame, Marked result.2 frame ↔
            frame = 515 ∨ Marked after frame := by
  refine frames_allocated_in_order (by decide) ⟨?_, fun frame bound => ?_⟩
    (by decide) _
  · show 0x200000 + 0x8000000 / 4096 / 8 ≤ 513 * 4096
    decide
  · have reached : 0x200000 + 0x8000000 / 4096 / 8 ≤ frame * 4096 := bound
    show 513 ≤ frame
    omega

end Kernull.AllocationOrder
