import Kernull.HeapRuns

/-!
# Exclusion of heap blocks

`kmalloc` records the first block of an empty list with the size of the whole
new region, although the header of the block is part of that region.  The
block that reaches the end of the region therefore overhangs `heap_end` by
eight bytes from the first accepted request on.
-/

namespace Kernull.HeapExclusion

open Kernull.Mm
open Kernull.Kmalloc
open Kernull.KmallocRefinement
open Kernull.HeapRuns
open Kernull.AbstractHeap
open Kernull.Library.BlockArena
open Kernull.Library.ByteMemory
open Kernull.Library.LinkedList
open Kernull.Library.LabelledRun

/--
The extents of all blocks are disjoint and lie in the heap; payloads keep
clear of each other, of every header and of the end of the heap.
-/
structure Exclusion (system : HeapSystem) : Prop where
  extents : ∃ free, FreeBlocks system.heap free ∧
    (free ++ liveBlocks system).Pairwise (fun left right =>
      blockFormat.finish left ≤ right.address ∨
        blockFormat.finish right ≤ left.address) ∧
    (∀ block ∈ free ++ liveBlocks system,
      system.heap.heapStart ≤ block.address ∧
        blockFormat.finish block ≤ system.heap.heapEnd) ∧
    ∀ entry ∈ system.live, ∀ block ∈ free ++ liveBlocks system,
      entry.1 + entry.2 ≤ block.address ∨ block.address + 8 ≤ entry.1
  payloads : system.live.Pairwise fun left right =>
    left.1 + left.2 ≤ right.1 ∨ right.1 + right.2 ≤ left.1
  ends : ∀ entry ∈ system.live,
    entry.1 + entry.2 ≤ system.heap.heapEnd

/-- The heap directly behind `kheap_allocator_init`. -/
structure Fresh (start : Nat) (system : HeapSystem) : Prop where
  head : system.heap.freeBlockList = null
  low : system.heap.heapStart = start
  high : system.heap.heapEnd = start
  live : system.live = []
  sane : kernelHeapStart ≤ start
  aligned : start % pageSize = 0
  pointer : start < 2 ^ 64

theorem fresh_of_boot
    {start : Nat} {heap : Heap} {system : HeapSystem}
    (pointer : start < 2 ^ 64) (booted : boot start heap = some system) :
    Fresh start system := by
  rw [boot, kheapAllocatorInit] at booted
  split_ifs at booted with asserts
  · simp only [Option.map_some, Option.some.injEq] at booted
    subst booted
    exact ⟨rfl, rfl, rfl, rfl, asserts.1, asserts.2, pointer⟩
  · simp at booted

theorem Fresh.exclusion
    {start : Nat} {system : HeapSystem} (fresh : Fresh start system) :
    Exclusion system := by
  have noBlocks : liveBlocks system = [] := by
    rw [liveBlocks, fresh.live, List.map_nil]
  refine ⟨⟨[], ⟨fresh.head, by simp⟩, ?_, ?_, ?_⟩, ?_, ?_⟩ <;>
    simp [fresh.live, noBlocks]

/-- The number of bytes `sbrk` adds for a request, headers included. -/
def added (size : Nat) : Nat :=
  if (size + 8) % 2 ^ 64 = 0 then 0 else pageRound ((size + 8) % 2 ^ 64)

theorem added_lt (size : Nat) : added size < 2 ^ 64 := by
  unfold added
  split_ifs
  · decide
  · exact pageRound_lt _

theorem added_aligned (size : Nat) : added size % 4096 = 0 := by
  simp only [added, pageRound, pageLowMask, pageSize]
  split_ifs <;> omega

/-- A region shorter than the request comes from arithmetic that wrapped. -/
theorem wrapped_of_added_lt
    {size : Nat} (short : added size < size) (small : size < 2 ^ 64) :
    (added size = 0 ∧ 2 ^ 64 ≤ size + 4103) ∨ 2 ^ 64 ≤ size + 8 := by
  simp only [added, pageRound, pageLowMask, pageSize] at *
  split_ifs at * <;> omega

theorem sbrk_added
    {heap : Heap} (size : Nat) (bounded : heap.heapEnd < 2 ^ 64) :
    sbrk ((size + sizeofSizeT) % 2 ^ 64) heap =
      (heap.heapEnd,
        { heap with heapEnd := (heap.heapEnd + added size) % 2 ^ 64 }) := by
  have stays : heap.heapEnd % 2 ^ 64 = heap.heapEnd :=
    Nat.mod_eq_of_lt bounded
  rw [sizeofSizeT, sbrk, added]
  by_cases zero : (size + 8) % 2 ^ 64 = 0
  · rw [if_pos zero, if_pos zero, Nat.add_zero, stays]
  · rw [if_neg zero, if_neg zero]

/-- The first accepted request opens the list with an overlong block. -/
theorem openHeap_fresh
    {start : Nat} {system : HeapSystem}
    (fresh : Fresh start system) (size : Nat) :
    ∃ memory,
      openHeap size system.heap =
        { system.heap with
          memory := memory
          heapEnd := (start + added size) % 2 ^ 64
          freeBlockList := start } ∧
      blockSize memory start = added size ∧
      blockNext memory start = null := by
  have pointer := fresh.pointer
  have bound := added_lt size
  have recorded :
      sub64 ((start + added size) % 2 ^ 64) start = added size := by
    rw [sub64]
    omega
  refine ⟨setNext (setSize system.heap.memory start (added size)) start null,
    ?_, ?_, ?_⟩
  · rw [openHeap, if_pos fresh.head,
      sbrk_added size (fresh.high ▸ pointer), fresh.high]
    simp only [recorded]
  · rw [blockSize_setNext_same, blockSize_setSize_same bound]
  · exact blockNext_setNext_same (by decide)

theorem walkLimit_pos : 0 < walkLimit := by
  simp only [walkLimit]
  decide

/-- The heap behind the "No blocks" branch of a first request. -/
structure Opened (start size : Nat) (heap : Heap) : Prop where
  head : heap.freeBlockList = start
  high : heap.heapEnd = (start + added size) % 2 ^ 64
  recorded : blockSize heap.memory start = added size
  last : blockNext heap.memory start = null

/-- The opened block is too small only for a request that wrapped. -/
theorem firstFitAllocation_wrapped
    {start size pointer : Nat} {heap result : Heap}
    (opened : Opened start size heap)
    (sane : kernelHeapStart ≤ start) (aligned : start % pageSize = 0)
    (small : start < 2 ^ 64) (representable : size < 2 ^ 64)
    (short : added size < size)
    (allocated : firstFitAllocation size heap = some (pointer, result)) :
    pointer ≠ null ∧ result.heapEnd < pointer + size := by
  have wrapped := wrapped_of_added_lt short representable
  have page := added_aligned size
  have bounded : heap.heapEnd < 2 ^ 64 := by
    rw [opened.high]
    exact Nat.mod_lt _ (by decide)
  have exhausted : nextFit heap.memory size walkLimit start null =
      some none :=
    nextFit_exhausted [] walkLimit start rfl (by simp) walkLimit_pos
  have tooSmall : ¬ size ≤ blockSize heap.memory start := by
    rw [opened.recorded]
    exact Nat.not_le.mpr short
  rw [firstFitAllocation, opened.head, if_neg tooSmall, opened.last,
    exhausted, sbrk_added size bounded] at allocated
  obtain ⟨isPointer, rfl⟩ := Prod.mk.inj (Option.some.inj allocated)
  have high := opened.high
  have highHalf : 0xFFFFFF0000000000 ≤ start := sane
  have onPage : start % 4096 = 0 := aligned
  have representableStart : start < 2 ^ 64 := small
  simp only [null]
  constructor <;> omega

/-- An opened block that is large enough is split. -/
theorem firstFitAllocation_fitting
    {start size pointer : Nat} {heap result : Heap}
    (opened : Opened start size heap)
    (aligned : start % pageSize = 0) (small : start < 2 ^ 64)
    (fits : size ≤ added size)
    (allocated : firstFitAllocation size heap = some (pointer, result)) :
    pointer = start + 8 ∧ result.heapStart = heap.heapStart ∧
      result.heapEnd = heap.heapEnd ∧
      splitBlock heap.memory start size =
        (result.memory, result.freeBlockList) := by
  have fitsStored : size ≤ blockSize heap.memory start := by
    rw [opened.recorded]
    exact fits
  have payload : (start + 8) % 2 ^ 64 = start + 8 := by
    simp only [pageSize] at aligned
    omega
  rw [firstFitAllocation, opened.head, if_pos fitsStored, payload]
    at allocated
  rcases cut : splitBlock heap.memory start size with ⟨memory, rest⟩
  rw [cut] at allocated
  obtain ⟨rfl, rfl⟩ := Prod.mk.inj (Option.some.inj allocated)
  exact ⟨rfl, rfl, rfl, rfl⟩

/--
The opened block, or the remainder that heads the list after the split, ends
one header behind the region that was added.
-/
theorem splitBlock_overhangs
    {start size rest : Nat} {memory result : Memory}
    (recorded : blockSize memory start = added size)
    (last : blockNext memory start = null)
    (request : 8 ≤ size) (fits : size ≤ added size)
    (unwrapped : start + 8 + added size < 2 ^ 64)
    (cut : splitBlock memory start size = (result, rest)) :
    (rest = null ∧ blockSize result start = added size) ∨
      (rest ≠ null ∧ blockNext result rest = null ∧
        rest + 8 + blockSize result rest = start + 8 + added size) := by
  by_cases large : 16 < blockSize memory start - size
  · right
    obtain ⟨result', cutLarge, _, remainder, next, _⟩ :=
      splitBlock_of_large memory start request large
        (by rw [recorded]; exact unwrapped)
    rw [cut] at cutLarge
    obtain ⟨rfl, rfl⟩ := Prod.mk.inj cutLarge
    rw [recorded] at large remainder
    refine ⟨?_, next.trans last, ?_⟩
    · simp only [null]
      omega
    · rw [remainder]
      omega
  · left
    rw [splitBlock_of_small size (by rw [recorded]; exact fits)
      (Nat.not_lt.mp large)] at cut
    obtain ⟨rfl, rfl⟩ := Prod.mk.inj cut
    exact ⟨last, recorded⟩

/-- No accepted first request keeps the blocks inside the heap. -/
theorem not_exclusion_of_first
    {start size : Nat} {system next : HeapSystem}
    (fresh : Fresh start system)
    (accepted : size ≤ system.heap.totalMemory)
    (step : callStep system (.malloc size) = some next) :
    ¬ Exclusion next := by
  intro exclusion
  rw [callStep] at step
  split_ifs at step with permitted
  rw [Option.map_eq_some_iff] at step
  obtain ⟨⟨pointer, heap⟩, allocated, rfl⟩ := step
  obtain ⟨memory, shape, recorded, last⟩ :=
    openHeap_fresh fresh size
  rw [kmalloc, if_neg (Nat.not_lt.mpr accepted), shape] at allocated
  have opened : Opened start size
      { system.heap with
        memory := memory
        heapEnd := (start + added size) % 2 ^ 64
        freeBlockList := start } :=
    ⟨rfl, rfl, recorded, last⟩
  have aligned := fresh.aligned
  have small := fresh.pointer
  by_cases fits : size ≤ added size
  · obtain ⟨rfl, _, sameEnd, cut⟩ :=
      firstFitAllocation_fitting opened aligned small fits allocated
    have high : heap.heapEnd = (start + added size) % 2 ^ 64 := sameEnd
    have nonnull : start + 8 ≠ null := by
      simp only [null]
      omega
    simp only [nonnull, if_false] at exclusion
    have inside := exclusion.ends (start + 8, size) List.mem_cons_self
    simp only [high] at inside
    have bound := added_lt size
    have page := added_aligned size
    have unwrapped : start + 8 + added size < 2 ^ 64 ∧
        (start + added size) % 2 ^ 64 = start + added size := by
      simp only [pageSize] at aligned
      omega
    obtain ⟨free, read, _, within, _⟩ := exclusion.extents
    rw [high, unwrapped.2] at within
    rcases splitBlock_overhangs recorded last permitted.1 fits unwrapped.1
      cut with ⟨_, whole⟩ | ⟨restNonnull, _, remainder⟩
    · have atStart := (within ⟨start, added size⟩ (by
        simp [liveBlocks, whole])).2
      simp only [blockFormat_finish] at atStart
      omega
    · cases free with
      | nil => exact restNonnull read.chain
      | cons first others =>
          have isFirst : heap.freeBlockList = first.address :=
            read.chain.1
          have stored : blockSize heap.memory first.address = first.size :=
            read.sizes first List.mem_cons_self
          have atFirst := (within first (by simp)).2
          rw [blockFormat_finish] at atFirst
          rw [isFirst, stored] at remainder
          omega
  · have wrapped := firstFitAllocation_wrapped opened fresh.sane
      aligned small permitted.2 (Nat.lt_of_not_le fits) allocated
    simp only [wrapped.1, if_false] at exclusion
    have inside := exclusion.ends (pointer, size) List.mem_cons_self
    exact absurd inside (Nat.not_le.mpr wrapped.2)

/-! ## Runs -/

/-- A refused request leaves the system as it is. -/
theorem callStep_refused
    {system next : HeapSystem} {size : Nat}
    (excessive : system.heap.totalMemory < size)
    (step : callStep system (.malloc size) = some next) :
    next = system := by
  rw [callStep] at step
  split_ifs at step with permitted
  rw [kmalloc, if_pos excessive, Option.map_some, if_pos rfl] at step
  exact (Option.some.inj step).symm

/-- Nothing can be freed while nothing is live. -/
theorem callStep_free_fresh
    {start ptr : Nat} {system : HeapSystem}
    (fresh : Fresh start system) :
    callStep system (.free ptr) = none := by
  rw [callStep, fresh.live, if_neg (by simp)]

/-- A run of refused requests stays at boot. -/
theorem visits_of_refused
    {start : Nat} {system visited : HeapSystem} {calls : List Call}
    (fresh : Fresh start system)
    (refused : ∀ size, .malloc size ∈ calls →
      system.heap.totalMemory < size)
    (visits : Visits callStep system calls visited) :
    visited = system := by
  induction calls with
  | nil =>
      obtain ⟨before, after, split, reached⟩ := visits
      obtain ⟨rfl, rfl⟩ := List.append_eq_nil_iff.mp split.symm
      exact (Option.some.inj reached).symm
  | cons call rest inductionHypothesis =>
      rcases visits_cons_iff.mp visits with same | ⟨next, step, later⟩
      · exact same
      · cases call with
        | malloc size =>
            have same := callStep_refused
              (refused size List.mem_cons_self) step
            subst same
            exact inductionHypothesis
              (fun size member =>
                refused size (List.mem_cons_of_mem _ member)) later
        | free ptr =>
            rw [callStep_free_fresh fresh] at step
            exact absurd step (by simp)

/-- A run with an accepted request visits a state without exclusion. -/
theorem exists_visited_of_accepted
    {start : Nat} {system final : HeapSystem} {calls : List Call}
    (fresh : Fresh start system)
    (ran : run callStep system calls = some final)
    (accepted : ∃ size, .malloc size ∈ calls ∧
      size ≤ system.heap.totalMemory) :
    ∃ visited, Visits callStep system calls visited ∧
      ¬ Exclusion visited := by
  induction calls with
  | nil => simp at accepted
  | cons call rest inductionHypothesis =>
      obtain ⟨next, step, later⟩ := run_cons_eq_some_iff.mp ran
      cases call with
      | malloc size =>
          by_cases fits : size ≤ system.heap.totalMemory
          · exact ⟨next, visits_cons_iff.mpr
              (Or.inr ⟨next, step, visits_start callStep next rest⟩),
              not_exclusion_of_first fresh fits step⟩
          · have same := callStep_refused (Nat.lt_of_not_le fits) step
            subst same
            obtain ⟨other, member, small⟩ := accepted
            have inRest : Call.malloc other ∈ rest := by
              rcases List.mem_cons.mp member with isHead | member
              · cases isHead
                exact absurd small fits
              · exact member
            obtain ⟨visited, visits, violated⟩ :=
              inductionHypothesis later ⟨other, inRest, small⟩
            exact ⟨visited, visits_cons_iff.mpr
              (Or.inr ⟨next, step, visits⟩), violated⟩
      | free ptr =>
          rw [callStep_free_fresh fresh] at step
          exact absurd step (by simp)

/--
Exclusion holds throughout a run exactly when every request of the run is
refused.
-/
theorem exclusion_iff_all_refused
    {start : Nat} {heap : Heap} {initial final : HeapSystem}
    {calls : List Call} (pointer : start < 2 ^ 64)
    (booted : boot start heap = some initial)
    (ran : run callStep initial calls = some final) :
    (∀ visited, Visits callStep initial calls visited →
        Exclusion visited) ↔
      ∀ size, .malloc size ∈ calls →
        initial.heap.totalMemory < size := by
  have fresh := fresh_of_boot pointer booted
  constructor
  · intro excluded size member
    by_contra fits
    obtain ⟨visited, visits, violated⟩ := exists_visited_of_accepted fresh
      ran ⟨size, member, Nat.le_of_not_lt fits⟩
    exact violated (excluded visited visits)
  · intro refused visited visits
    rw [visits_of_refused fresh refused visits]
    exact fresh.exclusion

/-- A request for more than the 128 MiB of the blank heap is refused. -/
theorem exclusion_after_refused_request :
    ∃ initial final, boot kernelHeapStart blankHeap = some initial ∧
      run callStep initial [.malloc 0x9000000] = some final ∧
      ∀ visited, Visits callStep initial [.malloc 0x9000000] visited →
        Exclusion visited := by
  have terminates : ((boot kernelHeapStart blankHeap).bind fun initial =>
      run callStep initial [.malloc 0x9000000]).isSome := by
    decide +kernel
  obtain ⟨final, reached⟩ := Option.isSome_iff_exists.mp terminates
  obtain ⟨initial, booted, ran⟩ := Option.bind_eq_some_iff.mp reached
  have total : initial.heap.totalMemory = 0x8000000 := by
    have observed : (boot kernelHeapStart blankHeap).map
        (fun system => system.heap.totalMemory) = some 0x8000000 := by
      decide +kernel
    rw [booted] at observed
    exact Option.some.inj observed
  refine ⟨initial, final, booted, ran, ?_⟩
  refine (exclusion_iff_all_refused (by decide) booted ran).mpr ?_
  intro size member
  rw [List.mem_singleton, Call.malloc.injEq] at member
  omega

/-- The remainder of a first request of 100 bytes overhangs the heap. -/
theorem no_exclusion_after_first_request :
    ∃ start heap initial calls visited, start < 2 ^ 64 ∧
      boot start heap = some initial ∧
      Visits callStep initial calls visited ∧ ¬ Exclusion visited := by
  have terminates : ((boot kernelHeapStart blankHeap).bind fun initial =>
      callStep initial (.malloc 100)).isSome := by
    decide +kernel
  obtain ⟨visited, reached⟩ := Option.isSome_iff_exists.mp terminates
  obtain ⟨initial, booted, step⟩ := Option.bind_eq_some_iff.mp reached
  have fresh := fresh_of_boot (by decide) booted
  have total : (boot kernelHeapStart blankHeap).map
      (fun system => decide (100 ≤ system.heap.totalMemory)) =
        some true := by
    decide +kernel
  rw [booted, Option.map_some, Option.some.injEq, decide_eq_true_eq] at total
  exact ⟨kernelHeapStart, blankHeap, initial, [.malloc 100], visited,
    by decide, booted,
    visits_cons_iff.mpr (Or.inr ⟨visited, step, visits_start _ _ _⟩),
    not_exclusion_of_first fresh total step⟩

end Kernull.HeapExclusion
