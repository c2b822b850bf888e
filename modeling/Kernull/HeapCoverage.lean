import Kernull.HeapRuns

/-!
# Coverage of the heap

Every byte between `heap_start` and `heap_end` belongs to a block as long as
`kmalloc` extends a non-empty list only for requests that fill whole pages.
Any other extension records the requested size in the new block, and the rest
of its last page is lost.
-/

namespace Kernull.HeapCoverage

open Kernull.Mm
open Kernull.Kmalloc
open Kernull.AbstractHeap
open Kernull.KmallocRefinement
open Kernull.HeapRuns
open Kernull.Library.BlockArena
open Kernull.Library.LinkedList
open Kernull.Library.LabelledRun

/-- Every byte of the heap belongs to a live block or a listed free block. -/
def HeapCovered (system : HeapSystem) : Prop :=
  ∃ free, FreeBlocks system.heap free ∧
    ∀ byte, system.heap.heapStart ≤ byte → byte < system.heap.heapEnd →
      blockFormat.Covers (free ++ liveBlocks system) byte

/-- The calls that keep the heap covered. -/
def KeepsCoverage (system : HeapSystem) (call : Call) : Prop :=
  ∀ state, Corresponds system state →
    match call with
    | .malloc size =>
        size ≤ system.heap.totalMemory →
          MallocFits state size ∧
            (state.free ≠ [] →
              (∀ other ∈ state.free, other.size < size) →
                (size + sizeofSizeT) % pageSize = 0)
    | .free _ => True

/-- The invariant: the blocks are placed and cover the heap. -/
def Covering (system : HeapSystem) : Prop :=
  ∃ state, Corresponds system state ∧ state.WellFormed ∧ state.Covered

/-- The block that opens an empty list fits every request it is opened for. -/
theorem extends_nonempty
    {state : State} {size : Nat} (fits : MallocFits state size)
    (unfit : ∀ other ∈ (state.opened size).free, other.size < size) :
    state.free ≠ [] ∧ state.opened size = state := by
  by_cases empty : state.free = []
  · have region := pageRound_bounds (fits.1 empty).1
    have small := unfit ⟨state.high, grown size⟩
      (by simp [State.opened, empty])
    simp only [grown] at small
    omega
  · exact ⟨empty, if_neg empty⟩

theorem Covering.step
    {system next : HeapSystem} {call : Call}
    (covering : Covering system) (keeps : KeepsCoverage system call)
    (step : callStep system call = some next) :
    Covering next := by
  obtain ⟨state, corresponds, formed, covered⟩ := covering
  have condition := keeps state corresponds
  obtain ⟨result, reads, effect⟩ := callStep_effect corresponds formed
    (fun size isMalloc accepted => by
      subst isMalloc
      exact (condition accepted).1) step
  refine ⟨result, reads, effect.wellFormed formed, ?_⟩
  cases effect with
  | refused => exact covered
  | allocated size block _ _ accepted fits allocates =>
      refine allocates.covered covered.opened fun unfit => ?_
      obtain ⟨nonempty, same⟩ := extends_nonempty fits unfit
      have small := (fits.2.2 unfit).1
      rw [same] at unfit
      have aligned := (condition accepted).2 nonempty unfit
      simp only [sizeofSizeT, pageSize] at aligned
      exact pageRound_of_aligned aligned small
  | released block _ _ _ live releases =>
      exact releases.covered live covered

theorem Covering.heapCovered
    {system : HeapSystem} (covering : Covering system) :
    HeapCovered system := by
  obtain ⟨state, corresponds, _, covered⟩ := covering
  refine ⟨state.free, corresponds.freeBlocks, fun byte above below => ?_⟩
  rw [corresponds.liveBlocks_eq]
  rw [corresponds.refines.low] at above
  rw [corresponds.refines.high] at below
  exact covered byte above below

/-- Along runs whose calls keep coverage, no byte of the heap is lost. -/
theorem heapCovered_of_reachedBy
    (system : HeapSystem) (reached : ReachedBy KeepsCoverage system) :
    HeapCovered system := by
  obtain ⟨start, heap, initial, calls, pointer, booted, guarded, visits⟩ :=
    reached
  obtain ⟨corresponds, formed⟩ := corresponds_of_boot pointer booted
  have initially : State.Covered ⟨start, start, [], []⟩ := by
    intro byte above below
    simp only at above below
    omega
  exact Covering.heapCovered (invariant_of_guarded
    (fun _ _ _ covering keeps step => Covering.step covering keeps step)
    ⟨_, corresponds, formed, initially⟩ guarded visits)

/-- After a first request of 100 bytes the heap is covered. -/
theorem heapCovered_after_first_request :
    ∃ system, (boot kernelHeapStart blankHeap).bind
        (fun initial => run callStep initial [.malloc 100]) = some system ∧
      HeapCovered system := by
  have terminates : ((boot kernelHeapStart blankHeap).bind fun initial =>
      run callStep initial [.malloc 100]).isSome := by
    decide +kernel
  obtain ⟨system, reached⟩ := Option.isSome_iff_exists.mp terminates
  refine ⟨system, reached, ?_⟩
  obtain ⟨initial, booted, reached⟩ := Option.bind_eq_some_iff.mp reached
  have keeps : KeepsCoverage initial (.malloc 100) := by
    intro state corresponds _
    have empty := state_of_boot booted corresponds
    subst empty
    exact ⟨mallocFits_of_empty
      (corresponds_of_boot (by decide) booted).2 rfl
      ⟨by decide, by decide⟩ (by decide), fun nonempty => absurd rfl nonempty⟩
  exact heapCovered_of_reachedBy system
    ⟨kernelHeapStart, blankHeap, initial, [.malloc 100], by decide, booted,
      ⟨keeps, fun _ _ => trivial⟩, [.malloc 100], [], rfl, reached⟩

/--
A request of 5000 bytes behind a smaller one extends the heap by two pages;
the last byte of the second page belongs to no block.
-/
theorem heap_uncovered_after_extension :
    ∃ start heap initial calls visited, start < 2 ^ 64 ∧
      boot start heap = some initial ∧
      Visits callStep initial calls visited ∧ ¬ HeapCovered visited := by
  have observed :
      ((boot kernelHeapStart blankHeap).bind fun initial =>
        (run callStep initial [.malloc 8, .malloc 5000]).map
          fun system =>
            ([system.heap.heapStart, system.heap.heapEnd,
                system.heap.freeBlockList,
                blockNext system.heap.memory system.heap.freeBlockList,
                blockSize system.heap.memory system.heap.freeBlockList],
              liveBlocks system)) =
      some ([kernelHeapStart, kernelHeapStart + 12288,
          kernelHeapStart + 16, null, 4080],
        [⟨kernelHeapStart + 4096, 5000⟩, ⟨kernelHeapStart, 8⟩]) := by
    decide +kernel
  obtain ⟨initial, booted, observed⟩ := Option.bind_eq_some_iff.mp observed
  obtain ⟨system, reached, observed⟩ := Option.map_eq_some_iff.mp observed
  simp only [Prod.mk.injEq, List.cons.injEq, and_true] at observed
  obtain ⟨⟨low, high, head, next, size⟩, live⟩ := observed
  refine ⟨kernelHeapStart, blankHeap, initial, _, system, by decide, booted,
    ⟨_, [], (List.append_nil _).symm, reached⟩, ?_⟩
  rintro ⟨free, read, covered⟩
  have single : free = [⟨kernelHeapStart + 16, 4080⟩] := by
    refine read.unique ⟨?_, ?_⟩
    · refine ⟨head, by decide, ?_⟩
      rw [← head]
      exact next
    · simp only [List.mem_singleton, forall_eq]
      rw [← head]
      exact size
  have lastByte := covered (kernelHeapStart + 12287) (by omega) (by omega)
  rcases covers_append.mp lastByte with
    ⟨block, member, bounds⟩ | ⟨block, member, bounds⟩
  · rw [single, List.mem_singleton] at member
    subst member
    simp only [blockFormat_finish] at bounds
    omega
  · rw [live] at member
    rcases List.mem_pair.mp member with rfl | rfl
    all_goals
      simp only [blockFormat_finish] at bounds
      omega

end Kernull.HeapCoverage
