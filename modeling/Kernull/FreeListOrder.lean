import Kernull.HeapRuns

/-!
# Order and coalescing of the free list

`kfree` keeps the free list sorted and coalesced as long as it does not free
a block below the head of a list of two or more blocks, and the freed block
does not overlap a free one.  Along such runs the free list is determined by
the set of free bytes.  Below the head of a longer list the freed block is
linked behind the head, and the list is no longer sorted.
-/

namespace Kernull.FreeListOrder

open Kernull.Mm
open Kernull.Kmalloc
open Kernull.AbstractHeap
open Kernull.KmallocRefinement
open Kernull.HeapRuns
open Kernull.Library.BlockArena
open Kernull.Library.LinkedList
open Kernull.Library.LabelledRun

/-- The list ends, its addresses increase, and no two blocks are adjacent. -/
def Ordered (heap : Heap) : Prop :=
  ∃ nodes, Chain (blockNext heap.memory) null heap.freeBlockList nodes ∧
    nodes.Pairwise (· < ·) ∧
    nodes.Pairwise fun left right =>
      ¬ areAdjacent heap.memory left right ∧
        ¬ areAdjacent heap.memory right left

/-- The calls that keep the list ordered. -/
def KeepsOrder (system : HeapSystem) (call : Call) : Prop :=
  ∀ state, Corresponds system state →
    match call with
    | .malloc size =>
        size ≤ system.heap.totalMemory → MallocFits state size
    | .free ptr =>
        (2 ≤ state.free.length →
          ∀ head ∈ state.free.head?, head.address + 8 < ptr) ∧
        ∀ block ∈ state.live, block.address + 8 = ptr →
          ∀ other ∈ state.free,
            blockFormat.finish block ≤ other.address ∨
              blockFormat.finish other ≤ block.address

/-- The invariant: the blocks are placed and the free ones have gaps. -/
def Orderly (system : HeapSystem) : Prop :=
  ∃ state, Corresponds system state ∧ state.WellFormed ∧
    blockFormat.Gapped state.free

theorem Orderly.step
    {system next : HeapSystem} {call : Call}
    (orderly : Orderly system) (keeps : KeepsOrder system call)
    (step : callStep system call = some next) :
    Orderly next := by
  obtain ⟨state, corresponds, formed, gapped⟩ := orderly
  have condition := keeps state corresponds
  obtain ⟨result, reads, effect⟩ := callStep_effect corresponds formed
    (fun size isMalloc => by
      subst isMalloc
      exact condition) step
  refine ⟨result, reads, effect.wellFormed formed, ?_⟩
  cases effect with
  | refused => exact gapped
  | allocated _ _ _ _ _ _ allocates =>
      exact allocates.gapped (State.opened_gapped gapped)
  | released block _ _ _ live releases =>
      obtain ⟨notBelow, disjoint⟩ := condition
      refine releases.gapped gapped
        (disjoint block (by simp [live]) rfl) fun many head atHead => ?_
      have below := notBelow many head atHead
      omega

theorem orderly_of_reachedBy
    {system : HeapSystem} (reached : ReachedBy KeepsOrder system) :
    Orderly system := by
  obtain ⟨start, heap, initial, calls, pointer, booted, guarded, visits⟩ :=
    reached
  obtain ⟨corresponds, formed⟩ := corresponds_of_boot pointer booted
  exact invariant_of_guarded
    (fun _ _ _ orderly keeps step => Orderly.step orderly keeps step)
    ⟨_, corresponds, formed, List.Pairwise.nil⟩ guarded visits

theorem Orderly.ordered
    {system : HeapSystem} (orderly : Orderly system) :
    Ordered system.heap := by
  obtain ⟨state, ⟨refines, _⟩, formed, gapped⟩ := orderly
  have bounded := formed.bounded
  refine ⟨_, refines.represents.chain, ?_, ?_⟩
  · refine List.pairwise_map.mpr (gapped.imp fun gap => ?_)
    rw [blockFormat_finish] at gap
    omega
  · refine List.pairwise_map.mpr (gapped.imp_of_mem ?_)
    intro left right leftMember rightMember gap
    have adjacent : ∀ block ∈ state.free, ∀ next,
        areAdjacent system.heap.memory block.address next ↔
          blockFormat.finish block = next := by
      intro block member next
      have below := (formed.placed.below block
        (List.mem_append_left _ member)).2
      rw [blockFormat_overhang] at below
      rw [areAdjacent_iff next (refines.represents.sizes block
        (List.mem_append_left _ member)), Nat.mod_eq_of_lt (by omega)]
    rw [adjacent left leftMember, adjacent right rightMember]
    simp only [blockFormat_finish] at gap ⊢
    omega

theorem Orderly.gapped_of_freeBlocks
    {system : HeapSystem} {free : List Block}
    (orderly : Orderly system) (read : FreeBlocks system.heap free) :
    blockFormat.Gapped free := by
  obtain ⟨state, corresponds, _, gapped⟩ := orderly
  rw [read.unique corresponds.freeBlocks]
  exact gapped

/--
Along runs whose calls keep the order, the free list is sorted and coalesced,
and it is a function of the set of free bytes.
-/
theorem freeList_ordered_and_canonical
    (system : HeapSystem) (reached : ReachedBy KeepsOrder system) :
    Ordered system.heap ∧
      ∀ other, ReachedBy KeepsOrder other →
        ∀ free otherFree, FreeBlocks system.heap free →
          FreeBlocks other.heap otherFree →
          (∀ byte, blockFormat.Covers free byte ↔
            blockFormat.Covers otherFree byte) →
          free = otherFree := by
  have orderly := orderly_of_reachedBy reached
  refine ⟨orderly.ordered, ?_⟩
  intro other otherReached free otherFree read otherRead sameBytes
  have otherOrderly := orderly_of_reachedBy otherReached
  exact Format.Gapped.ext (orderly.gapped_of_freeBlocks read)
    (otherOrderly.gapped_of_freeBlocks otherRead) sameBytes

/-- The system behind some calls after the boot, if they go through. -/
def behindCalls (calls : List Call) : HeapSystem :=
  ((boot kernelHeapStart blankHeap).bind fun initial =>
    run callStep initial calls).getD ⟨blankHeap, []⟩

theorem boot_eq_behindCalls :
    boot kernelHeapStart blankHeap = some (behindCalls []) := by
  have boots : (boot kernelHeapStart blankHeap).isSome := by decide
  obtain ⟨initial, booted⟩ := Option.isSome_iff_exists.mp boots
  rw [behindCalls, booted]
  rfl

theorem callStep_behindCalls
    (calls : List Call) (call : Call)
    (through : ((boot kernelHeapStart blankHeap).bind fun initial =>
      run callStep initial (calls ++ [call])).isSome) :
    callStep (behindCalls calls) call =
      some (behindCalls (calls ++ [call])) := by
  obtain ⟨final, reached⟩ := Option.isSome_iff_exists.mp through
  rw [behindCalls, behindCalls, reached]
  rw [boot_eq_behindCalls, Option.bind_some, run_append] at reached
  obtain ⟨middle, before, stepped⟩ := Option.bind_eq_some_iff.mp reached
  rw [boot_eq_behindCalls, Option.bind_some, before]
  simpa [run] using stepped

theorem corresponds_behind_malloc :
    Corresponds (behindCalls [.malloc 100])
      ⟨kernelHeapStart, kernelHeapStart + 4096,
        [⟨kernelHeapStart + 108, 3988⟩], [⟨kernelHeapStart, 100⟩]⟩ := by
  refine ⟨⟨⟨⟨by decide +kernel, by decide, ?_⟩, by decide +kernel⟩,
    by decide +kernel, by decide +kernel⟩, by decide +kernel⟩
  show blockNext (behindCalls [.malloc 100]).heap.memory
    (kernelHeapStart + 108) = null
  decide +kernel

theorem corresponds_behind_mallocs :
    Corresponds (behindCalls [.malloc 100, .malloc 100])
      ⟨kernelHeapStart, kernelHeapStart + 4096,
        [⟨kernelHeapStart + 216, 3880⟩],
        [⟨kernelHeapStart + 108, 100⟩, ⟨kernelHeapStart, 100⟩]⟩ := by
  refine ⟨⟨⟨⟨by decide +kernel, by decide, ?_⟩, by decide +kernel⟩,
    by decide +kernel, by decide +kernel⟩, by decide +kernel⟩
  show blockNext (behindCalls [.malloc 100, .malloc 100]).heap.memory
    (kernelHeapStart + 216) = null
  decide +kernel

/--
After two requests of 100 bytes the first is freed: the list of two blocks is
in order.
-/
theorem freeList_ordered_after_free :
    ∃ system, (boot kernelHeapStart blankHeap).bind
        (fun initial => run callStep initial
          [.malloc 100, .malloc 100, .free (kernelHeapStart + 8)]) =
          some system ∧
      system.heap.freeBlockList = kernelHeapStart ∧
      blockNext system.heap.memory kernelHeapStart =
        kernelHeapStart + 216 ∧
      Ordered system.heap := by
  have first := callStep_behindCalls [] (.malloc 100) (by decide +kernel)
  have second := callStep_behindCalls [.malloc 100] (.malloc 100)
    (by decide +kernel)
  have third := callStep_behindCalls [.malloc 100, .malloc 100]
    (.free (kernelHeapStart + 8)) (by decide +kernel)
  have booted := boot_eq_behindCalls
  have keepsFirst : KeepsOrder (behindCalls []) (.malloc 100) := by
    intro state corresponds _
    have empty := state_of_boot booted corresponds
    subst empty
    exact mallocFits_of_empty (corresponds_of_boot (by decide) booted).2 rfl
      ⟨by decide, by decide⟩ (by decide)
  have keepsSecond :
      KeepsOrder (behindCalls [.malloc 100]) (.malloc 100) := by
    intro state corresponds _
    obtain rfl := corresponds_behind_malloc.unique corresponds
    refine mallocFits_of_head ⟨⟨?_, by decide, by decide⟩, by decide,
      by decide, by decide⟩ rfl (by decide)
    have apart : blockFormat.Apart
        ⟨kernelHeapStart + 108, 3988⟩ ⟨kernelHeapStart, 100⟩ :=
      blockFormat_apart.mpr (Or.inr ⟨by decide, by decide⟩)
    simpa [State.blocks] using apart
  have keepsThird : KeepsOrder (behindCalls [.malloc 100, .malloc 100])
      (.free (kernelHeapStart + 8)) := by
    intro state corresponds
    obtain rfl := corresponds_behind_mallocs.unique corresponds
    exact ⟨by decide, by decide⟩
  have reached : run callStep (behindCalls [])
      [.malloc 100, .malloc 100, .free (kernelHeapStart + 8)] =
        some (behindCalls
          [.malloc 100, .malloc 100, .free (kernelHeapStart + 8)]) := by
    refine run_cons_eq_some_iff.mpr ⟨_, first, ?_⟩
    refine run_cons_eq_some_iff.mpr ⟨_, second, ?_⟩
    exact run_cons_eq_some_iff.mpr ⟨_, third, rfl⟩
  have reachedBy : ReachedBy KeepsOrder (behindCalls
      [.malloc 100, .malloc 100, .free (kernelHeapStart + 8)]) := by
    refine ⟨kernelHeapStart, blankHeap, _,
      [.malloc 100, .malloc 100, .free (kernelHeapStart + 8)], by decide,
      booted, ⟨keepsFirst, fun next stepped => ?_⟩, _, [],
      (List.append_nil _).symm, reached⟩
    obtain rfl := Option.some.inj (first.symm.trans stepped)
    refine ⟨keepsSecond, fun next stepped => ?_⟩
    obtain rfl := Option.some.inj (second.symm.trans stepped)
    exact ⟨keepsThird, fun _ _ => trivial⟩
  refine ⟨_, ?_, by decide +kernel, by decide +kernel,
    (freeList_ordered_and_canonical _ reachedBy).1⟩
  rw [booted, Option.bind_some, reached]

/--
Freeing the first of three blocks after the second leaves the second at the
head of the list with the first behind it.
-/
theorem freeList_unordered_below_head :
    ∃ start heap initial calls visited, start < 2 ^ 64 ∧
      boot start heap = some initial ∧
      Visits callStep initial calls visited ∧ ¬ Ordered visited.heap := by
  have observed :
      ((boot kernelHeapStart blankHeap).bind fun initial =>
        (run callStep initial
          [.malloc 100, .malloc 100, .malloc 100,
            .free (kernelHeapStart + 116), .free (kernelHeapStart + 8)]).map
          fun system => (system.heap.freeBlockList,
            blockNext system.heap.memory system.heap.freeBlockList)) =
      some (kernelHeapStart + 108, kernelHeapStart) := by
    decide +kernel
  obtain ⟨initial, booted, observed⟩ := Option.bind_eq_some_iff.mp observed
  obtain ⟨system, reached, pointers⟩ := Option.map_eq_some_iff.mp observed
  obtain ⟨head, second⟩ := Prod.mk.inj pointers
  refine ⟨kernelHeapStart, blankHeap, initial, _, system, by decide, booted,
    ⟨_, [], (List.append_nil _).symm, reached⟩, ?_⟩
  rintro ⟨nodes, walk, sorted, _⟩
  rcases nodes with _ | ⟨first, _ | ⟨next, rest⟩⟩
  · have atEnd : system.heap.freeBlockList = null := walk
    rw [head] at atEnd
    exact absurd atEnd (by decide)
  · have atEnd : blockNext system.heap.memory first = null := walk.2.2
    rw [← walk.1, second] at atEnd
    exact absurd atEnd (by decide)
  · obtain ⟨isHead, _, isNext, _⟩ := walk
    rw [← isHead, second] at isNext
    rw [head] at isHead
    have increasing := (List.pairwise_cons.mp sorted).1 next (by simp)
    omega

end Kernull.FreeListOrder
