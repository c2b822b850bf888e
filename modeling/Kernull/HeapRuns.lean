import Kernull.KmallocRefinement
import Kernull.Library.LabelledRun

/-!
# Runs of `kmalloc` and `kfree`

A run starts behind `kheap_allocator_init` and applies `kmalloc` and `kfree`
in any order.  The system remembers the pointers that are live and the sizes
they were requested with; a request has at least eight bytes, and only a live
pointer is freed.

`Corresponds` reads the blocks of the heap off its memory.  One step lemma
says what a call does to these blocks, provided an accepted request meets
`MallocFits`: the heap does not grow past the end of the address space, and a
block that is carved leaves room for the record of its remainder.
-/

namespace Kernull.HeapRuns

open Kernull.Mm
open Kernull.Kmalloc
open Kernull.AbstractHeap
open Kernull.KmallocRefinement
open Kernull.Library.BlockArena
open Kernull.Library.LinkedList
open Kernull.Library.LabelledRun

/-- The heap with the live pointers and their requested sizes. -/
structure HeapSystem where
  heap : Heap
  live : List (Nat × Nat)

/-- A call of the allocator. -/
inductive Call where
  | malloc (size : Nat)
  | free (ptr : Nat)
deriving DecidableEq

/--
One call; `none` when the call is not permitted or does not terminate.
-/
def callStep (system : HeapSystem) : Call → Option HeapSystem
  | .malloc size =>
      if 8 ≤ size ∧ size < 2 ^ 64 then
        (kmalloc size system.heap).map fun result =>
          if result.1 = null then ⟨result.2, system.live⟩
          else ⟨result.2, (result.1, size) :: system.live⟩
      else none
  | .free ptr =>
      if ptr ∈ system.live.map Prod.fst then
        (kfree ptr system.heap).map fun heap =>
          ⟨heap, system.live.eraseP fun entry => entry.1 == ptr⟩
      else none

/-- The blocks of an abstract state are the blocks of the heap. -/
structure Corresponds (system : HeapSystem) (state : State) : Prop where
  refines : Refines system.heap state
  live : state.live.map (fun block => block.address + 8) =
    system.live.map Prod.fst

/-- An accepted request that the heap can serve without corruption. -/
def MallocFits (state : State) (size : Nat) : Prop :=
  (state.free = [] → state.GrowthFits size) ∧
    (state.opened size).CarvesSafely size ∧
    ((∀ other ∈ (state.opened size).free, other.size < size) →
      (state.opened size).GrowthFits size)

/-- The system behind `kheap_allocator_init`. -/
def boot (start : Nat) (heap : Heap) : Option HeapSystem :=
  (kheapAllocatorInit start heap).map fun heap => ⟨heap, []⟩

/-- A system visited by a run from boot whose calls all meet the guard. -/
def ReachedBy (guard : HeapSystem → Call → Prop)
    (system : HeapSystem) : Prop :=
  ∃ start heap initial calls, start < 2 ^ 64 ∧
    boot start heap = some initial ∧
    Guarded callStep guard initial calls ∧
    Visits callStep initial calls system

/-! ## Blocks read from memory -/

/-- The free blocks, read by following `next` from `free_block_list`. -/
structure FreeBlocks (heap : Heap) (free : List Block) : Prop where
  chain : Chain (blockNext heap.memory) null heap.freeBlockList
    (free.map Block.address)
  sizes : ∀ block ∈ free,
    blockSize heap.memory block.address = block.size

/-- The blocks of the live pointers, with the sizes in their headers. -/
def liveBlocks (system : HeapSystem) : List Block :=
  system.live.map fun entry =>
    ⟨entry.1 - 8, blockSize system.heap.memory (entry.1 - 8)⟩

/-- The memory determines the free blocks. -/
theorem FreeBlocks.unique
    {heap : Heap} {left right : List Block}
    (first : FreeBlocks heap left) (second : FreeBlocks heap right) :
    left = right := by
  have same := first.chain.unique second.chain
  have stored : ∀ blocks, FreeBlocks heap blocks →
      (blocks.map Block.address).map (fun address =>
        (⟨address, blockSize heap.memory address⟩ : Block)) = blocks := by
    intro blocks read
    rw [List.map_map]
    refine (List.map_congr_left fun block member => ?_).trans
      (List.map_id blocks)
    simp only [Function.comp_apply, read.sizes block member, id_eq]
  rw [← stored left first, same, stored right second]

theorem Corresponds.freeBlocks
    {system : HeapSystem} {state : State}
    (corresponds : Corresponds system state) :
    FreeBlocks system.heap state.free :=
  ⟨corresponds.refines.represents.chain, fun block member =>
    corresponds.refines.represents.sizes block
      (List.mem_append_left _ member)⟩

theorem Corresponds.liveBlocks_eq
    {system : HeapSystem} {state : State}
    (corresponds : Corresponds system state) :
    liveBlocks system = state.live := by
  have split : liveBlocks system = (system.live.map Prod.fst).map
      fun ptr => ⟨ptr - 8, blockSize system.heap.memory (ptr - 8)⟩ := by
    rw [liveBlocks, List.map_map]
    rfl
  rw [split, ← corresponds.live, List.map_map]
  refine (List.map_congr_left fun block member => ?_).trans
    (List.map_id state.live)
  have stored := corresponds.refines.represents.sizes block
    (List.mem_append_right _ member)
  simp only [Function.comp_apply, Nat.add_sub_cancel, stored, id_eq]

/-- A system corresponds to one abstract state. -/
theorem Corresponds.unique
    {system : HeapSystem} {left right : State}
    (first : Corresponds system left) (second : Corresponds system right) :
    left = right := by
  have free := first.freeBlocks.unique second.freeBlocks
  have live := first.liveBlocks_eq.symm.trans second.liveBlocks_eq
  have low := first.refines.low.symm.trans second.refines.low
  have high := first.refines.high.symm.trans second.refines.high
  cases left
  cases right
  simp only at free live low high
  rw [free, live, low, high]

/-! ## Boot -/

/-- The empty heap is well formed. -/
theorem corresponds_of_boot
    {start : Nat} {heap : Heap} {system : HeapSystem}
    (pointer : start < 2 ^ 64) (booted : boot start heap = some system) :
    Corresponds system ⟨start, start, [], []⟩ ∧
      State.WellFormed ⟨start, start, [], []⟩ := by
  rw [boot, kheapAllocatorInit] at booted
  split_ifs at booted with asserts
  · simp only [Option.map_some, Option.some.injEq] at booted
    subst booted
    obtain ⟨sane, aligned⟩ := asserts
    simp only [kernelHeapStart, pageSize] at sane aligned
    refine ⟨⟨⟨⟨rfl, by simp⟩, rfl, rfl⟩, rfl⟩, ?_⟩
    refine ⟨wellPlaced_nil, Nat.le_refl start, ?_, ?_⟩
    · show 0 < start
      omega
    · show start + 8 < 2 ^ 64
      omega
  · simp at booted

/-- The initial heap has no blocks. -/
theorem state_of_boot
    {start : Nat} {heap : Heap} {system : HeapSystem} {state : State}
    (booted : boot start heap = some system)
    (corresponds : Corresponds system state) :
    state = ⟨start, start, [], []⟩ := by
  rw [boot, kheapAllocatorInit] at booted
  split_ifs at booted with asserts
  · simp only [Option.map_some, Option.some.injEq] at booted
    subst booted
    obtain ⟨⟨⟨chain, _⟩, low, high⟩, live⟩ := corresponds
    have free := List.map_eq_nil_iff.mp (chain.head_eq_null_iff.mp rfl)
    have noLive := List.map_eq_nil_iff.mp live
    cases state
    simp only at low high free noLive
    rw [← low, ← high, free, noLive]
  · simp at booted

/-- A heap before `kheap_allocator_init`, with 128 MiB of memory. -/
def blankHeap : Heap where
  memory := fun _ => 0
  freeBlockList := null
  heapStart := null
  heapEnd := null
  totalMemory := 0x8000000

/-- A head of the free list with room for the remainder is carved safely. -/
theorem carvesSafely_of_head
    {state : State} {size : Nat} {head : Block} {rest : List Block}
    (formed : state.WellFormed) (free : state.free = head :: rest)
    (room : size + 24 ≤ head.size) :
    state.CarvesSafely size := by
  intro before block after first _
  have placed := formed.placed.perm first.perm_blocks
  obtain ⟨split, smaller, _⟩ := first
  rw [free] at split
  cases before with
  | nil =>
      obtain ⟨rfl, rfl⟩ := List.cons.inj split
      exact placed.roomFor_of_size room
  | cons other before =>
      obtain ⟨rfl, _⟩ := List.cons.inj split
      have tooSmall := smaller head List.mem_cons_self
      omega

/-- Such a request fits when the list is not empty. -/
theorem mallocFits_of_head
    {state : State} {size : Nat} {head : Block} {rest : List Block}
    (formed : state.WellFormed) (free : state.free = head :: rest)
    (room : size + 24 ≤ head.size) :
    MallocFits state size := by
  have nonempty : state.free ≠ [] := by
    rw [free]
    exact List.cons_ne_nil head rest
  have same : state.opened size = state := by
    rw [State.opened, if_neg nonempty]
  rw [MallocFits, same]
  refine ⟨fun empty => absurd empty nonempty,
    carvesSafely_of_head formed free room, fun unfit => ?_⟩
  have tooSmall := unfit head (by rw [free]; exact List.mem_cons_self)
  omega

/-- What opens an empty list fits when the carved remainder has room. -/
theorem mallocFits_of_empty
    {state : State} {size : Nat}
    (formed : state.WellFormed) (empty : state.free = [])
    (growth : state.GrowthFits size)
    (room : size + 24 ≤ grown size) :
    MallocFits state size := by
  have openFormed := formed.opened (fun _ => growth)
  have shape : (state.opened size).free = [⟨state.high, grown size⟩] := by
    rw [State.opened, if_pos empty]
  refine ⟨fun _ => growth, carvesSafely_of_head openFormed shape room, ?_⟩
  intro unfit
  have tooSmall := unfit ⟨state.high, grown size⟩ (by simp [shape])
  simp only at tooSmall
  omega

/-! ## Calls -/

/--
What one call does to the blocks of the heap when `total` bytes of memory
bound the requests.
-/
inductive Effect (total : Nat) (state : State) : Call → State → Prop where
  | refused (size : Nat) (excessive : total < size) :
      Effect total state (.malloc size) state
  | allocated (size : Nat) (block : Block) (next : State)
      (request : 8 ≤ size) (accepted : size ≤ total)
      (fits : MallocFits state size)
      (allocates : Allocates size (state.opened size) block next) :
      Effect total state (.malloc size) next
  | released (block : Block) (earlier later : List Block) (next : State)
      (live : state.live = earlier ++ block :: later)
      (releases : Releases state block earlier later next) :
      Effect total state (.free (block.address + 8)) next

/-- The state an effect leads to is well formed. -/
theorem Effect.wellFormed
    {total : Nat} {state next : State} {call : Call}
    (effect : Effect total state call next) (formed : state.WellFormed) :
    next.WellFormed := by
  cases effect with
  | refused => exact formed
  | allocated size block next request accepted fits allocates =>
      exact allocates.wellFormed (formed.opened fits.1) request fits.2.1
        fits.2.2
  | released block earlier later next live releases =>
      exact releases.wellFormed live formed

/-- A call that the state's blocks permit has one of the effects. -/
theorem callStep_effect
    {system next : HeapSystem} {state : State} {call : Call}
    (corresponds : Corresponds system state) (formed : state.WellFormed)
    (fits : ∀ size, call = .malloc size →
      size ≤ system.heap.totalMemory → MallocFits state size)
    (step : callStep system call = some next) :
    ∃ result, Corresponds next result ∧
      Effect system.heap.totalMemory state call result := by
  cases call with
  | malloc size =>
      rw [callStep] at step
      split_ifs at step with permitted
      rw [Option.map_eq_some_iff] at step
      obtain ⟨outcome, allocated, rfl⟩ := step
      by_cases accepted : size ≤ system.heap.totalMemory
      · have opens := fits size rfl accepted
        obtain ⟨block, heap, result, equation, allocates, refines, placed,
          _⟩ := kmalloc_refines corresponds.refines formed permitted.1
            accepted opens.1 opens.2.1 opens.2.2
        rw [equation, Option.some.injEq] at allocated
        subst allocated
        have nonnull : block.address + 8 ≠ null := by
          simp only [null]
          omega
        rw [if_neg nonnull]
        refine ⟨result, ⟨refines, ?_⟩,
          Effect.allocated size block result permitted.1 accepted opens
            allocates⟩
        have sameLive : result.live = block :: state.live := by
          have opened : (state.opened size).live = state.live := by
            unfold State.opened
            split_ifs <;> rfl
          cases allocates <;> simp only [opened]
        rw [sameLive, List.map_cons, List.map_cons, corresponds.live]
      · have excessive := Nat.lt_of_not_le accepted
        have refused : outcome = (null, system.heap) := by
          rw [kmalloc, if_pos excessive] at allocated
          exact (Option.some.inj allocated).symm
        subst refused
        rw [if_pos rfl]
        exact ⟨state, corresponds, Effect.refused size excessive⟩
  | free ptr =>
      rw [callStep] at step
      split_ifs at step with member
      rw [Option.map_eq_some_iff] at step
      obtain ⟨heap, freed, rfl⟩ := step
      obtain ⟨entry, inLive, isPtr⟩ := List.mem_map.mp member
      obtain ⟨found, earlier, later, others, atPtr, split, erased⟩ :=
        List.exists_of_eraseP (p := fun entry => entry.1 == ptr) inLive
          (by simp [isPtr])
      have same : found.1 = ptr := by simpa using atPtr
      have live := corresponds.live
      rw [split, List.map_append, List.map_cons, same] at live
      obtain ⟨front, back, liveSplit, frontMap, backMap⟩ :=
        List.map_eq_append_iff.mp live
      obtain ⟨block, rest, rfl, blockPtr, restMap⟩ :=
        List.map_eq_cons_iff.mp backMap
      obtain ⟨next, result, equation, releases, refines, _⟩ :=
        kfree_refines corresponds.refines formed liveSplit
      rw [← blockPtr, equation, Option.some.injEq] at freed
      subst freed
      rw [← blockPtr]
      refine ⟨result, ⟨refines, ?_⟩,
        Effect.released block front rest result liveSplit releases⟩
      have sameLive : result.live = front ++ rest := by
        cases releases <;> rfl
      rw [blockPtr]
      simp only [erased, sameLive, List.map_append, frontMap, restMap]

end Kernull.HeapRuns
