import Kernull.AbstractHeap
import Kernull.Kmalloc
import Kernull.Library.LinkedList
import Mathlib.Data.List.Perm.Subperm

/-!
# `kmalloc` and `kfree` refine the heap of blocks

`Refines` relates the allocator's variables and memory to the lists of blocks
of `Kernull.AbstractHeap`: following `next` from `free_block_list` passes the
free blocks in order, and every block's `size` word holds its size.  From a
well-formed state `kmalloc` performs an `Allocates` step and `kfree` of a live
block performs a `Releases` step, and both terminate.
-/

namespace Kernull.KmallocRefinement

open Kernull.Mm
open Kernull.Kmalloc
open Kernull.AbstractHeap
open Kernull.Library.ByteMemory
open Kernull.Library.BlockArena
open Kernull.Library.LinkedList

/-- The memory holds the free list and the sizes of all blocks. -/
structure Represents (memory : Memory) (head : Nat)
    (free live : List Block) : Prop where
  chain : Chain (blockNext memory) null head (free.map Block.address)
  sizes : ∀ block ∈ free ++ live,
    blockSize memory block.address = block.size

/-- The heap variables and memory stand for an abstract state. -/
structure Refines (heap : Heap) (state : State) : Prop where
  represents :
    Represents heap.memory heap.freeBlockList state.free state.live
  low : heap.heapStart = state.low
  high : heap.heapEnd = state.high

theorem headersApart_of_apart {left right : Block}
    (apart : blockFormat.Apart left right) :
    HeadersApart left.address right.address := by
  rcases blockFormat_apart.mp apart with bounds | bounds
  · exact Or.inl bounds.1
  · exact Or.inr bounds.1

/-- In a well-placed list the head's header is apart from all others. -/
theorem headersApart_of_placed
    {low high : Nat} {block : Block} {blocks : List Block}
    (placed : WellPlaced blockFormat low high (block :: blocks)) :
    ∀ other ∈ blocks, HeadersApart block.address other.address :=
  fun other member =>
    headersApart_of_apart ((wellPlaced_cons.mp placed).2.1 other member)

/-- A walk over addressable blocks stops before the limit. -/
theorem length_lt_walkLimit
    {blocks : List Block} (addressable : Addressable blocks) :
    blocks.length < walkLimit := by
  have placed := addressable.placed
  have distinct : (blocks.map Block.address).Nodup := by
    rw [List.Nodup, List.pairwise_map]
    refine placed.apart.imp fun apart => ?_
    rcases blockFormat_apart.mp apart with bounds | bounds <;> omega
  have small : blocks.map Block.address ⊆ List.range (2 ^ 64 - 15) := by
    intro address member
    obtain ⟨block, blockMember, rfl⟩ := List.mem_map.mp member
    have below := (addressable.pointer blockMember).2
    rw [List.mem_range]
    omega
  have length := (List.subperm_of_subset distinct small).length_le
  rw [List.length_map, List.length_range] at length
  simp only [walkLimit]
  omega

/-! ## Splitting -/

theorem splitBlock_of_small
    {memory : Memory} {block : Nat} (size : Nat)
    (fits : size ≤ blockSize memory block)
    (small : blockSize memory block - size ≤ 16) :
    splitBlock memory block size = (memory, blockNext memory block) := by
  have bound := blockSize_lt memory block
  have rem := sub64_of_le fits bound
  have short : ¬ sizeofBlock < blockSize memory block - size := by
    simp only [sizeofBlock]
    omega
  simp only [splitBlock, rem, short, ↓reduceIte]

/--
A large block is cut in two: both parts are recorded with their sizes, the
remainder takes over the list pointer, and headers elsewhere are unchanged.
-/
theorem splitBlock_of_large
    {size : Nat} (memory : Memory) (block : Nat)
    (request : 8 ≤ size)
    (large : 16 < blockSize memory block - size)
    (bounded : block + 8 + blockSize memory block < 2 ^ 64) :
    ∃ result, splitBlock memory block size = (result, block + 8 + size) ∧
      blockSize result block = size ∧
      blockSize result (block + 8 + size) =
        blockSize memory block - size - 8 ∧
      blockNext result (block + 8 + size) = blockNext memory block ∧
      ∀ other, HeadersApart block other →
        HeadersApart (block + 8 + size) other →
          blockSize result other = blockSize memory other ∧
            blockNext result other = blockNext memory other := by
  have rem : sub64 (blockSize memory block) size =
      blockSize memory block - size :=
    sub64_of_le (by omega) (by omega)
  have start : (block + 8 + size) % 2 ^ 64 = block + 8 + size :=
    Nat.mod_eq_of_lt (by omega)
  have apart : HeadersApart block (block + 8 + size) := Or.inl (by omega)
  have apartBack : HeadersApart (block + 8 + size) block :=
    Or.inr (by omega)
  have nextSmall := blockNext_lt memory block
  simp only [splitBlock, rem, sizeofBlock, sizeofSizeT, large, start, null,
    ↓reduceIte]
  refine ⟨_, rfl, ?_, ?_, ?_, ?_⟩
  · rw [blockSize_setNext_same, blockSize_setNext_of_apart apartBack,
      blockSize_setSize_of_apart apartBack,
      blockSize_setSize_same (by omega)]
  · rw [blockSize_setNext_of_apart apart, blockSize_setNext_same,
      blockSize_setSize_same (by omega)]
  · rw [blockNext_setNext_of_apart apart,
      blockNext_setSize_of_apart apartBack, blockNext_setSize_same,
      blockNext_setNext_same nextSmall]
  · intro other first second
    constructor
    · rw [blockSize_setNext_of_apart first,
        blockSize_setNext_of_apart second,
        blockSize_setSize_of_apart second, blockSize_setSize_of_apart first]
    · rw [blockNext_setNext_of_apart first,
        blockNext_setNext_of_apart second,
        blockNext_setSize_of_apart second, blockNext_setSize_of_apart first]

/-! ## Linking the rest of the list -/

/-- Make `rest` follow the blocks `before` in the list. -/
def linkRest (memory : Memory) (head : Nat) (before : List Block)
    (rest : Nat) : Memory × Nat :=
  if before = [] then (memory, rest)
  else
    (setNext memory ((before.map Block.address).getLastD null) rest, head)

@[simp]
theorem linkRest_nil (memory : Memory) (head rest : Nat) :
    linkRest memory head [] rest = (memory, rest) :=
  if_pos rfl

@[simp]
theorem linkRest_cons
    (memory : Memory) (head rest : Nat) (first : Block)
    (blocks : List Block) :
    linkRest memory head (first :: blocks) rest =
      (setNext memory
        ((blocks.map Block.address).getLastD first.address) rest, head) := by
  rw [linkRest, if_neg (List.cons_ne_nil first blocks), List.map_cons,
    List.getLastD_cons]

/--
Replacing a block of the free list by other blocks, given the memory in which
the replacement already starts the rest of the list.
-/
theorem represents_linkRest
    {memory result : Memory} {head rest low high : Nat}
    {before after live newLive : List Block} {block : Block}
    (replaced : List Block)
    (represents : Represents memory head (before ++ block :: after) live)
    (placed : WellPlaced blockFormat low high
      (before ++ (replaced ++ after) ++ newLive))
    (restSmall : rest < 2 ^ 64)
    (restChain : Chain (blockNext result) null rest
      ((replaced ++ after).map Block.address))
    (sameNext : ∀ other ∈ before,
      blockNext result other.address = blockNext memory other.address)
    (sizes : ∀ other ∈ before ++ (replaced ++ after) ++ newLive,
      blockSize result other.address = other.size) :
    Represents (linkRest result head before rest).1
      (linkRest result head before rest).2
      (before ++ (replaced ++ after)) newLive := by
  rcases List.eq_nil_or_concat before with rfl | ⟨front, last, rfl⟩
  · exact ⟨restChain, sizes⟩
  · rw [List.concat_eq_append] at *
    have lastFirst : WellPlaced blockFormat low high
        (last :: (front ++ (replaced ++ after) ++ newLive)) := by
      refine placed.perm ?_
      grind
    have apart := headersApart_of_placed lastFirst
    have linked : linkRest result head (front ++ [last]) rest =
        (setNext result last.address rest, head) := by
      simp [linkRest]
    rw [linked]
    refine ⟨?_, ?_⟩
    · have walk := represents.chain
      rw [List.map_append, List.map_cons, chain_append_cons] at walk
      have front_walk := walk.1
      rw [List.map_append, List.map_cons, List.map_nil] at front_walk
      rw [List.map_append, List.map_append, List.map_cons, List.map_nil]
      refine segment_append.mpr ⟨rest, front_walk.redirect ?_ ?_, ?_⟩
      · intro node member
        obtain ⟨other, otherMember, rfl⟩ := List.mem_map.mp member
        rw [blockNext_setNext_of_apart (apart other (by simp [otherMember]))]
        exact sameNext other (by simp [otherMember])
      · exact blockNext_setNext_same restSmall
      · refine restChain.congr fun node member => ?_
        obtain ⟨other, otherMember, rfl⟩ := List.mem_map.mp member
        refine blockNext_setNext_of_apart (apart other ?_)
        simp only [List.mem_append] at otherMember ⊢
        tauto
    · intro other member
      by_cases same : other = last
      · subst other
        rw [blockSize_setNext_same]
        exact sizes last (by simp)
      · rw [blockSize_setNext_of_apart
          (apart other (by simp at member ⊢; tauto))]
        exact sizes other member

/-! ## `kmalloc` -/

/-- The "No blocks" branch adds the region the abstract state adds. -/
theorem openHeap_refines
    {heap : Heap} {state : State} {size : Nat}
    (refines : Refines heap state) (formed : state.WellFormed)
    (growth : state.free = [] → state.GrowthFits size) :
    Refines (openHeap size heap) (state.opened size) ∧
      (openHeap size heap).totalMemory = heap.totalMemory := by
  have headNull := refines.represents.chain.head_eq_null_iff
  rw [List.map_eq_nil_iff] at headNull
  by_cases empty : state.free = []
  · have placed := formed.placed
    rw [State.blocks, empty, List.nil_append] at placed
    obtain ⟨small, fits⟩ := growth empty
    have region := pageRound_bounds small
    have ordered := formed.ordered
    have positive := formed.positive
    have request : (size + 8) % 2 ^ 64 = size + 8 :=
      Nat.mod_eq_of_lt (by omega)
    have moved : (state.high + pageRound (size + 8)) % 2 ^ 64 =
        state.high + grown size :=
      Nat.mod_eq_of_lt (by simp only [grown] at fits; omega)
    have length : sub64 (state.high + grown size) state.high =
        grown size := by
      rw [sub64_of_le (by omega) (by omega)]
      omega
    have lengthSmall : grown size < 2 ^ 64 := pageRound_lt (size + 8)
    have shape : openHeap size heap =
        { heap with
          memory := setNext
            (setSize heap.memory state.high (grown size)) state.high null
          heapEnd := state.high + grown size
          freeBlockList := state.high } := by
      have nonzero : size + 8 ≠ 0 := by omega
      simp only [openHeap, headNull.mpr empty, sizeofSizeT, sbrk, request,
        nonzero, refines.high, moved, length, ↓reduceIte]
    rw [shape, State.opened, if_pos empty]
    refine ⟨⟨⟨⟨rfl, ?_, ?_⟩, ?_⟩, refines.low, rfl⟩, rfl⟩
    · show state.high ≠ null
      simp only [null]
      omega
    · exact blockNext_setNext_same (by decide)
    · intro block member
      rcases List.mem_cons.mp member with rfl | old
      · rw [blockSize_setNext_same, blockSize_setSize_same lengthSmall]
      · have below := (placed.below block old).1
        rw [blockFormat_record] at below
        have apart : HeadersApart state.high block.address := Or.inr below
        rw [blockSize_setNext_of_apart apart,
          blockSize_setSize_of_apart apart]
        exact refines.represents.sizes block
          (List.mem_append_right _ old)
  · have shape : openHeap size heap = heap := by
      simp only [openHeap, mt headNull.mp empty, ↓reduceIte]
    rw [shape, State.opened, if_neg empty]
    exact ⟨refines, rfl⟩

/-- The loop stops at the first block that is large enough. -/
theorem nextFit_found
    {memory : Memory} {size : Nat} {before after : List Block}
    {block : Block} {fuel pointer : Nat} (prev : Nat)
    (walk : Chain (blockNext memory) null pointer
      ((before ++ block :: after).map Block.address))
    (unfit : ∀ other ∈ before, blockSize memory other.address < size)
    (fits : size ≤ blockSize memory block.address)
    (enough : before.length < fuel) :
    nextFit memory size fuel prev pointer =
      some (some ((before.map Block.address).getLastD prev,
        block.address)) := by
  induction before generalizing fuel prev pointer with
  | nil =>
      obtain ⟨fuel, rfl⟩ :=
        Nat.exists_eq_add_one.mpr (Nat.zero_lt_of_lt enough)
      obtain ⟨rfl, nonnull, _⟩ := walk
      simp only [nextFit, nonnull, Nat.not_lt.mpr fits, ↓reduceIte,
        List.map_nil, List.getLastD_nil]
  | cons head rest inductionHypothesis =>
      obtain ⟨fuel, rfl⟩ :=
        Nat.exists_eq_add_one.mpr (Nat.zero_lt_of_lt enough)
      obtain ⟨rfl, nonnull, walk⟩ := walk
      have small := unfit head List.mem_cons_self
      simp only [nextFit, nonnull, small, ↓reduceIte]
      rw [inductionHypothesis head.address walk
        (fun other member => unfit other (List.mem_cons_of_mem _ member))
        (by simp only [List.length_cons] at enough; omega)]
      rw [List.map_cons, List.getLastD_cons]

/-- The loop reaches the end of the list when no block is large enough. -/
theorem nextFit_exhausted
    {memory : Memory} {size pointer : Nat} (blocks : List Block)
    (fuel prev : Nat)
    (walk : Chain (blockNext memory) null pointer
      (blocks.map Block.address))
    (unfit : ∀ other ∈ blocks, blockSize memory other.address < size)
    (enough : blocks.length < fuel) :
    nextFit memory size fuel prev pointer = some none := by
  induction blocks generalizing fuel prev pointer with
  | nil =>
      obtain ⟨fuel, rfl⟩ :=
        Nat.exists_eq_add_one.mpr (Nat.zero_lt_of_lt enough)
      have atEnd : pointer = null := walk
      simp only [nextFit, atEnd, ↓reduceIte]
  | cons head rest inductionHypothesis =>
      obtain ⟨fuel, rfl⟩ :=
        Nat.exists_eq_add_one.mpr (Nat.zero_lt_of_lt enough)
      obtain ⟨rfl, nonnull, walk⟩ := walk
      have small := unfit head List.mem_cons_self
      simp only [nextFit, nonnull, small, ↓reduceIte]
      exact inductionHypothesis fuel head.address walk
        (fun other member => unfit other (List.mem_cons_of_mem _ member))
        (by simp only [List.length_cons] at enough; omega)

/-- When a block fits first, that block is split and taken off the list. -/
theorem firstFitAllocation_found
    {heap : Heap} {state : State} {size : Nat}
    {before after : List Block} {block : Block}
    {memory : Memory} {rest : Nat}
    (refines : Refines heap state) (formed : state.WellFormed)
    (first : state.FirstFit size before block after)
    (cut : splitBlock heap.memory block.address size = (memory, rest)) :
    firstFitAllocation size heap =
      some (block.address + 8,
        { heap with
          memory := (linkRest memory heap.freeBlockList before rest).1
          freeBlockList :=
            (linkRest memory heap.freeBlockList before rest).2 }) := by
  obtain ⟨split, unfit, fits⟩ := first
  have walk := refines.represents.chain
  have sizes := refines.represents.sizes
  have bounded := formed.bounded
  have inside := (formed.placed.below block
    (by simp [State.blocks, split])).1
  rw [blockFormat_record] at inside
  have payload : (block.address + 8) % 2 ^ 64 = block.address + 8 :=
    Nat.mod_eq_of_lt (by omega)
  have fitsStored : size ≤ blockSize heap.memory block.address := by
    rw [sizes block (by simp [split])]
    exact fits
  cases before with
  | nil =>
      rw [split] at walk
      have atHead : heap.freeBlockList = block.address := walk.1
      rw [firstFitAllocation, atHead, if_pos fitsStored, cut, payload,
        linkRest_nil]
  | cons head others =>
      have fuelEnough : others.length < walkLimit := by
        have bound := length_lt_walkLimit formed.addressable
        simp only [State.blocks, split, List.length_append,
          List.length_cons] at bound
        omega
      have unfitStored : ∀ other ∈ head :: others,
          blockSize heap.memory other.address < size := by
        intro other member
        have inFree : other ∈ state.free := by
          rw [split]
          exact List.mem_append_left _ member
        rw [sizes other (List.mem_append_left _ inFree)]
        exact unfit other member
      rw [split] at walk
      obtain ⟨atHead, _, walk⟩ := walk
      have headSmall := unfitStored head List.mem_cons_self
      have found := nextFit_found head.address walk
        (fun other member =>
          unfitStored other (List.mem_cons_of_mem _ member))
        fitsStored fuelEnough
      rw [firstFitAllocation, atHead, if_neg (Nat.not_le.mpr headSmall),
        found, linkRest_cons]
      simp only [cut, payload]

/--
When no block fits, a block of its own is added at the end of the heap, which
may wrap around to the start of the address space.
-/
theorem firstFitAllocation_unfit
    {heap : Heap} {state : State} {size : Nat}
    (refines : Refines heap state) (formed : state.WellFormed)
    (nonempty : state.free ≠ [])
    (unfit : ∀ other ∈ state.free, other.size < size)
    (small : size + 8 + 4095 < 2 ^ 64) :
    firstFitAllocation size heap =
      some (state.high + 8,
        { heap with
          memory := setNext
            (setSize heap.memory state.high size) state.high null
          heapEnd := (state.high + grown size) % 2 ^ 64 }) := by
  have bounded := formed.bounded
  have walk := refines.represents.chain
  have sizes := refines.represents.sizes
  have unfitStored : ∀ other ∈ state.free,
      blockSize heap.memory other.address < size := by
    intro other member
    rw [sizes other (List.mem_append_left _ member)]
    exact unfit other member
  have request : (size + 8) % 2 ^ 64 = size + 8 :=
    Nat.mod_eq_of_lt (by omega)
  have nonzero : size + 8 ≠ 0 := by omega
  have payload : (state.high + 8) % 2 ^ 64 = state.high + 8 :=
    Nat.mod_eq_of_lt (by omega)
  have bound := length_lt_walkLimit formed.addressable
  cases free : state.free with
  | nil => exact absurd free nonempty
  | cons head rest =>
      rw [free] at walk unfitStored
      rw [State.blocks, free] at bound
      simp only [List.cons_append, List.length_cons,
        List.length_append] at bound
      obtain ⟨atHead, _, walk⟩ := walk
      have headSmall := unfitStored head List.mem_cons_self
      have exhausted := nextFit_exhausted rest walkLimit head.address walk
        (fun other member =>
          unfitStored other (List.mem_cons_of_mem _ member)) (by omega)
      have extended : sbrk ((size + sizeofSizeT) % 2 ^ 64) heap =
          (state.high,
            { heap with heapEnd := (state.high + grown size) % 2 ^ 64 }) := by
        simp only [sizeofSizeT, request, sbrk, nonzero, refines.high, grown,
          ↓reduceIte]
      rw [firstFitAllocation, atHead, if_neg (Nat.not_le.mpr headSmall),
        exhausted, extended]
      simp only [payload, atHead]

/-- When no block fits, a block of its own is added at the end. -/
theorem firstFitAllocation_extends
    {heap : Heap} {state : State} {size : Nat}
    (refines : Refines heap state) (formed : state.WellFormed)
    (nonempty : state.free ≠ [])
    (unfit : ∀ other ∈ state.free, other.size < size)
    (growth : state.GrowthFits size) :
    firstFitAllocation size heap =
      some (state.high + 8,
        { heap with
          memory := setNext
            (setSize heap.memory state.high size) state.high null
          heapEnd := state.high + grown size }) := by
  obtain ⟨small, fits⟩ := growth
  have moved : (state.high + grown size) % 2 ^ 64 =
      state.high + grown size :=
    Nat.mod_eq_of_lt (by omega)
  rw [firstFitAllocation_unfit refines formed nonempty unfit small, moved]

/-- Taking a block that fits without splitting it. -/
theorem represents_whole
    {heap : Heap} {state : State} {size : Nat}
    {before after : List Block} {block : Block}
    (refines : Refines heap state)
    (first : state.FirstFit size before block after)
    (small : block.size - size ≤ 16)
    (formed : State.WellFormed
      ⟨state.low, state.high, before ++ after, block :: state.live⟩) :
    ∃ memory rest,
      splitBlock heap.memory block.address size = (memory, rest) ∧
      Represents (linkRest memory heap.freeBlockList before rest).1
        (linkRest memory heap.freeBlockList before rest).2
        (before ++ after) (block :: state.live) := by
  have represents := refines.represents
  have sizes : ∀ other ∈ block :: (before ++ after ++ state.live),
      blockSize heap.memory other.address = other.size := fun other member =>
    represents.sizes other (first.perm_blocks.mem_iff.mpr member)
  have stored := sizes block List.mem_cons_self
  have cut := splitBlock_of_small size
    (by rw [stored]; exact first.2.2) (by rw [stored]; exact small)
  rw [first.1] at represents
  have walk := represents.chain
  rw [List.map_append, List.map_cons, chain_append_cons] at walk
  refine ⟨_, _, cut, ?_⟩
  exact represents_linkRest [] represents formed.placed
    (blockNext_lt _ _) walk.2.2 (fun _ _ => rfl)
    (fun other member => sizes other
      ((whole_perm before after state.live block).mem_iff.mpr member))

/-- Taking the front part of a block that is carved in two. -/
theorem represents_carved
    {heap : Heap} {state : State} {size : Nat}
    {before after : List Block} {block : Block}
    (refines : Refines heap state) (old : state.WellFormed)
    (request : 8 ≤ size)
    (first : state.FirstFit size before block after)
    (large : 16 < block.size - size)
    (formed : State.WellFormed
      ⟨state.low, state.high,
        before ++ blockFormat.remainder block size :: after,
        ⟨block.address, size⟩ :: state.live⟩) :
    ∃ memory rest,
      splitBlock heap.memory block.address size = (memory, rest) ∧
      Represents (linkRest memory heap.freeBlockList before rest).1
        (linkRest memory heap.freeBlockList before rest).2
        (before ++ blockFormat.remainder block size :: after)
        (⟨block.address, size⟩ :: state.live) := by
  have represents := refines.represents
  have sizes : ∀ other ∈ block :: (before ++ after ++ state.live),
      blockSize heap.memory other.address = other.size := fun other member =>
    represents.sizes other (first.perm_blocks.mem_iff.mpr member)
  have stored := sizes block List.mem_cons_self
  have placed := old.placed.perm first.perm_blocks
  have finish := (placed.below block List.mem_cons_self).2
  rw [blockFormat_finish, blockFormat_overhang] at finish
  have bounded := old.bounded
  obtain ⟨result, cut, blockStored, remStored, remNext, elsewhere⟩ :=
    splitBlock_of_large heap.memory block.address
      request (by rw [stored]; exact large) (by rw [stored]; omega)
  rw [stored] at remStored
  have permuted := carved_perm before after state.live
    (blockFormat.remainder block size) ⟨block.address, size⟩
  -- the two new headers are apart from every other block's header
  have remApart := headersApart_of_placed (formed.placed.perm permuted.symm)
  have apart := headersApart_of_placed placed
  have unchanged : ∀ other ∈ before ++ after ++ state.live,
      blockSize result other.address = blockSize heap.memory other.address ∧
        blockNext result other.address =
          blockNext heap.memory other.address :=
    fun other member => elsewhere other.address (apart other member)
      (remApart other (List.mem_cons_of_mem _ member))
  rw [first.1] at represents
  have walk := represents.chain
  rw [List.map_append, List.map_cons, chain_append_cons] at walk
  refine ⟨_, _, cut, ?_⟩
  refine represents_linkRest
    [blockFormat.remainder block size] represents
    formed.placed (by omega) ⟨rfl, ?_, ?_⟩ ?_ ?_
  · simp only [null, blockFormat_remainder]
    omega
  · rw [blockFormat_remainder, remNext]
    refine walk.2.2.congr fun node member => ?_
    obtain ⟨other, otherMember, rfl⟩ := List.mem_map.mp member
    exact (unchanged other (by simp [otherMember])).2
  · intro other member
    exact (unchanged other (by simp [member])).2
  · intro other member
    rcases List.mem_cons.mp (permuted.mem_iff.mpr member) with rfl | member
    · exact remStored
    · rcases List.mem_cons.mp member with rfl | member
      · exact blockStored
      · rw [(unchanged other member).1]
        exact sizes other (List.mem_cons_of_mem _ member)

/-- Adding a block of its own at the end of the heap. -/
theorem represents_extended
    {heap : Heap} {state : State} {size : Nat}
    (refines : Refines heap state) (formed : state.WellFormed)
    (small : size < 2 ^ 64) :
    Represents
      (setNext (setSize heap.memory state.high size) state.high null)
      heap.freeBlockList state.free (⟨state.high, size⟩ :: state.live) := by
  have apart : ∀ other ∈ state.blocks,
      HeadersApart state.high other.address := by
    intro other member
    have below := (formed.placed.below other member).1
    rw [blockFormat_record] at below
    exact Or.inr below
  refine ⟨refines.represents.chain.congr fun node member => ?_, ?_⟩
  · obtain ⟨other, otherMember, rfl⟩ := List.mem_map.mp member
    have away := apart other (List.mem_append_left _ otherMember)
    rw [blockNext_setNext_of_apart away, blockNext_setSize_of_apart away]
  · intro other member
    rcases List.mem_cons.mp (List.perm_middle.mem_iff.mp member) with
      rfl | member
    · rw [blockSize_setNext_same, blockSize_setSize_same small]
    · rw [blockSize_setNext_of_apart (apart other member),
        blockSize_setSize_of_apart (apart other member)]
      exact refines.represents.sizes other member

/-- First fit on a non-empty list is an abstract allocation. -/
theorem firstFitAllocation_refines
    {heap : Heap} {state : State} {size : Nat}
    (refines : Refines heap state) (formed : state.WellFormed)
    (nonempty : state.free ≠ []) (request : 8 ≤ size)
    (safe : state.CarvesSafely size)
    (growth : (∀ other ∈ state.free, other.size < size) →
      state.GrowthFits size) :
    ∃ block next result,
      firstFitAllocation size heap = some (block.address + 8, next) ∧
        Allocates size state block result ∧ Refines next result ∧
        next.totalMemory = heap.totalMemory := by
  rcases state.firstFit_or_unfit size with
    ⟨before, block, after, first⟩ | unfit
  · by_cases small : block.size - size ≤ 16
    · have allocates := Allocates.whole before block after first small
      obtain ⟨memory, rest, cut, represents⟩ :=
        represents_whole refines first small
          (allocates.wellFormed formed request safe growth)
      have found := firstFitAllocation_found refines formed first cut
      exact ⟨block, _, _, found, allocates,
        ⟨represents, refines.low, refines.high⟩, rfl⟩
    · have large : 16 < block.size - size := Nat.lt_of_not_le small
      have allocates := Allocates.carved before block after first large
      obtain ⟨memory, rest, cut, represents⟩ :=
        represents_carved refines formed request first large
          (allocates.wellFormed formed request safe growth)
      have found := firstFitAllocation_found refines formed first cut
      exact ⟨⟨block.address, size⟩, _, _, found, allocates,
        ⟨represents, refines.low, refines.high⟩, rfl⟩
  · have small := (growth unfit).1
    have extended := firstFitAllocation_extends refines formed nonempty
      unfit (growth unfit)
    have representable : size < 2 ^ 64 := by omega
    have represents := represents_extended refines formed representable
    exact ⟨⟨state.high, size⟩, _, _, extended, Allocates.extended unfit,
      ⟨represents, refines.low, rfl⟩, rfl⟩

/--
`kmalloc` of an accepted request terminates and performs an abstract
allocation, after opening an empty list.
-/
theorem kmalloc_refines
    {heap : Heap} {state : State} {size : Nat}
    (refines : Refines heap state) (formed : state.WellFormed)
    (request : 8 ≤ size) (accepted : size ≤ heap.totalMemory)
    (opens : state.free = [] → state.GrowthFits size)
    (safe : (state.opened size).CarvesSafely size)
    (growth : (∀ other ∈ (state.opened size).free, other.size < size) →
      (state.opened size).GrowthFits size) :
    ∃ block next result,
      kmalloc size heap = some (block.address + 8, next) ∧
        Allocates size (state.opened size) block result ∧
        Refines next result ∧ result.WellFormed ∧
        next.totalMemory = heap.totalMemory := by
  obtain ⟨openRefines, sameTotal⟩ := openHeap_refines refines formed opens
  have openFormed := formed.opened opens
  have nonempty : (state.opened size).free ≠ [] := by
    unfold State.opened
    split_ifs with empty
    · simp
    · exact empty
  obtain ⟨block, next, result, equation, allocates, nextRefines, total⟩ :=
    firstFitAllocation_refines openRefines openFormed nonempty request safe
      growth
  refine ⟨block, next, result, ?_, allocates, nextRefines,
    allocates.wellFormed openFormed request safe growth,
    total.trans sameTotal⟩
  rw [kmalloc, if_neg (Nat.not_lt.mpr accepted), equation]

/-! ## Coalescing -/

/-- The adjacency test compares the end of a block, on `u64`. -/
theorem areAdjacent_iff
    {memory : Memory} {block : Block} (next : Nat)
    (stored : blockSize memory block.address = block.size) :
    areAdjacent memory block.address next ↔
      blockFormat.finish block % 2 ^ 64 = next := by
  have sum : block.address + (block.size + 8) =
      block.address + 8 + block.size := by omega
  rw [areAdjacent, stored, sizeofSizeT, sum, blockFormat_finish]

/--
Coalescing records the joint size in the left block, which takes over the
list pointer of the right one; headers elsewhere are unchanged.
-/
theorem coalesceBlocks_spec
    (memory : Memory) {left right : Nat}
    (apart : HeadersApart left right)
    (bounded :
      blockSize memory left + 8 + blockSize memory right < 2 ^ 64) :
    blockSize (coalesceBlocks memory left right) left =
        blockSize memory left + 8 + blockSize memory right ∧
      blockNext (coalesceBlocks memory left right) left =
        blockNext memory right ∧
      ∀ other, HeadersApart left other → HeadersApart right other →
        blockSize (coalesceBlocks memory left right) other =
            blockSize memory other ∧
          blockNext (coalesceBlocks memory left right) other =
            blockNext memory other := by
  have sum : (blockSize memory left + (blockSize memory right + 8)) %
      2 ^ 64 = blockSize memory left + 8 + blockSize memory right := by
    omega
  have back : HeadersApart right left := Or.symm apart
  have nextSmall := blockNext_lt memory right
  simp only [coalesceBlocks, sizeofSizeT, sum]
  refine ⟨?_, ?_, ?_⟩
  · rw [blockSize_setNext_of_apart back, blockSize_setSize_of_apart back,
      blockSize_setNext_same, blockSize_setSize_same bounded]
  · rw [blockNext_setNext_of_apart back, blockNext_setSize_of_apart back,
      blockNext_setSize_of_apart apart, blockNext_setNext_same nextSmall]
  · intro other first second
    constructor
    · rw [blockSize_setNext_of_apart second,
        blockSize_setSize_of_apart second,
        blockSize_setNext_of_apart first, blockSize_setSize_of_apart first]
    · rw [blockNext_setNext_of_apart second,
        blockNext_setSize_of_apart second,
        blockNext_setNext_of_apart first, blockNext_setSize_of_apart first]

/-- Coalescing with the next block of the list, where there is one. -/
def coalesceNext (memory : Memory) (block next : Nat) : Memory :=
  if next ≠ null ∧ areAdjacent memory block next then
    coalesceBlocks memory block next
  else memory

theorem coalesceNext_null (memory : Memory) (block : Nat) :
    coalesceNext memory block null = memory :=
  if_neg fun joins => joins.1 rfl

theorem coalesceNext_of_ne_null
    {memory : Memory} {block next : Nat} (nonnull : next ≠ null) :
    coalesceNext memory block next =
      if areAdjacent memory block next then coalesceBlocks memory block next
      else memory := by
  simp only [coalesceNext, ne_eq, nonnull, not_false_eq_true, true_and]

/--
Coalescing the head of a list with its successor absorbs the successor, and
leaves the list pointers of all other blocks alone.
-/
theorem represents_coalesceNext
    {memory : Memory} {block : Block} {after others : List Block}
    {next : Nat}
    (represents :
      Represents memory block.address (block :: after) others)
    (addressable : Addressable (block :: (after ++ others)))
    (link : blockNext memory block.address = next) :
    Represents (coalesceNext memory block.address next) block.address
        (blockFormat.absorb block after) others ∧
      ∀ other ∈ others,
        blockNext (coalesceNext memory block.address next) other.address =
          blockNext memory other.address := by
  have placed := addressable.placed
  have above := (addressable.pointer List.mem_cons_self).1
  have finish := addressable.ends block List.mem_cons_self
  obtain ⟨_, _, restPlaced⟩ := wellPlaced_cons.mp placed
  have adjacent := areAdjacent_iff next (represents.sizes block (by simp))
  obtain ⟨_, blockNonnull, walk⟩ := represents.chain
  rw [link] at walk
  cases after with
  | nil =>
      have atEnd : next = null := walk
      rw [coalesceNext, if_neg (fun joins => joins.1 atEnd)]
      exact ⟨represents, fun _ _ => rfl⟩
  | cons head rest =>
      obtain ⟨rfl, nonnull, walk⟩ := walk
      have headPointer := addressable.pointer
        (List.mem_cons_of_mem block (List.mem_cons_self (a := head)))
      have compares : blockFormat.finish block % 2 ^ 64 = head.address ↔
          blockFormat.finish block = head.address := by
        omega
      rw [compares] at adjacent
      by_cases touching : blockFormat.finish block = head.address
      · have joins : head.address ≠ null ∧
            areAdjacent memory block.address head.address :=
          ⟨nonnull, adjacent.mpr touching⟩
        rw [coalesceNext, if_pos joins, Format.absorb, if_pos touching]
        have fromBlock := headersApart_of_placed placed
        have fromHead := headersApart_of_placed restPlaced
        have blockStored := represents.sizes block (by simp)
        have headStored := represents.sizes head (by simp)
        have headEnd := addressable.ends head (by simp)
        rw [blockFormat_finish] at touching headEnd
        obtain ⟨size, pointer, elsewhere⟩ := coalesceBlocks_spec
          memory (fromBlock head (by simp)) (by omega)
        rw [blockFormat_merged]
        refine ⟨⟨⟨rfl, blockNonnull, ?_⟩, ?_⟩, ?_⟩
        · rw [pointer]
          refine Chain.congr walk fun node member => ?_
          obtain ⟨other, otherMember, rfl⟩ := List.mem_map.mp member
          exact (elsewhere other.address
            (fromBlock other (by simp [otherMember]))
            (fromHead other (by simp [otherMember]))).2
        · intro other member
          rcases List.mem_cons.mp member with rfl | member
          · simp only [size, blockStored, headStored]
          · rw [(elsewhere other.address
              (fromBlock other (List.mem_cons_of_mem _ member))
              (fromHead other member)).1]
            exact represents.sizes other
              (List.mem_cons_of_mem _ (List.mem_cons_of_mem _ member))
        · intro other member
          exact (elsewhere other.address
            (fromBlock other (by simp [member]))
            (fromHead other (by simp [member]))).2
      · have stays : ¬ (head.address ≠ null ∧
            areAdjacent memory block.address head.address) :=
          fun joins => touching (adjacent.mp joins.2)
        rw [coalesceNext, if_neg stays, Format.absorb, if_neg touching]
        exact ⟨represents, fun _ _ => rfl⟩

/-! ## `kfree` -/

/--
The loop passes the blocks below the freed one and stops in front of the
first block that is not.
-/
theorem findPlace_spec
    {memory : Memory} {pointer : Nat} (freed : Nat) (blocks : List Block)
    (fuel prev : Nat)
    (walk : Chain (blockNext memory) null pointer
      (blocks.map Block.address))
    (enough : blocks.length < fuel) :
    ∃ passed after next, blocks = passed ++ after ∧
      findPlace memory freed fuel prev pointer =
        some ((passed.map Block.address).getLastD prev, next) ∧
      Chain (blockNext memory) null next (after.map Block.address) ∧
      (∀ other ∈ passed, other.address < freed) ∧
      ∀ other ∈ after.head?, freed ≤ other.address := by
  induction blocks generalizing fuel prev pointer with
  | nil =>
      obtain ⟨fuel, rfl⟩ :=
        Nat.exists_eq_add_one.mpr (Nat.zero_lt_of_lt enough)
      have atEnd : pointer = null := walk
      refine ⟨[], [], pointer, rfl, ?_, walk, by simp, by simp⟩
      simp only [findPlace, atEnd, ne_eq, not_true_eq_false, and_false,
        ↓reduceIte, List.map_nil, List.getLastD_nil]
  | cons head rest inductionHypothesis =>
      obtain ⟨fuel, rfl⟩ :=
        Nat.exists_eq_add_one.mpr (Nat.zero_lt_of_lt enough)
      have here := walk
      obtain ⟨rfl, nonnull, walk⟩ := walk
      by_cases below : head.address < freed
      · obtain ⟨passed, after, next, split, found, tail, passedBelow,
          reached⟩ := inductionHypothesis fuel head.address walk
            (by simp only [List.length_cons] at enough; omega)
        refine ⟨head :: passed, after, next, by rw [split, List.cons_append],
          ?_, tail, List.forall_mem_cons.mpr ⟨below, passedBelow⟩, reached⟩
        simp only [findPlace, below, nonnull, ne_eq, not_false_eq_true,
          and_self, ↓reduceIte, found, List.map_cons, List.getLastD_cons]
      · refine ⟨[], head :: rest, head.address, rfl, ?_, here, by simp, ?_⟩
        · simp only [findPlace, below, false_and, ↓reduceIte, List.map_nil,
            List.getLastD_nil]
        · intro other member
          simp only [List.head?_cons, Option.mem_def,
            Option.some.injEq] at member
          rw [← member]
          omega

/--
Linking a block behind `prev` and coalescing on both sides.  The hypotheses
on `linked` say what the two assignments to list pointers did.
-/
theorem represents_insert
    {memory : Memory} {head : Nat} {live rest : List Block}
    {prev block : Block} (linked : Memory) (next : Nat)
    (before after : List Block)
    (represents : Represents memory head (before ++ prev :: after) live)
    (addressable : Addressable
      (block :: (before ++ prev :: after ++ rest)))
    (tail : Chain (blockNext memory) null next (after.map Block.address))
    (sizes : ∀ other ∈ block :: (before ++ prev :: after ++ rest),
      blockSize linked other.address = other.size)
    (toBlock : blockNext linked prev.address = block.address)
    (fromBlock : blockNext linked block.address = next)
    (sameNext : ∀ other ∈ before ++ after,
      blockNext linked other.address = blockNext memory other.address) :
    Represents
      (coalesceNext (coalesceNext linked block.address next) prev.address
        block.address)
      head
      (before ++ blockFormat.absorb prev (blockFormat.absorb block after))
      rest := by
  have blockNonnull : block.address ≠ null :=
    Nat.ne_of_gt (addressable.pointer List.mem_cons_self).1
  have prevMember : prev ∈ block :: (before ++ prev :: after ++ rest) := by
    simp
  have prevNonnull : prev.address ≠ null :=
    Nat.ne_of_gt (addressable.pointer prevMember).1
  have walk := represents.chain
  rw [List.map_append, List.map_cons, chain_append_cons] at walk
  have blockFirst :
      (block :: (before ++ prev :: after ++ rest)).Perm
        (block :: (after ++ prev :: (before ++ rest))) := by
    refine List.Perm.cons _ ?_
    grind
  have prevLast (blocks : List Block) :
      (prev :: (blocks ++ (before ++ rest))).Perm
        (blocks ++ prev :: (before ++ rest)) :=
    List.perm_middle.symm
  have beforeLast (blocks : List Block) :
      (before ++ blocks ++ rest).Perm (blocks ++ (before ++ rest)) := by
    grind
  -- the freed block first absorbs what follows it
  have atBlock : Represents linked block.address (block :: after)
      (prev :: (before ++ rest)) := by
    refine ⟨⟨rfl, blockNonnull, ?_⟩, ?_⟩
    · rw [fromBlock]
      refine tail.congr fun node member => ?_
      obtain ⟨other, otherMember, rfl⟩ := List.mem_map.mp member
      exact sameNext other (List.mem_append_right _ otherMember)
    · intro other member
      exact sizes other (blockFirst.mem_iff.mpr member)
  have blockPlaced := addressable.perm blockFirst
  obtain ⟨blockDone, blockFrame⟩ :=
    represents_coalesceNext atBlock blockPlaced fromBlock
  -- then its predecessor absorbs the result
  have link : blockNext (coalesceNext linked block.address next)
      prev.address = block.address :=
    (blockFrame prev List.mem_cons_self).trans toBlock
  have atPrev : Represents (coalesceNext linked block.address next)
      prev.address (prev :: blockFormat.absorb block after)
      (before ++ rest) := by
    refine ⟨⟨rfl, prevNonnull, ?_⟩, ?_⟩
    · rw [link]
      exact blockDone.chain
    · intro other member
      exact blockDone.sizes other ((prevLast _).mem_iff.mp member)
  have prevPlaced := blockPlaced.absorb.perm (prevLast _).symm
  obtain ⟨prevDone, prevFrame⟩ :=
    represents_coalesceNext atPrev prevPlaced link
  refine ⟨?_, ?_⟩
  · rw [List.map_append]
    refine segment_append.mpr
      ⟨prev.address, Segment.congr walk.1 ?_, prevDone.chain⟩
    intro node member
    obtain ⟨other, otherMember, rfl⟩ := List.mem_map.mp member
    rw [prevFrame other (List.mem_append_left _ otherMember),
      blockFrame other
        (List.mem_cons_of_mem _ (List.mem_append_left _ otherMember)),
      sameNext other (List.mem_append_left _ otherMember)]
  · intro other member
    exact prevDone.sizes other ((beforeLast _).mem_iff.mp member)

/-- Assigning list pointers of placed blocks changes no size. -/
theorem blockSize_setNext_of_placed
    {memory : Memory} {value low high : Nat}
    {blocks : List Block} {block other : Block}
    (placed : WellPlaced blockFormat low high blocks)
    (member : block ∈ blocks) (otherMember : other ∈ blocks) :
    blockSize (setNext memory block.address value) other.address =
      blockSize memory other.address := by
  by_cases same : block.address = other.address
  · rw [same, blockSize_setNext_same]
  · exact blockSize_setNext_of_apart (headersApart_of_apart
      (placed.apart_of_ne member otherMember same))

section Kfree

variable {heap : Heap} {state : State} {block : Block}
  {earlier later : List Block}

/-- `kfree` recovers the block from the payload pointer. -/
theorem freed_eq {address : Nat} (small : address < 2 ^ 64) :
    sub64 (address + 8) sizeofSizeT = address := by
  simp only [sub64, sizeofSizeT]
  omega

/-- The freed block is placed apart from all blocks that stay. -/
theorem addressable_of_live
    (addressable : Addressable state.blocks)
    (live : state.live = earlier ++ block :: later) :
    Addressable (block :: (state.free ++ (earlier ++ later))) :=
  addressable.perm (State.perm_of_live live)

/--
What `freed->next = NULL` leaves: the free list as it was, and a block with a
null list pointer next to it.
-/
structure Detached (memory : Memory) (head : Nat) (free rest : List Block)
    (block : Block) : Prop where
  chain : Chain (blockNext memory) null head (free.map Block.address)
  sizes : ∀ other ∈ block :: (free ++ rest),
    blockSize memory other.address = other.size
  atEnd : blockNext memory block.address = null

theorem detached_of_live
    (represents :
      Represents heap.memory heap.freeBlockList state.free state.live)
    (addressable : Addressable state.blocks)
    (live : state.live = earlier ++ block :: later) :
    Detached (setNext heap.memory block.address null) heap.freeBlockList
      state.free (earlier ++ later) block := by
  have blocks := addressable_of_live addressable live
  have apart := headersApart_of_placed blocks.placed
  refine ⟨represents.chain.congr fun node member => ?_, ?_, ?_⟩
  · obtain ⟨other, otherMember, rfl⟩ := List.mem_map.mp member
    exact blockNext_setNext_of_apart
      (apart other (List.mem_append_left _ otherMember))
  · intro other member
    rw [blockSize_setNext_of_placed blocks.placed List.mem_cons_self member]
    exact represents.sizes other
      ((State.perm_of_live live).mem_iff.mpr member)
  · exact blockNext_setNext_same (by decide)

/-- The addresses of live blocks are proper pointers. -/
theorem address_bounds
    (addressable : Addressable state.blocks)
    (live : state.live = earlier ++ block :: later) :
    0 < block.address ∧ block.address + 16 ≤ 2 ^ 64 :=
  (addressable_of_live addressable live).pointer List.mem_cons_self

/-- The "No blocks" branch. -/
theorem kfree_empty
    (represents :
      Represents heap.memory heap.freeBlockList state.free state.live)
    (addressable : Addressable state.blocks)
    (live : state.live = earlier ++ block :: later)
    (empty : state.free = []) :
    ∃ memory, kfree (block.address + 8) heap =
        some { heap with memory := memory, freeBlockList := block.address } ∧
      Represents memory block.address (blockFormat.absorb block state.free)
        (earlier ++ later) := by
  obtain ⟨positive, small⟩ := address_bounds addressable live
  have detached := detached_of_live represents addressable live
  have headNull : heap.freeBlockList = null :=
    represents.chain.head_eq_null_iff.mpr (by rw [empty]; rfl)
  rw [empty] at detached ⊢
  refine ⟨setNext heap.memory block.address null, ?_,
    ⟨rfl, Nat.ne_of_gt positive, detached.atEnd⟩, detached.sizes⟩
  rw [kfree, freed_eq (by omega), if_pos headNull]

/-- The "One block" branch when the freed block comes first. -/
theorem kfree_front
    {only : Block}
    (represents :
      Represents heap.memory heap.freeBlockList state.free state.live)
    (addressable : Addressable state.blocks)
    (live : state.live = earlier ++ block :: later)
    (single : state.free = [only])
    (below : block.address < only.address) :
    ∃ memory, kfree (block.address + 8) heap =
        some { heap with memory := memory, freeBlockList := block.address } ∧
      Represents memory block.address (blockFormat.absorb block state.free)
        (earlier ++ later) := by
  obtain ⟨positive, small⟩ := address_bounds addressable live
  have blocks := addressable_of_live addressable live
  have detached := detached_of_live represents addressable live
  rw [single] at blocks detached ⊢
  obtain ⟨atHead, nonnull, last⟩ := detached.chain
  have lastNull : blockNext (setNext heap.memory block.address null)
      only.address = null := last
  have apart := headersApart_of_placed blocks.placed only (by simp)
  have onlyMember : only ∈ block :: ([only] ++ (earlier ++ later)) := by
    simp
  have onlySmall := (blocks.pointer onlyMember).2
  have linked : Represents
      (setNext (setNext heap.memory block.address null) block.address
        only.address)
      block.address [block, only] (earlier ++ later) := by
    refine ⟨⟨rfl, Nat.ne_of_gt positive,
      blockNext_setNext_same (by omega), nonnull, ?_⟩, ?_⟩
    · exact (blockNext_setNext_of_apart apart).trans lastNull
    · intro other member
      rw [blockSize_setNext_of_placed blocks.placed List.mem_cons_self member]
      exact detached.sizes other member
  have done := represents_coalesceNext linked blocks
    (blockNext_setNext_same (by omega))
  refine ⟨_, ?_, done.1⟩
  rw [coalesceNext_of_ne_null nonnull, kfree, freed_eq (by omega), atHead,
    if_neg nonnull, if_pos lastNull, if_neg (Nat.lt_asymm below),
    if_neg (Nat.lt_asymm below)]

/-- The "One block" branch when the freed block comes second. -/
theorem kfree_second
    {only : Block}
    (represents :
      Represents heap.memory heap.freeBlockList state.free state.live)
    (addressable : Addressable state.blocks)
    (live : state.live = earlier ++ block :: later)
    (single : state.free = [only])
    (above : only.address < block.address) :
    ∃ memory, kfree (block.address + 8) heap =
        some { heap with memory := memory } ∧
      Represents memory heap.freeBlockList
        (blockFormat.absorb only (blockFormat.absorb block []))
        (earlier ++ later) := by
  obtain ⟨positive, small⟩ := address_bounds addressable live
  have blocks := addressable_of_live addressable live
  have detached := detached_of_live represents addressable live
  have represents := represents
  rw [single] at blocks detached represents
  obtain ⟨atHead, nonnull, last⟩ := detached.chain
  have lastNull : blockNext (setNext heap.memory block.address null)
      only.address = null := last
  have apart := headersApart_of_placed blocks.placed only (by simp)
  have done := represents_insert
    (setNext (setNext heap.memory block.address null) only.address
      block.address)
    null [] [] represents blocks rfl
    (fun other member => by
      rw [blockSize_setNext_of_placed blocks.placed (by simp) member]
      exact detached.sizes other member)
    (blockNext_setNext_same (by omega))
    ((blockNext_setNext_of_apart (Or.symm apart)).trans detached.atEnd)
    (by simp)
  rw [coalesceNext_null,
    coalesceNext_of_ne_null (Nat.ne_of_gt positive)] at done
  refine ⟨_, ?_, done⟩
  rw [kfree, freed_eq (by omega), if_neg (atHead ▸ nonnull), atHead,
    if_pos lastNull, if_pos above, if_pos above]

/-- The walk of the "Many blocks" branch stops where the block belongs. -/
theorem findPlace_many
    {head second : Block} {rest : List Block}
    (represents :
      Represents heap.memory heap.freeBlockList state.free state.live)
    (addressable : Addressable state.blocks)
    (live : state.live = earlier ++ block :: later)
    (many : state.free = head :: second :: rest) :
    ∃ before prev after next,
      findPlace (setNext heap.memory block.address null) block.address
          walkLimit head.address
          (blockNext (setNext heap.memory block.address null) head.address) =
        some (prev.address, next) ∧
      state.free = before ++ prev :: after ∧
      Chain (blockNext (setNext heap.memory block.address null)) null next
        (after.map Block.address) ∧
      (∀ other ∈ (before ++ [prev]).tail, other.address < block.address) ∧
      ∀ other ∈ after.head?, block.address < other.address := by
  have blocks := addressable_of_live addressable live
  have detached := detached_of_live represents addressable live
  have bound := length_lt_walkLimit addressable
  simp only [State.blocks, many, List.length_append,
    List.length_cons] at bound
  have walk := detached.chain
  rw [many] at walk
  obtain ⟨passed, after, next, split, found, tail, passedBelow, reached⟩ :=
    findPlace_spec block.address (second :: rest) walkLimit head.address
      walk.2.2
      (by simp only [List.length_cons]; omega)
  obtain ⟨before, prev, lastPassed⟩ :
      ∃ before prev, head :: passed = before ++ [prev] := by
    rcases List.eq_nil_or_concat (head :: passed) with
      empty | ⟨before, prev, shape⟩
    · exact absurd empty (List.cons_ne_nil head passed)
    · exact ⟨before, prev, by rw [shape, List.concat_eq_append]⟩
  have free : state.free = before ++ prev :: after := by
    rw [many, split, ← List.cons_append, lastPassed]
    simp
  have prevAddress :
      (passed.map Block.address).getLastD head.address = prev.address := by
    rw [← List.getLastD_cons (a := null), ← List.map_cons, lastPassed]
    simp
  refine ⟨before, prev, after, next, prevAddress ▸ found, free, tail, ?_, ?_⟩
  · rw [← lastPassed]
    exact passedBelow
  · intro other member
    have atLeast := reached other member
    have apart := headersApart_of_placed blocks.placed other (by
      rw [free]
      simp [List.mem_of_mem_head? member])
    unfold HeadersApart at apart
    omega

/-- What the walk stops at is null or the address of a block. -/
theorem next_lt
    {memory : Memory} {next : Nat} {after : List Block}
    (below : ∀ other ∈ after, other.address < 2 ^ 64)
    (tail : Chain (blockNext memory) null next (after.map Block.address)) :
    next < 2 ^ 64 := by
  cases after with
  | nil =>
      have atEnd : next = null := tail
      rw [atEnd]
      decide
  | cons other others =>
      rw [tail.1]
      exact below other List.mem_cons_self

/-- Linking a block where the walk stopped, and coalescing it there. -/
theorem represents_linked
    {before after : List Block} {prev : Block} {next : Nat}
    (represents :
      Represents heap.memory heap.freeBlockList state.free state.live)
    (addressable : Addressable state.blocks)
    (live : state.live = earlier ++ block :: later)
    (free : state.free = before ++ prev :: after)
    (tail : Chain (blockNext (setNext heap.memory block.address null)) null
      next (after.map Block.address)) :
    Represents
      (coalesceNext
        (coalesceNext
          (setNext
            (setNext (setNext heap.memory block.address null) prev.address
              block.address)
            block.address next)
          block.address next)
        prev.address block.address)
      heap.freeBlockList
      (before ++ blockFormat.absorb prev (blockFormat.absorb block after))
      (earlier ++ later) := by
  obtain ⟨_, small⟩ := address_bounds addressable live
  have blocks := addressable_of_live addressable live
  have detached := detached_of_live represents addressable live
  have represents := represents
  rw [free] at blocks detached represents
  have prevBlocks : prev ∈
      block :: (before ++ prev :: after ++ (earlier ++ later)) := by
    simp
  have prevFirst : Addressable
      (prev :: (before ++ after ++ (block :: (earlier ++ later)))) := by
    refine blocks.perm ?_
    grind
  have apart := headersApart_of_placed blocks.placed
  have prevApart := headersApart_of_placed prevFirst.placed
  have nextSmall : next < 2 ^ 64 := by
    refine next_lt (fun other member => ?_) tail
    have otherMember : other ∈
        block :: (before ++ prev :: after ++ (earlier ++ later)) := by
      simp [member]
    have pointer := (blocks.pointer otherMember).2
    omega
  exact represents_insert _ next before after represents blocks
    (tail.congr fun node member => by
      obtain ⟨other, otherMember, rfl⟩ := List.mem_map.mp member
      exact (blockNext_setNext_of_apart
        (apart other (by simp [otherMember]))).symm)
    (fun other member => by
      rw [blockSize_setNext_of_placed blocks.placed List.mem_cons_self member,
        blockSize_setNext_of_placed blocks.placed prevBlocks member]
      exact detached.sizes other member)
    (by
      rw [blockNext_setNext_of_apart (apart prev (by simp))]
      exact blockNext_setNext_same (by omega))
    (blockNext_setNext_same nextSmall)
    (fun other member => by
      have away := apart other (by
        rcases List.mem_append.mp member with member | member <;>
          simp [member])
      rw [blockNext_setNext_of_apart away,
        blockNext_setNext_of_apart
          (prevApart other (List.mem_append_left _ member)),
        blockNext_setNext_of_apart away])

/-- The "Many blocks" branch. -/
theorem kfree_many
    {head second : Block} {rest : List Block}
    (represents :
      Represents heap.memory heap.freeBlockList state.free state.live)
    (addressable : Addressable state.blocks)
    (live : state.live = earlier ++ block :: later)
    (many : state.free = head :: second :: rest) :
    ∃ memory before prev after,
      kfree (block.address + 8) heap = some { heap with memory := memory } ∧
      state.free = before ++ prev :: after ∧
      (∀ other ∈ (before ++ [prev]).tail, other.address < block.address) ∧
      (∀ other ∈ after.head?, block.address < other.address) ∧
      Represents memory heap.freeBlockList
        (before ++ blockFormat.absorb prev (blockFormat.absorb block after))
        (earlier ++ later) := by
  obtain ⟨positive, small⟩ := address_bounds addressable live
  have walk := (detached_of_live represents addressable live).chain
  rw [many] at walk
  obtain ⟨atHead, nonnull, walk⟩ := walk
  have secondNonnull : blockNext (setNext heap.memory block.address null)
      head.address ≠ null := by
    rw [walk.1]
    exact walk.2.1
  obtain ⟨before, prev, after, next, found, free, tail, below, above⟩ :=
    findPlace_many represents addressable live many
  have done := represents_linked represents addressable live free tail
  rw [coalesceNext_of_ne_null (Nat.ne_of_gt positive)] at done
  refine ⟨_, before, prev, after, ?_, free, below, above, done⟩
  rw [kfree, freed_eq (by omega), atHead, if_neg nonnull,
    if_neg secondNonnull, found]
  rfl

/--
`kfree` of an addressable block terminates and performs an abstract release;
it neither reads nor writes the bounds of the heap.
-/
theorem kfree_releases
    (represents :
      Represents heap.memory heap.freeBlockList state.free state.live)
    (addressable : Addressable state.blocks)
    (live : state.live = earlier ++ block :: later) :
    ∃ memory head result,
      kfree (block.address + 8) heap =
        some { heap with memory := memory, freeBlockList := head } ∧
      Releases state block earlier later result ∧
      Represents memory head result.free result.live := by
  cases free : state.free with
  | nil =>
      obtain ⟨memory, freed, done⟩ :=
        kfree_empty represents addressable live free
      exact ⟨memory, _, _, freed,
        Releases.front (by simp [free]) (by simp [free]), done⟩
  | cons head rest =>
      cases rest with
      | nil =>
          have apart := headersApart_of_placed
            (addressable_of_live addressable live).placed head
            (by simp [free])
          by_cases below : block.address < head.address
          · obtain ⟨memory, freed, done⟩ :=
              kfree_front represents addressable live free below
            exact ⟨memory, _, _, freed,
              Releases.front (by simp [free]) (by simp [free, below]), done⟩
          · have above : head.address < block.address := by
              unfold HeadersApart at apart
              omega
            obtain ⟨memory, freed, done⟩ :=
              kfree_second represents addressable live free above
            exact ⟨memory, _, _, freed,
              Releases.behind [] head [] free (by simp) (by simp)
                (fun _ => above), done⟩
      | cons second rest =>
          obtain ⟨memory, before, prev, after, freed, split, passed, reached,
            done⟩ := kfree_many represents addressable live free
          exact ⟨memory, _, _, freed,
            Releases.behind before prev after split passed reached
              (by simp [free]), done⟩

/-- `kfree` of a live block terminates and performs an abstract release. -/
theorem kfree_refines
    (refines : Refines heap state) (formed : state.WellFormed)
    (live : state.live = earlier ++ block :: later) :
    ∃ next result, kfree (block.address + 8) heap = some next ∧
      Releases state block earlier later result ∧ Refines next result ∧
      next.totalMemory = heap.totalMemory := by
  obtain ⟨memory, head, result, freed, releases, done⟩ :=
    kfree_releases refines.represents formed.addressable live
  refine ⟨_, result, freed, releases, ⟨done, ?_, ?_⟩, rfl⟩
  · cases releases <;> exact refines.low
  · cases releases <;> exact refines.high

end Kfree

end Kernull.KmallocRefinement
