import Kernull.HeapExtents

/-!
# `kfree` conserves memory

Whatever the order of the free list, `kfree` adds the bytes of the freed block
to those of the list: none is dropped, none belongs to two blocks, and bytes
that belong to neither the list nor the freed block are not written.  `kfree`
looks at neither end of the heap, so the blocks may lie anywhere in the address
space, behind `heap_end` as well.
-/

namespace Kernull.KfreeConservation

open Kernull.Mm
open Kernull.Kmalloc
open Kernull.AbstractHeap
open Kernull.KmallocRefinement
open Kernull.HeapRuns
open Kernull.HeapExtents
open Kernull.Library.ByteMemory
open Kernull.Library.BlockArena
open Kernull.Library.LinkedList

/--
A block that is in use beside the free blocks; none of them is at the null
pointer, and all end in the address space.
-/
structure LiveBeside (heap : Heap) (free : List Block) (block : Block) :
    Prop where
  read : FreeBlocks heap free
  stored : blockSize heap.memory block.address = block.size
  blocks : DisjointBlocks 1 (2 ^ 64) (block :: free)

/-! ## Where `kfree` writes -/

/-- Two memories agree outside of the headers at the given addresses. -/
def SameOutside (addresses : List Nat) (memory result : Memory) : Prop :=
  ∀ byte, (∀ address ∈ addresses, byte < address ∨ address + 16 ≤ byte) →
    result byte = memory byte

section Writes

variable {addresses : List Nat} {memory result : Memory}
  {block next value : Nat}

theorem SameOutside.refl (addresses : List Nat) (memory : Memory) :
    SameOutside addresses memory memory :=
  fun _ _ => rfl

theorem SameOutside.setSize
    (same : SameOutside addresses memory result)
    (member : block ∈ addresses) :
    SameOutside addresses memory (setSize result block value) := by
  intro byte outside
  have away := outside block member
  rw [Kmalloc.setSize, writeBytes_outside _ _ (by omega)]
  exact same byte outside

theorem SameOutside.setNext
    (same : SameOutside addresses memory result)
    (member : block ∈ addresses) :
    SameOutside addresses memory (setNext result block value) := by
  intro byte outside
  have away := outside block member
  rw [Kmalloc.setNext, writeBytes_outside _ _ (by omega)]
  exact same byte outside

/-- Coalescing writes the headers of the two blocks. -/
theorem SameOutside.coalesce
    (same : SameOutside addresses memory result)
    (condition : Prop) [Decidable condition]
    (member : block ∈ addresses) (nextMember : condition → next ∈ addresses) :
    SameOutside addresses memory
      (if condition then coalesceBlocks result block next else result) := by
  split_ifs with joins
  · have second := nextMember joins
    rw [coalesceBlocks]
    exact (((same.setSize member).setNext member).setSize second).setNext
      second
  · exact same

end Writes

section Kfree

variable {heap next : Heap} {free : List Block} {block : Block}

/-- `kfree` writes the headers of the freed block and of the list. -/
theorem kfree_sameOutside
    {freed : Nat} (small : freed < 2 ^ 64)
    (walk : Chain (blockNext (setNext heap.memory freed null)) null
      heap.freeBlockList (free.map Block.address))
    (enough : free.length < walkLimit)
    (released : kfree (freed + 8) heap = some next) :
    SameOutside (freed :: free.map Block.address) heap.memory
      next.memory := by
  have cleared : SameOutside (freed :: free.map Block.address) heap.memory
      (setNext heap.memory freed null) :=
    (SameOutside.refl _ _).setNext List.mem_cons_self
  have atFreed : freed ∈ freed :: free.map Block.address :=
    List.mem_cons_self
  rw [kfree, freed_eq small] at released
  cases free with
  | nil =>
      rw [if_pos (chain_nil.mp walk), Option.some.injEq] at released
      subst released
      exact cleared
  | cons head rest =>
      obtain ⟨atHead, nonnull, tail⟩ := walk
      rw [atHead, if_neg nonnull] at released
      have headMember : head.address ∈
          freed :: (head :: rest).map Block.address := by
        simp
      by_cases single : blockNext (setNext heap.memory freed null)
          head.address = null
      · rw [if_pos single, Option.some.injEq] at released
        subst released
        -- whichever of the two blocks comes first
        by_cases order : head.address < freed
        · simp only [order, ↓reduceIte]
          apply SameOutside.coalesce
          · exact cleared.setNext headMember
          · exact headMember
          · intro _
            exact atFreed
        · simp only [order, ↓reduceIte]
          apply SameOutside.coalesce
          · exact cleared.setNext atFreed
          · exact atFreed
          · intro _
            exact headMember
      · rw [if_neg single] at released
        obtain ⟨passed, after, place, split, found, reached, _, _⟩ :=
          findPlace_spec freed rest walkLimit head.address tail
            (by simp only [List.length_cons] at enough; omega)
        rw [found] at released
        simp only [Option.some.injEq] at released
        subst released
        have prevMember : (passed.map Block.address).getLastD head.address ∈
            freed :: (head :: rest).map Block.address := by
          rcases List.eq_nil_or_concat passed with rfl | ⟨front, last, rfl⟩
          · exact headMember
          · rw [split]
            simp
        have placeMember : place ≠ null → place ∈
            freed :: (head :: rest).map Block.address := by
          intro some
          cases after with
          | nil => exact absurd (chain_nil.mp reached) some
          | cons other others =>
              rw [split, reached.1]
              simp
        dsimp only
        refine SameOutside.coalesce ?_ _ prevMember fun _ => atFreed
        refine SameOutside.coalesce ?_ _ atFreed fun joins =>
          placeMember joins.1
        exact (cleared.setNext prevMember).setNext atFreed

/-! ## Conservation -/

/-- A release keeps the blocks of the free list disjoint. -/
theorem disjoint_of_releases
    {state result : State} {earlier later : List Block} {low high : Nat}
    (releases : Releases state block earlier later result)
    (disjoint : DisjointBlocks low high (block :: state.free)) :
    DisjointBlocks low high result.free := by
  cases releases with
  | front short above =>
      rw [← List.append_nil (blockFormat.absorb block state.free)]
      apply DisjointBlocks.absorb
      rw [List.append_nil]
      exact disjoint
  | behind before prev after split passed reached single =>
      rw [split] at disjoint
      have byBlock : DisjointBlocks low high
          (block :: (after ++ (prev :: before))) := by
        refine disjoint.perm (List.Perm.cons _ ?_)
        grind
      have byPrev : DisjointBlocks low high
          (prev :: (blockFormat.absorb block after ++ before)) := by
        refine byBlock.absorb.perm ?_
        exact List.perm_middle
      exact byPrev.absorb.perm List.perm_append_comm

/-- Disjoint blocks are placed in the address space. -/
theorem addressable_of_disjoint {blocks : List Block}
    (disjoint : DisjointBlocks 1 (2 ^ 64) blocks) : Addressable blocks :=
  ⟨disjoint.placed, fun block member => (disjoint.inside block member).2⟩

/-- The blocks of the list and the block in use are in memory. -/
theorem LiveBeside.represents (live : LiveBeside heap free block) :
    Represents heap.memory heap.freeBlockList free [block] := by
  refine ⟨live.read.chain, fun other member => ?_⟩
  rcases List.mem_append.mp member with inFree | inLive
  · exact live.read.sizes other inFree
  · rw [List.mem_singleton.mp inLive]
    exact live.stored

/-- Headers lie in the extents of their blocks. -/
theorem sameOutside_of_extents
    {low high : Nat} {blocks : List Block} {memory result : Memory}
    (disjoint : DisjointBlocks low high blocks)
    (same : SameOutside (blocks.map Block.address) memory result)
    {byte : Nat} (outside : ¬ blockFormat.Covers blocks byte) :
    result byte = memory byte := by
  apply same byte
  intro address member
  obtain ⟨other, otherMember, rfl⟩ := List.mem_map.mp member
  have large := disjoint.large other otherMember
  by_contra within
  apply outside
  refine ⟨other, otherMember, ?_, ?_⟩
  · omega
  · rw [blockFormat_finish]
    omega

/--
`kfree` terminates with a list of disjoint blocks that covers what the list
and the freed block covered, and writes nothing else.
-/
theorem kfree_conserves_memory
    (live : LiveBeside heap free block) :
    ∃ next blocks, kfree (block.address + 8) heap = some next ∧
      FreeBlocks next blocks ∧
      DisjointBlocks 1 (2 ^ 64) blocks ∧
      (∀ byte, blockFormat.Covers blocks byte ↔
        blockFormat.Covers free byte ∨
          (block.address ≤ byte ∧ byte < blockFormat.finish block)) ∧
      ∀ byte, ¬ blockFormat.Covers (block :: free) byte →
        next.memory byte = heap.memory byte := by
  have addressable := addressable_of_disjoint live.blocks
  have permuted : (free ++ [block]).Perm (block :: free) :=
    List.perm_append_singleton block free
  let state : State := ⟨1, 2 ^ 64, free, [block]⟩
  have split : state.live = [] ++ block :: [] := rfl
  have represents : Represents heap.memory heap.freeBlockList state.free
      state.live := live.represents
  obtain ⟨memory, head, result, released, releases, represents⟩ :=
    kfree_releases represents (addressable.perm permuted.symm) split
  refine ⟨_, result.free, released, ⟨represents.chain, fun other member =>
    represents.sizes other (List.mem_append_left _ member)⟩,
    disjoint_of_releases releases live.blocks, ?_, ?_⟩
  · intro byte
    have bytes : blockFormat.Covers result.blocks byte ↔
        blockFormat.Covers (free ++ [block]) byte :=
      releases.covers_iff split
    have noneLive : result.live = [] := by
      cases releases <;> rfl
    rw [State.blocks, noneLive, List.append_nil, covers_append,
      covers_cons] at bytes
    rw [bytes]
    apply or_congr_right
    apply or_iff_left
    rintro ⟨_, member, _⟩
    simp at member
  · intro byte outside
    have atBlock := (addressable.pointer List.mem_cons_self).2
    have apart := headersApart_of_placed addressable.placed
    have walk : Chain (blockNext (setNext heap.memory block.address null))
        null heap.freeBlockList (free.map Block.address) := by
      refine live.read.chain.congr fun node member => ?_
      obtain ⟨other, otherMember, rfl⟩ := List.mem_map.mp member
      exact blockNext_setNext_of_apart (apart other otherMember)
    have enough := length_lt_walkLimit addressable.tail
    have same := kfree_sameOutside (by omega) walk enough released
    exact sameOutside_of_extents live.blocks same outside

/-- The heap that `kheap_allocator_init` leaves, in zeroed memory. -/
def freshHeap : Heap where
  memory := fun _ => 0
  freeBlockList := null
  heapStart := 0xFFFFFF0000000000
  heapEnd := 0xFFFFFF0000000000
  totalMemory := 0x8000000

/--
The heap behind the first `kmalloc(100)`: the free block ends eight bytes
behind the end of the heap.
-/
def firstAllocation : Heap :=
  ((kmalloc 100 freshHeap).map Prod.snd).getD freshHeap

theorem firstAllocation_live :
    LiveBeside firstAllocation [⟨0xFFFFFF000000006C, 3988⟩]
      ⟨0xFFFFFF0000000000, 100⟩ := by
  refine ⟨⟨?_, by decide +kernel⟩, by decide +kernel, ⟨?_, by decide,
    by decide⟩⟩
  · exact ⟨by decide +kernel, by decide,
      show blockNext firstAllocation.memory 0xFFFFFF000000006C = null
        by decide +kernel⟩
  · exact List.pairwise_pair.mpr (Or.inl (by decide))

/-- `kfree(kmalloc(100))` after the boot. -/
theorem first_allocation_conserved :
    kmalloc 100 freshHeap = some (0xFFFFFF0000000008, firstAllocation) ∧
    ∃ next blocks, kfree 0xFFFFFF0000000008 firstAllocation = some next ∧
      FreeBlocks next blocks ∧
      DisjointBlocks 1 (2 ^ 64) blocks ∧
      (∀ byte, blockFormat.Covers blocks byte ↔
        blockFormat.Covers [⟨0xFFFFFF000000006C, 3988⟩] byte ∨
          (0xFFFFFF0000000000 ≤ byte ∧ byte < 0xFFFFFF000000006C)) ∧
      ∀ byte,
        ¬ blockFormat.Covers
          [⟨0xFFFFFF0000000000, 100⟩, ⟨0xFFFFFF000000006C, 3988⟩] byte →
          next.memory byte = firstAllocation.memory byte := by
  refine ⟨?_, kfree_conserves_memory firstAllocation_live⟩
  have pointer : (kmalloc 100 freshHeap).map Prod.fst =
      some 0xFFFFFF0000000008 := by
    decide +kernel
  obtain ⟨⟨address, heap⟩, allocated, rfl⟩ :=
    Option.map_eq_some_iff.mp pointer
  rw [firstAllocation, allocated]
  rfl

end Kfree

end Kernull.KfreeConservation
