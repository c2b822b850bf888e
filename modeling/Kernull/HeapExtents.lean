import Kernull.HeapRuns

/-!
# Heaps of disjoint blocks

Blocks whose extents share no byte, lie in the heap and have room for a list
pointer.  Such blocks are placed as `Kernull.AbstractHeap` demands, with
nothing to spare for an overhang, so that the operations of the allocator
refine those on lists of blocks.  The order of the free list is arbitrary.
-/

namespace Kernull.HeapExtents

open Kernull.Mm
open Kernull.Kmalloc
open Kernull.AbstractHeap
open Kernull.KmallocRefinement
open Kernull.HeapRuns
open Kernull.Library.BlockArena
open Kernull.Library.LinkedList

/-- The extents of two blocks share no byte. -/
def DisjointExtents (left right : Block) : Prop :=
  blockFormat.finish left ≤ right.address ∨
    blockFormat.finish right ≤ left.address

/-- Disjoint blocks of at least eight bytes between two addresses. -/
structure DisjointBlocks (low high : Nat) (blocks : List Block) : Prop where
  disjoint : blocks.Pairwise DisjointExtents
  large : ∀ block ∈ blocks, 8 ≤ block.size
  inside : ∀ block ∈ blocks,
    low ≤ block.address ∧ blockFormat.finish block ≤ high

/--
The bounds of a heap: `kheap_allocator_init` asserts that the heap starts at a
page boundary in the kernel's half, and `sbrk` moves its end by whole pages.
-/
structure HeapBounds (heap : Heap) : Prop where
  started : 0 < heap.heapStart
  aligned : heap.heapEnd % pageSize = 0
  pointer : heap.heapEnd < 2 ^ 64

/-- A heap whose free list consists of the given disjoint blocks. -/
structure FreeListOf (heap : Heap) (free : List Block) : Prop where
  bounds : HeapBounds heap
  read : FreeBlocks heap free
  blocks : DisjointBlocks heap.heapStart heap.heapEnd free

/-! ## Disjoint blocks are well placed -/

/-- The layout of blocks that may not overhang. -/
def tightFormat : Format where
  header := 8
  record := 16
  overhang := 0
  header_pos := blockFormat.header_pos
  overhang_lt_record := by decide

theorem tightFormat_absorb (block : Block) (blocks : List Block) :
    tightFormat.absorb block blocks = blockFormat.absorb block blocks := by
  cases blocks <;> rfl

section Placement

variable {low high : Nat} {blocks others : List Block}

/-- Disjoint blocks are placed tightly, and conversely. -/
theorem disjointBlocks_iff :
    DisjointBlocks low high blocks ↔
      WellPlaced tightFormat low high blocks ∧
        ∀ block ∈ blocks, 8 ≤ block.size := by
  constructor
  · intro disjoint
    refine ⟨⟨?_, ?_, ?_⟩, disjoint.large⟩
    · refine disjoint.disjoint.imp_of_mem ?_
      intro left right leftMember rightMember apart
      have leftLarge := disjoint.large left leftMember
      have rightLarge := disjoint.large right rightMember
      simp only [DisjointExtents, blockFormat_finish] at apart
      simp only [Format.Apart, Format.Precedes, Format.finish, tightFormat]
      omega
    · intro block member
      exact (disjoint.inside block member).1
    · intro block member
      have large := disjoint.large block member
      have below := (disjoint.inside block member).2
      rw [blockFormat_finish] at below
      simp only [Format.finish, tightFormat]
      omega
  · rintro ⟨placed, large⟩
    refine ⟨placed.apart.imp ?_, large, ?_⟩
    · intro left right apart
      simp only [Format.Apart, Format.Precedes, Format.finish,
        tightFormat] at apart
      simp only [DisjointExtents, blockFormat_finish]
      omega
    · intro block member
      have below := (placed.below block member).2
      simp only [Format.finish, tightFormat] at below
      rw [blockFormat_finish]
      exact ⟨placed.above block member, by omega⟩

theorem DisjointBlocks.perm
    (disjoint : DisjointBlocks low high blocks)
    (permuted : blocks.Perm others) :
    DisjointBlocks low high others := by
  obtain ⟨placed, large⟩ := disjointBlocks_iff.mp disjoint
  exact disjointBlocks_iff.mpr ⟨placed.perm permuted, fun block member =>
    large block (permuted.mem_iff.mpr member)⟩

/-- Blocks without overhang are placed as the allocator needs them. -/
theorem DisjointBlocks.placed
    (disjoint : DisjointBlocks low high blocks) :
    WellPlaced blockFormat low high blocks := by
  obtain ⟨⟨apart, above, below⟩, _⟩ := disjointBlocks_iff.mp disjoint
  refine ⟨apart.imp ?_, above, ?_⟩
  · intro left right tight
    simp only [Format.Apart, Format.Precedes, Format.finish,
      tightFormat] at tight
    rw [blockFormat_apart]
    omega
  · intro block member
    have bounds := below block member
    simp only [Format.finish, tightFormat] at bounds
    simp only [blockFormat_record, blockFormat_finish, blockFormat_overhang]
    omega

/-- A block that is merged with the head of a list stays disjoint. -/
theorem DisjointBlocks.absorb
    {block : Block}
    (disjoint : DisjointBlocks low high (block :: (blocks ++ others))) :
    DisjointBlocks low high (blockFormat.absorb block blocks ++ others) := by
  obtain ⟨placed, large⟩ := disjointBlocks_iff.mp disjoint
  refine disjointBlocks_iff.mpr ⟨?_, ?_⟩
  · rw [← tightFormat_absorb]
    exact placed.absorb
  · intro other member
    cases blocks with
    | nil => exact large other member
    | cons next rest =>
        rw [Format.absorb] at member
        split_ifs at member with touching
        · rcases List.mem_cons.mp member with rfl | member
          · have first := large block List.mem_cons_self
            simp only [blockFormat_merged]
            omega
          · exact large other (by
              simp only [List.cons_append, List.mem_cons] at member ⊢
              tauto)
        · exact large other member

end Placement

/-! ## Refinement of the heap -/

section Refinement

variable {heap : Heap} {free live : List Block}

/-- The state of a heap with disjoint free and live blocks. -/
theorem wellFormed_of_disjoint
    (bounds : HeapBounds heap) (nonempty : free ++ live ≠ [])
    (disjoint : DisjointBlocks heap.heapStart heap.heapEnd (free ++ live)) :
    State.WellFormed ⟨heap.heapStart, heap.heapEnd, free, live⟩ := by
  obtain ⟨block, member⟩ := List.exists_mem_of_ne_nil _ nonempty
  have inside := disjoint.inside block member
  have aligned := bounds.aligned
  have pointer := bounds.pointer
  rw [blockFormat_finish] at inside
  rw [pageSize] at aligned
  refine ⟨disjoint.placed, ?_, bounds.started, ?_⟩
  · show heap.heapStart ≤ heap.heapEnd
    omega
  · show heap.heapEnd + 8 < 2 ^ 64
    omega

theorem refines_of_freeBlocks
    (read : FreeBlocks heap free)
    (stored : ∀ block ∈ live,
      blockSize heap.memory block.address = block.size) :
    Refines heap ⟨heap.heapStart, heap.heapEnd, free, live⟩ := by
  refine ⟨⟨read.chain, fun block member => ?_⟩, rfl, rfl⟩
  rcases List.mem_append.mp member with inFree | inLive
  · exact read.sizes block inFree
  · exact stored block inLive

/-- What memory represents can be read back as the free blocks. -/
theorem freeBlocks_of_represents
    (represents : Represents heap.memory heap.freeBlockList free live) :
    FreeBlocks heap free :=
  ⟨represents.chain, fun block member =>
    represents.sizes block (List.mem_append_left _ member)⟩

end Refinement

end Kernull.HeapExtents
