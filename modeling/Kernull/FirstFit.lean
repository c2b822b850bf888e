import Kernull.HeapExtents
import Kernull.SplitBlock

/-!
# First fit

`kmalloc` treats the head of the free list and the blocks behind it in
different code.  In both places it takes the first block that is large enough,
and leaves the other free blocks as they are and where they are, provided that
splitting the block does not damage the list pointer of the remainder: the
rest of the list hangs on that pointer.
-/

namespace Kernull.FirstFit

open Kernull.Mm
open Kernull.Kmalloc
open Kernull.AbstractHeap
open Kernull.KmallocRefinement
open Kernull.HeapRuns
open Kernull.HeapExtents
open Kernull.SplitBlock
open Kernull.Library.ByteMemory
open Kernull.Library.BlockArena
open Kernull.Library.LinkedList

/-- The state of a heap with the given free blocks, without its live blocks. -/
def freeState (heap : Heap) (free : List Block) : State :=
  ⟨heap.heapStart, heap.heapEnd, free, []⟩

/-- What stays in the free list of a block that served a request. -/
def Leaves (block : Block) (size : Nat) (rest : List Block) : Prop :=
  rest = [] ∨ ∃ stored, rest = [⟨block.address + 8 + size, stored⟩]

/--
A request is served by the first block that fits, without moving the end of
the heap, or by a new region when the blocks are all too small.  The other
free blocks keep address, size and order.
-/
structure ServesFirstFit (heap : Heap) (free : List Block) (size : Nat) :
    Prop where
  fit : ∀ before block after,
    (freeState heap free).FirstFit size before block after →
      ∃ next rest, kmalloc size heap = some (block.address + 8, next) ∧
        next.heapEnd = heap.heapEnd ∧ Leaves block size rest ∧
        FreeBlocks next (before ++ rest ++ after)
  unfit : free ≠ [] → (∀ other ∈ free, other.size < size) →
    ∃ next, kmalloc size heap = some (heap.heapEnd + 8, next) ∧
      next.heapEnd = (heap.heapEnd + pageRound (size + 8)) % 2 ^ 64 ∧
      FreeBlocks next free

/-! ## Parts of blocks -/

/-- A part of a block that holds a record can stand in for the block. -/
theorem placed_within
    {low high : Nat} {block part : Block} {blocks : List Block}
    (disjoint : DisjointBlocks low high (block :: blocks))
    (starts : block.address ≤ part.address)
    (record : part.address + 16 ≤ blockFormat.finish block)
    (ends : blockFormat.finish part ≤ blockFormat.finish block) :
    WellPlaced blockFormat low high (part :: blocks) := by
  obtain ⟨_, _, others⟩ := wellPlaced_cons.mp disjoint.placed
  have inside := disjoint.inside block List.mem_cons_self
  have apart := (List.pairwise_cons.mp disjoint.disjoint).1
  refine wellPlaced_cons.mpr ⟨?_, fun other member => ?_, others⟩
  · simp only [blockFormat_record, blockFormat_overhang]
    omega
  · have large := disjoint.large other (List.mem_cons_of_mem _ member)
    have away := apart other member
    simp only [DisjointExtents, blockFormat_finish] at away record ends
    rw [blockFormat_apart]
    omega

/-- Memories that agree outside of an interval have the same headers there. -/
theorem headers_of_agree
    {left right : Memory} {start finish other : Nat}
    (agree : ∀ byte, byte < start ∨ finish ≤ byte →
      left byte = right byte)
    (outside : other + 16 ≤ start ∨ finish ≤ other) :
    blockSize left other = blockSize right other ∧
      blockNext left other = blockNext right other := by
  constructor
  · apply readBytes_congr
    intro offset bound
    exact agree _ (by omega)
  · apply readBytes_congr
    intro offset bound
    exact agree _ (by omega)

/-- The list goes on behind its last block as that block's pointer says. -/
theorem chain_behind
    {next : Nat → Nat} {head : Nat} {front : List Nat} {last : Nat}
    {rest : List Nat}
    (walk : Chain next null head (front ++ [last] ++ rest)) :
    Chain next null (next last) rest := by
  rw [List.append_assoc, List.singleton_append] at walk
  exact (chain_append_cons.mp walk).2.2

section Requests

variable {heap : Heap} {free before after : List Block} {block : Block}
  {size : Nat}

/-! ## The state behind the free list -/

theorem FreeListOf.wellFormed
    (state : FreeListOf heap free) (nonempty : free ≠ []) :
    (freeState heap free).WellFormed :=
  wellFormed_of_disjoint state.bounds (by simpa using nonempty)
    (by simpa using state.blocks)

theorem FreeListOf.refines (state : FreeListOf heap free) :
    Refines heap (freeState heap free) :=
  refines_of_freeBlocks state.read (by simp)

/-- A request that is accepted goes straight to a list with blocks. -/
theorem kmalloc_of_nonempty
    (state : FreeListOf heap free) (nonempty : free ≠ [])
    (accepted : size ≤ heap.totalMemory) :
    kmalloc size heap = firstFitAllocation size heap := by
  have headNull := state.read.chain.head_eq_null_iff
  rw [List.map_eq_nil_iff] at headNull
  rw [kmalloc, if_neg (Nat.not_lt.mpr accepted), openHeap,
    if_neg (mt headNull.mp nonempty)]

/-! ## No block fits -/

theorem serves_unfit
    (state : FreeListOf heap free) (accepted : size ≤ heap.totalMemory)
    (small : size + 8 + 4095 < 2 ^ 64)
    (nonempty : free ≠ []) (unfit : ∀ other ∈ free, other.size < size) :
    ∃ next, kmalloc size heap = some (heap.heapEnd + 8, next) ∧
      next.heapEnd = (heap.heapEnd + pageRound (size + 8)) % 2 ^ 64 ∧
      FreeBlocks next free := by
  have formed := FreeListOf.wellFormed state nonempty
  have refines := FreeListOf.refines state
  have extended := firstFitAllocation_unfit refines formed nonempty unfit
    small
  have represents := represents_extended refines formed
    (show size < 2 ^ 64 by omega)
  exact ⟨_, (kmalloc_of_nonempty state nonempty accepted).trans extended,
    rfl, freeBlocks_of_represents represents⟩

/-! ## A block fits -/

theorem nonempty_of_firstFit
    (first : (freeState heap free).FirstFit size before block after) :
    free ≠ [] := by
  have split : free = before ++ block :: after := first.1
  rw [split]
  simp

theorem disjoint_of_firstFit
    (state : FreeListOf heap free)
    (first : (freeState heap free).FirstFit size before block after) :
    DisjointBlocks heap.heapStart heap.heapEnd
      (block :: (before ++ after)) := by
  have split : free = before ++ block :: after := first.1
  refine state.blocks.perm ?_
  rw [split]
  exact List.perm_middle

/-- The block that fits has its size in memory. -/
theorem stored_of_firstFit
    (state : FreeListOf heap free)
    (first : (freeState heap free).FirstFit size before block after) :
    blockSize heap.memory block.address = block.size := by
  have split : free = before ++ block :: after := first.1
  apply state.read.sizes block
  rw [split]
  exact List.mem_append_right before List.mem_cons_self

/-- The block that fits ends below the end of the address space. -/
theorem finish_of_firstFit
    (state : FreeListOf heap free)
    (first : (freeState heap free).FirstFit size before block after) :
    block.address + 8 + block.size < 2 ^ 64 := by
  have inside := (disjoint_of_firstFit state first).inside block
    List.mem_cons_self
  have pointer := state.bounds.pointer
  rw [blockFormat_finish] at inside
  exact Nat.lt_of_le_of_lt inside.2 pointer

/-- A block that is not large enough to be cut is taken as a whole. -/
theorem serves_whole
    (state : FreeListOf heap free) (accepted : size ≤ heap.totalMemory)
    (first : (freeState heap free).FirstFit size before block after)
    (whole : block.size ≤ size + 16) :
    ∃ next, kmalloc size heap = some (block.address + 8, next) ∧
      next.heapEnd = heap.heapEnd ∧ FreeBlocks next (before ++ after) := by
  have nonempty := nonempty_of_firstFit first
  have formed := FreeListOf.wellFormed state nonempty
  have refines := FreeListOf.refines state
  have placed := formed.placed.perm
    (first.perm_blocks.trans (whole_perm before after [] block))
  obtain ⟨memory, rest, cut, represents⟩ := represents_whole refines first
    (by omega) ⟨placed, formed.ordered, formed.positive, formed.bounded⟩
  have found := firstFitAllocation_found refines formed first cut
  exact ⟨_, (kmalloc_of_nonempty state nonempty accepted).trans found,
    rfl, freeBlocks_of_represents represents⟩

/-- A block that is large enough is cut at the request. -/
theorem kmalloc_carved
    (state : FreeListOf heap free) (accepted : size ≤ heap.totalMemory)
    (first : (freeState heap free).FirstFit size before block after)
    (large : size + 16 < block.size) :
    ∃ result, Cut heap.memory block.address size result ∧
      kmalloc size heap = some (block.address + 8,
        { heap with
          memory := (linkRest result heap.freeBlockList before
            (block.address + 8 + size)).1
          freeBlockList := (linkRest result heap.freeBlockList before
            (block.address + 8 + size)).2 }) := by
  have nonempty := nonempty_of_firstFit first
  have formed := FreeListOf.wellFormed state nonempty
  have refines := FreeListOf.refines state
  have stored := stored_of_firstFit state first
  obtain ⟨result, same, cut⟩ := splitBlock_cut
    (show 16 < blockSize heap.memory block.address - size by omega)
    (stored.symm ▸ finish_of_firstFit state first)
  have found := firstFitAllocation_found refines formed first same
  refine ⟨result, cut, ?_⟩
  rw [kmalloc_of_nonempty state nonempty accepted]
  exact found

/-- Cutting a block leaves the headers of the other free blocks alone. -/
theorem headers_of_cut
    {result : Memory}
    (state : FreeListOf heap free)
    (first : (freeState heap free).FirstFit size before block after)
    (cut : Cut heap.memory block.address size result) :
    ∀ other ∈ before ++ after,
      blockSize result other.address = other.size ∧
        blockNext result other.address =
          blockNext heap.memory other.address := by
  intro other member
  have disjoint := disjoint_of_firstFit state first
  have apart := (List.pairwise_cons.mp disjoint.disjoint).1 other member
  have large := disjoint.large other (List.mem_cons_of_mem _ member)
  have split : free = before ++ block :: after := first.1
  have stored := stored_of_firstFit state first
  have otherStored := state.read.sizes other (by
    rw [split]
    simp only [List.mem_append, List.mem_cons] at member ⊢
    exact member.imp id Or.inr)
  simp only [DisjointExtents, blockFormat_finish] at apart
  have same := headers_of_agree cut.outside
    (show other.address + 16 ≤ block.address ∨
      block.address + 8 + blockSize heap.memory block.address ≤
        other.address by omega)
  exact ⟨same.1.trans otherStored, same.2⟩

/-- The pointer of the chosen block leads to the blocks behind it. -/
theorem chain_after
    (state : FreeListOf heap free)
    (first : (freeState heap free).FirstFit size before block after) :
    Chain (blockNext heap.memory) null
      (blockNext heap.memory block.address)
      (after.map Block.address) := by
  have split : free = before ++ block :: after := first.1
  have walk := state.read.chain
  rw [split, List.map_append, List.map_cons, chain_append_cons] at walk
  exact walk.2.2

/-- With its list pointer intact the remainder takes the block's place. -/
theorem serves_carved
    (state : FreeListOf heap free) (accepted : size ≤ heap.totalMemory)
    (first : (freeState heap free).FirstFit size before block after)
    (large : size + 16 < block.size)
    (link : remainderNext block.size size
      (blockNext heap.memory block.address) =
        blockNext heap.memory block.address) :
    ∃ next stored, kmalloc size heap = some (block.address + 8, next) ∧
      next.heapEnd = heap.heapEnd ∧
      FreeBlocks next
        (before ++ [⟨block.address + 8 + size, stored⟩] ++ after) := by
  obtain ⟨result, cut, served⟩ := kmalloc_carved state accepted first large
  have disjoint := disjoint_of_firstFit state first
  have finish := finish_of_firstFit state first
  have stored := stored_of_firstFit state first
  have shorter := remainderSize_le block.size size
  have others := headers_of_cut state first cut
  have represents := (FreeListOf.refines state).represents
  have atRemainder := cut.link
  have remainderStored := cut.back
  rw [stored] at atRemainder remainderStored
  let remainder : Block :=
    ⟨block.address + 8 + size, remainderSize block.size size⟩
  have placed : WellPlaced blockFormat heap.heapStart heap.heapEnd
      (remainder :: (before ++ after)) := by
    apply placed_within disjoint
    · show block.address ≤ block.address + 8 + size
      omega
    · show block.address + 8 + size + 16 ≤ block.address + 8 + block.size
      omega
    · show block.address + 8 + size + 8 + remainderSize block.size size ≤
        block.address + 8 + block.size
      omega
  have readPlaced : WellPlaced blockFormat heap.heapStart heap.heapEnd
      (before ++ ([remainder] ++ after) ++ []) := by
    rw [List.append_nil]
    exact placed.perm List.perm_middle.symm
  have walk : Chain (blockNext result) null remainder.address
      (([remainder] ++ after).map Block.address) := by
    refine ⟨rfl, ?_, ?_⟩
    · show block.address + 8 + size ≠ 0
      omega
    · rw [show blockNext result remainder.address =
        blockNext heap.memory block.address from atRemainder.trans link]
      refine (chain_after state first).congr fun node member => ?_
      obtain ⟨other, otherMember, rfl⟩ := List.mem_map.mp member
      exact (others other (List.mem_append_right _ otherMember)).2
  have linked := represents_linkRest [remainder] (first.1 ▸ represents)
    readPlaced (show remainder.address < 2 ^ 64 by
      show block.address + 8 + size < 2 ^ 64
      omega)
    walk (fun other member => (others other (by simp [member])).2)
    (fun other member => by
      rw [List.append_nil] at member
      rcases List.mem_cons.mp (List.perm_middle.mem_iff.mp member) with
        rfl | member
      · exact remainderStored
      · exact (others other member).1)
  refine ⟨_, remainderSize block.size size, served, rfl, ?_⟩
  rw [List.append_assoc]
  exact freeBlocks_of_represents linked

/-- A list whose front is linked to a point arrives there. -/
theorem linkRest_arrives
    {result : Memory} {head point : Nat} {tail : List Block}
    (small : point < 2 ^ 64)
    (apart : ∀ other ∈ before, HeadersApart other.address point)
    (walk : Chain (blockNext (linkRest result head before point).1) null
      (linkRest result head before point).2
      ((before ++ tail).map Block.address)) :
    Chain (blockNext (linkRest result head before point).1) null point
        (tail.map Block.address) ∧
      blockNext (linkRest result head before point).1 point =
        blockNext result point := by
  rcases List.eq_nil_or_concat before with rfl | ⟨front, last, rfl⟩
  · rw [linkRest_nil] at walk ⊢
    exact ⟨walk, rfl⟩
  · rw [List.concat_eq_append] at *
    have linked : linkRest result head (front ++ [last]) point =
        (setNext result last.address point, head) := by
      simp [linkRest]
    rw [linked] at walk ⊢
    rw [List.map_append, List.map_append, List.map_cons,
      List.map_nil] at walk
    have behind := chain_behind walk
    rw [blockNext_setNext_same small] at behind
    exact ⟨behind, blockNext_setNext_of_apart (apart last (by simp))⟩

/--
If the remainder takes the block's place in the list that is left, its list
pointer is intact.
-/
theorem remainderNext_of_serves
    {next : Heap} {rest : List Block}
    (state : FreeListOf heap free) (accepted : size ≤ heap.totalMemory)
    (first : (freeState heap free).FirstFit size before block after)
    (large : size + 16 < block.size)
    (served : kmalloc size heap = some (block.address + 8, next))
    (leaves : Leaves block size rest)
    (read : FreeBlocks next (before ++ rest ++ after)) :
    remainderNext block.size size (blockNext heap.memory block.address) =
      blockNext heap.memory block.address := by
  obtain ⟨result, cut, carved⟩ := kmalloc_carved state accepted first large
  rw [carved, Option.some.injEq, Prod.mk.injEq] at served
  obtain ⟨_, rfl⟩ := served
  have disjoint := disjoint_of_firstFit state first
  have apart := (List.pairwise_cons.mp disjoint.disjoint).1
  have finish := finish_of_firstFit state first
  have atRemainder := cut.link
  rw [stored_of_firstFit state first] at atRemainder
  have remainderSmall : block.address + 8 + size < 2 ^ 64 := by omega
  have headers : ∀ other ∈ before,
      HeadersApart other.address (block.address + 8 + size) := by
    intro other member
    have away := apart other (List.mem_append_left _ member)
    have otherLarge := disjoint.large other (by simp [member])
    simp only [DisjointExtents, blockFormat_finish] at away
    unfold HeadersApart
    omega
  have walk := read.chain
  rw [List.append_assoc] at walk
  obtain ⟨arrived, unchanged⟩ := linkRest_arrives remainderSmall headers walk
  have old := chain_after state first
  rcases leaves with rfl | ⟨left, rfl⟩
  · -- without the remainder the list would go on inside of the block
    exfalso
    cases after with
    | nil =>
        have atEnd : block.address + 8 + size = 0 := arrived
        omega
    | cons other others =>
        have atOther : block.address + 8 + size = other.address := arrived.1
        have away := apart other (by simp)
        have otherLarge := disjoint.large other (by simp)
        simp only [DisjointExtents, blockFormat_finish] at away
        omega
  · have onwards : Chain _ null _ (after.map Block.address) :=
      arrived.2.2
    rw [unchanged, atRemainder] at onwards
    cases after with
    | nil => exact onwards.trans (Eq.symm old)
    | cons other others => exact onwards.1.trans old.1.symm

/--
A request is served from the first block that fits exactly when the block is
not cut, or keeps the list pointer of its remainder.
-/
theorem served_iff
    (state : FreeListOf heap free) (accepted : size ≤ heap.totalMemory)
    (first : (freeState heap free).FirstFit size before block after) :
    (∃ next rest, kmalloc size heap = some (block.address + 8, next) ∧
        next.heapEnd = heap.heapEnd ∧ Leaves block size rest ∧
        FreeBlocks next (before ++ rest ++ after)) ↔
      8 ≤ size ∨ block.size ≤ size + 16 ∨
        blockNext heap.memory block.address / 256 ^ size =
          (block.size - size - 8) % 256 ^ (8 - size) := by
  by_cases whole : block.size ≤ size + 16
  · obtain ⟨next, served, sameEnd, read⟩ :=
      serves_whole state accepted first whole
    refine iff_of_true ⟨next, [], served, sameEnd, Or.inl rfl, ?_⟩
      (Or.inr (Or.inl whole))
    rw [List.append_nil]
    exact read
  · have large : size + 16 < block.size := Nat.lt_of_not_le whole
    rw [or_iff_right whole, ← remainderNext_eq_iff]
    have kept : 8 ≤ size →
        remainderNext block.size size
            (blockNext heap.memory block.address) =
          blockNext heap.memory block.address := fun request =>
      remainderNext_of_request request (blockNext_lt _ _)
    rw [or_iff_right_of_imp kept]
    constructor
    · rintro ⟨next, rest, served, _, leaves, read⟩
      exact remainderNext_of_serves state accepted first large served leaves
        read
    · intro link
      obtain ⟨next, stored, served, sameEnd, read⟩ :=
        serves_carved state accepted first large link
      exact ⟨next, _, served, sameEnd, Or.inr ⟨stored, rfl⟩, read⟩

end Requests

/--
First fit serves a request as it should exactly when the first block that
fits is not cut into a damaged remainder: the request has eight bytes or more,
the block is taken as a whole, or the bytes of its list pointer that the size
of the remainder overwrites hold these very values.
-/
theorem serves_first_fit_iff
    {heap : Heap} {free : List Block} {size : Nat}
    (state : FreeListOf heap free) (accepted : size ≤ heap.totalMemory)
    (rounds : size + 8 + 4095 < 2 ^ 64) :
    ServesFirstFit heap free size ↔
      ∀ before block after,
        (freeState heap free).FirstFit size before block after →
          8 ≤ size ∨ block.size ≤ size + 16 ∨
            blockNext heap.memory block.address / 256 ^ size =
              (block.size - size - 8) % 256 ^ (8 - size) := by
  constructor
  · intro serves before block after first
    exact (served_iff state accepted first).mp
      (serves.fit before block after first)
  · intro intact
    constructor
    · intro before block after first
      exact (served_iff state accepted first).mpr
        (intact before block after first)
    · exact serves_unfit state accepted rounds

/-- A heap of two pages with free blocks of 1000 and 4088 bytes. -/
def twoBlocks : Heap where
  memory :=
    setNext
      (setSize
        (setNext (setSize (fun _ => 0) 0xFFFFFF0000000000 1000)
          0xFFFFFF0000000000 0xFFFFFF0000001000)
        0xFFFFFF0000001000 4088)
      0xFFFFFF0000001000 null
  freeBlockList := 0xFFFFFF0000000000
  heapStart := 0xFFFFFF0000000000
  heapEnd := 0xFFFFFF0000002000
  totalMemory := 0x8000000

theorem twoBlocks_freeList :
    FreeListOf twoBlocks
      [⟨0xFFFFFF0000000000, 1000⟩, ⟨0xFFFFFF0000001000, 4088⟩] := by
  refine ⟨⟨by decide, by decide, by decide⟩, ⟨?_, by decide⟩,
    ⟨?_, by decide, by decide⟩⟩
  · exact ⟨by decide, by decide, by decide, by decide,
      show blockNext twoBlocks.memory 0xFFFFFF0000001000 = null by decide⟩
  · exact List.pairwise_pair.mpr (Or.inl (by decide))

theorem two_blocks_serve_first_fit :
    ServesFirstFit twoBlocks
      [⟨0xFFFFFF0000000000, 1000⟩, ⟨0xFFFFFF0000001000, 4088⟩] 2000 :=
  (serves_first_fit_iff twoBlocks_freeList (by decide) (by decide)).mpr
    fun _ _ _ _ => Or.inl (by decide)

/-- A request of no bytes loses the block behind the one it is served from. -/
theorem empty_request_loses_block :
    ¬ ∀ (heap : Heap) (free : List Block) (size : Nat),
      FreeListOf heap free → size ≤ heap.totalMemory →
      size + 8 + 4095 < 2 ^ 64 → ServesFirstFit heap free size := by
  intro always
  have serves := always twoBlocks _ 0 twoBlocks_freeList (by decide)
    (by decide)
  have first : (freeState twoBlocks
      [⟨0xFFFFFF0000000000, 1000⟩, ⟨0xFFFFFF0000001000, 4088⟩]).FirstFit 0
        [] ⟨0xFFFFFF0000000000, 1000⟩ [⟨0xFFFFFF0000001000, 4088⟩] :=
    ⟨rfl, by simp, by decide⟩
  have intact := (served_iff twoBlocks_freeList (by decide) first).mp
    (serves.fit _ _ _ first)
  exact absurd intact (by decide)

end Kernull.FirstFit
