import Kernull.Library.BlockArena
import Kernull.MmConstants

/-!
# The heap as lists of blocks

This module states what the allocator of `Kernull.Kmalloc` does to blocks,
without memory, pointers or machine arithmetic.  A state is the interval of
heap addresses with its free blocks, in list order, and its live blocks.

`Allocates` is first fit with the two ways of using a block that fits and the
extension of the heap when none does.  `Releases` inserts a block into the
free list and merges it with its neighbours in the list.  Both describe what
the code does, not what its comments intend: the block that opens an empty
list is recorded with the size of the whole new region although its header is
part of that region, so blocks may overhang by one header, and a released
block is never placed in front of a list of two or more blocks.
-/

namespace Kernull.AbstractHeap

open Kernull.Mm
open Kernull.Library.BlockArena

/--
Blocks have an eight-byte header, and a free block keeps its list pointer in
the next eight bytes.  A block may overhang by one header.
-/
def blockFormat : Format where
  header := 8
  record := 16
  overhang := 8
  header_pos := by decide
  overhang_lt_record := by decide

@[simp]
theorem blockFormat_header : blockFormat.header = 8 :=
  rfl

@[simp]
theorem blockFormat_record : blockFormat.record = 16 :=
  rfl

@[simp]
theorem blockFormat_overhang : blockFormat.overhang = 8 :=
  rfl

@[simp]
theorem blockFormat_finish (block : Block) :
    blockFormat.finish block = block.address + 8 + block.size :=
  rfl

@[simp]
theorem blockFormat_remainder (block : Block) (size : Nat) :
    blockFormat.remainder block size =
      ⟨block.address + 8 + size, block.size - size - 8⟩ :=
  rfl

@[simp]
theorem blockFormat_merged (left right : Block) :
    blockFormat.merged left right =
      ⟨left.address, left.size + 8 + right.size⟩ :=
  rfl

theorem blockFormat_apart {left right : Block} :
    blockFormat.Apart left right ↔
      (left.address + 16 ≤ right.address ∧
        left.address + 8 + left.size ≤ right.address + 8) ∨
      (right.address + 16 ≤ left.address ∧
        right.address + 8 + right.size ≤ left.address + 8) :=
  Iff.rfl

/-- Heap interval, free list and live blocks. -/
structure State where
  low : Nat
  high : Nat
  free : List Block
  live : List Block

/-- Every block of the heap. -/
def State.blocks (state : State) : List Block :=
  state.free ++ state.live

/-- The blocks lie in the heap and keep clear of each other's records. -/
structure State.WellFormed (state : State) : Prop where
  placed : WellPlaced blockFormat state.low state.high state.blocks
  ordered : state.low ≤ state.high
  positive : 0 < state.low
  bounded : state.high + 8 < 2 ^ 64

/-- Blocks that are placed in the address space, with their ends. -/
structure Addressable (blocks : List Block) : Prop where
  placed : WellPlaced blockFormat 1 (2 ^ 64) blocks
  ends : ∀ block ∈ blocks, blockFormat.finish block ≤ 2 ^ 64

/-- The blocks of the heap are addressable. -/
theorem State.WellFormed.addressable
    {state : State} (formed : state.WellFormed) :
    Addressable state.blocks := by
  have positive := formed.positive
  have bounded := formed.bounded
  refine ⟨⟨formed.placed.apart, fun block member => ?_,
    fun block member => ?_⟩, fun block member => ?_⟩
  · exact Nat.le_trans positive (formed.placed.above block member)
  · have below := formed.placed.below block member
    rw [blockFormat_overhang] at below ⊢
    omega
  · have below := (formed.placed.below block member).2
    rw [blockFormat_overhang] at below
    omega

namespace Addressable

variable {block : Block} {blocks others : List Block}

theorem perm (addressable : Addressable blocks)
    (permuted : blocks.Perm others) : Addressable others :=
  ⟨addressable.placed.perm permuted, fun block member =>
    addressable.ends block (permuted.mem_iff.mpr member)⟩

theorem tail (addressable : Addressable (block :: blocks)) :
    Addressable blocks :=
  ⟨(wellPlaced_cons.mp addressable.placed).2.2,
    (List.forall_mem_cons.mp addressable.ends).2⟩

/-- A block that is merged with the head of a list ends where that ended. -/
theorem absorb (addressable : Addressable (block :: (blocks ++ others))) :
    Addressable (blockFormat.absorb block blocks ++ others) := by
  refine ⟨addressable.placed.absorb, ?_⟩
  cases blocks with
  | nil => exact addressable.ends
  | cons next rest =>
      rw [Format.absorb]
      split_ifs with touching
      · intro other member
        rcases List.mem_cons.mp member with rfl | member
        · have finish := addressable.ends next (by simp)
          simp only [blockFormat_finish] at touching finish
          simp only [blockFormat_merged, blockFormat_finish]
          omega
        · exact addressable.ends other (by
            simp only [List.cons_append, List.mem_cons] at member ⊢
            exact Or.inr (Or.inr member))
      · exact addressable.ends

/-- Addresses of blocks are pointers. -/
theorem pointer (addressable : Addressable blocks)
    (member : block ∈ blocks) :
    0 < block.address ∧ block.address + 16 ≤ 2 ^ 64 :=
  ⟨addressable.placed.above block member,
    (addressable.placed.below block member).1⟩

end Addressable

/-- Every byte of the heap belongs to some block. -/
def State.Covered (state : State) : Prop :=
  ∀ byte, state.low ≤ byte → byte < state.high →
    blockFormat.Covers state.blocks byte

/-! ## Allocation -/

/-- The length of the region obtained for a request. -/
def grown (size : Nat) : Nat :=
  pageRound (size + 8)

/-- The region for a request can be added without leaving the address space. -/
def State.GrowthFits (state : State) (size : Nat) : Prop :=
  size + 8 + 4095 < 2 ^ 64 ∧ state.high + grown size + 8 < 2 ^ 64

/-- The heap after the "No blocks" branch. -/
def State.opened (size : Nat) (state : State) : State :=
  if state.free = [] then
    { state with
      high := state.high + grown size
      free := [⟨state.high, grown size⟩] }
  else state

/-- `block` is the first block of the free list that fits the request. -/
def State.FirstFit (state : State) (size : Nat)
    (before : List Block) (block : Block) (after : List Block) : Prop :=
  state.free = before ++ block :: after ∧
    (∀ other ∈ before, other.size < size) ∧ size ≤ block.size

/-- First fit, or a new region when nothing fits. -/
inductive Allocates (size : Nat) (state : State) : Block → State → Prop where
  | whole (before : List Block) (block : Block) (after : List Block)
      (first : state.FirstFit size before block after)
      (small : block.size - size ≤ 16) :
      Allocates size state block
        { state with
          free := before ++ after
          live := block :: state.live }
  | carved (before : List Block) (block : Block) (after : List Block)
      (first : state.FirstFit size before block after)
      (large : 16 < block.size - size) :
      Allocates size state ⟨block.address, size⟩
        { state with
          free := before ++ blockFormat.remainder block size :: after
          live := ⟨block.address, size⟩ :: state.live }
  | extended (unfit : ∀ other ∈ state.free, other.size < size) :
      Allocates size state ⟨state.high, size⟩
        { state with
          high := state.high + grown size
          live := ⟨state.high, size⟩ :: state.live }

/--
A block that is carved leaves room for the record of the remainder in front
of the next block and of the end of the heap.
-/
def State.CarvesSafely (state : State) (size : Nat) : Prop :=
  ∀ before block after, state.FirstFit size before block after →
    16 < block.size - size →
      blockFormat.RoomFor state.high (before ++ after ++ state.live)
        block size

/-- Some block fits first, or none fits at all. -/
theorem State.firstFit_or_unfit (state : State) (size : Nat) :
    (∃ before block after, state.FirstFit size before block after) ∨
      ∀ other ∈ state.free, other.size < size := by
  unfold State.FirstFit
  induction state.free with
  | nil => exact Or.inr (by simp)
  | cons head rest inductionHypothesis =>
      by_cases fits : size ≤ head.size
      · exact Or.inl ⟨[], head, rest, rfl, by simp, fits⟩
      · have small : head.size < size := by omega
        rcases inductionHypothesis with
          ⟨before, block, after, split, unfit, large⟩ | unfit
        · exact Or.inl ⟨head :: before, block, after, by simp [split],
            List.forall_mem_cons.mpr ⟨small, unfit⟩, large⟩
        · exact Or.inr (List.forall_mem_cons.mpr ⟨small, unfit⟩)

theorem whole_perm
    (before after live : List Block) (block : Block) :
    (block :: (before ++ after ++ live)).Perm
      (before ++ after ++ block :: live) :=
  List.perm_middle.symm

theorem carved_perm
    (before after live : List Block) (remainder block : Block) :
    (remainder :: block :: (before ++ after ++ live)).Perm
      (before ++ remainder :: after ++ block :: live) := by
  rw [List.append_assoc before (remainder :: after), List.cons_append]
  refine List.Perm.trans ?_ List.perm_middle.symm
  rw [← List.append_assoc]
  exact List.Perm.cons remainder (whole_perm before after live block)

theorem State.FirstFit.perm_blocks
    {state : State} {size : Nat} {before after : List Block}
    {block : Block}
    (first : state.FirstFit size before block after) :
    state.blocks.Perm (block :: (before ++ after ++ state.live)) := by
  rw [State.blocks, first.1]
  simp

/-! ### What allocation preserves -/

/-- Opening an empty list keeps the state well formed. -/
theorem State.WellFormed.opened
    {state : State} {size : Nat}
    (formed : state.WellFormed)
    (growth : state.free = [] → state.GrowthFits size) :
    (state.opened size).WellFormed := by
  unfold State.opened
  split_ifs with empty
  · obtain ⟨small, fits⟩ := growth empty
    have region := pageRound_bounds small
    have placed := formed.placed
    rw [State.blocks, empty, List.nil_append] at placed
    have ordered := formed.ordered
    have atLeastPage : 16 ≤ grown size := by
      simp only [grown]
      omega
    refine ⟨?_, ?_, formed.positive, fits⟩
    · exact placed.grow (grown size) ordered
        (show state.high + 16 ≤ state.high + grown size by omega)
        (show state.high + 8 + grown size ≤ state.high + grown size + 8
          by omega)
    · show state.low ≤ state.high + grown size
      omega
  · exact formed

theorem State.Covered.opened
    {state : State} {size : Nat}
    (covered : state.Covered) :
    (state.opened size).Covered := by
  unfold State.opened
  split_ifs with empty
  · intro byte above below
    simp only at above below
    rw [State.blocks, covers_append]
    by_cases old : byte < state.high
    · have byBlock := covered byte above old
      rw [State.blocks, empty, List.nil_append] at byBlock
      exact Or.inr byBlock
    · refine Or.inl ⟨_, List.mem_singleton_self _, ?_⟩
      simp only [blockFormat_finish]
      omega
  · exact covered

/-- Allocation keeps the state well formed. -/
theorem Allocates.wellFormed
    {size : Nat} {state next : State} {block : Block}
    (allocates : Allocates size state block next)
    (formed : state.WellFormed) (request : 8 ≤ size)
    (safe : state.CarvesSafely size)
    (growth : (∀ other ∈ state.free, other.size < size) →
      state.GrowthFits size) :
    next.WellFormed := by
  cases allocates with
  | whole before _ after first small =>
      refine ⟨?_, formed.ordered, formed.positive, formed.bounded⟩
      exact formed.placed.perm
        (first.perm_blocks.trans (whole_perm before after _ block))
  | carved before old after first large =>
      refine ⟨?_, formed.ordered, formed.positive, formed.bounded⟩
      have room := safe before old after first large
      have placed := formed.placed.perm first.perm_blocks
      have cut := placed.carve
        (by rw [blockFormat_record, blockFormat_header]; omega)
        (by rw [blockFormat_header]; omega) room
      exact cut.perm (carved_perm before after _ _ _)
  | extended unfit =>
      obtain ⟨small, fits⟩ := growth unfit
      have region := pageRound_bounds small
      have ordered := formed.ordered
      have longEnough : size + 8 ≤ grown size := region.1
      refine ⟨?_, ?_, formed.positive, fits⟩
      · have grownPlaced := formed.placed.grow size ordered
          (show state.high + 16 ≤ state.high + grown size by omega)
          (show state.high + 8 + size ≤ state.high + grown size + 8
            by omega)
        refine grownPlaced.perm ?_
        simp only [State.blocks]
        exact List.perm_middle.symm
      · show state.low ≤ state.high + grown size
        omega

/--
Allocation keeps every byte covered, provided a new region is no longer than
the request and its header.
-/
theorem Allocates.covered
    {size : Nat} {state next : State} {block : Block}
    (allocates : Allocates size state block next)
    (covered : state.Covered)
    (exact : (∀ other ∈ state.free, other.size < size) →
      grown size = size + 8) :
    next.Covered := by
  intro byte above below
  cases allocates with
  | whole before _ after first small =>
      exact (covered byte above below).perm
        (first.perm_blocks.trans (whole_perm before after _ block))
  | carved before old after first large =>
      have bytes := (covered byte above below).perm first.perm_blocks
      have cut := (covers_carve size
        (by rw [blockFormat_header]; omega)).mpr bytes
      exact cut.perm (carved_perm before after _ _ _)
  | extended unfit =>
      have length := exact unfit
      simp only at above below
      by_cases old : byte < state.high
      · rcases covers_append.mp (covered byte above old) with
          byFree | byLive
        · exact covers_append.mpr (Or.inl byFree)
        · exact covers_append.mpr
            (Or.inr (covers_cons.mpr (Or.inr byLive)))
      · refine covers_append.mpr
          (Or.inr (covers_cons.mpr (Or.inl ?_)))
        simp only [blockFormat_finish]
        omega

/-- Allocation keeps gaps between free blocks. -/
theorem Allocates.gapped
    {size : Nat} {state next : State} {block : Block}
    (allocates : Allocates size state block next)
    (gapped : blockFormat.Gapped state.free) :
    blockFormat.Gapped next.free := by
  cases allocates with
  | whole before _ after first small =>
      rw [first.1] at gapped
      refine gapped.sublist ?_
      exact (List.Sublist.refl before).append (List.sublist_cons_self _ after)
  | carved before old after first large =>
      rw [first.1] at gapped
      obtain ⟨front, back, across⟩ := List.pairwise_append.mp gapped
      obtain ⟨behind, rest⟩ := List.pairwise_cons.mp back
      refine List.pairwise_append.mpr
        ⟨front, List.pairwise_cons.mpr ⟨?_, rest⟩, ?_⟩
      · intro other member
        have gap := behind other member
        simp only [blockFormat_finish, blockFormat_remainder] at *
        omega
      · intro left leftMember right rightMember
        rcases List.mem_cons.mp rightMember with rfl | member
        · have gap := across left leftMember old List.mem_cons_self
          simp only [blockFormat_finish, blockFormat_remainder] at *
          omega
        · exact across left leftMember right
            (List.mem_cons_of_mem old member)
  | extended unfit => exact gapped

theorem State.opened_gapped
    {state : State} {size : Nat}
    (gapped : blockFormat.Gapped state.free) :
    blockFormat.Gapped (state.opened size).free := by
  unfold State.opened
  split_ifs with empty
  · exact List.pairwise_singleton _ _
  · exact gapped

/-! ## Release -/

/--
Insertion of a released block into the free list, followed by merging with
the list neighbours it touches.

`front` is a block placed at the head of a list of at most one block.
`behind` is a block placed behind `prev`: every block passed on the way lies
below the released block, the block reached lies above it, and when the list
has a single block that block lies below as well.
-/
inductive Releases (state : State) (block : Block)
    (earlier later : List Block) : State → Prop where
  | front
      (short : state.free.length ≤ 1)
      (above : ∀ other ∈ state.free, block.address < other.address) :
      Releases state block earlier later
        { state with
          free := blockFormat.absorb block state.free
          live := earlier ++ later }
  | behind (before : List Block) (prev : Block) (after : List Block)
      (split : state.free = before ++ prev :: after)
      (passed : ∀ other ∈ (before ++ [prev]).tail,
        other.address < block.address)
      (reached : ∀ other ∈ after.head?, block.address < other.address)
      (single : state.free.length = 1 → prev.address < block.address) :
      Releases state block earlier later
        { state with
          free := before ++ blockFormat.absorb prev
            (blockFormat.absorb block after)
          live := earlier ++ later }

section Release

variable {state next : State} {block : Block} {earlier later : List Block}

theorem State.perm_of_live
    (live : state.live = earlier ++ block :: later) :
    state.blocks.Perm (block :: (state.free ++ (earlier ++ later))) := by
  rw [State.blocks, live, ← List.append_assoc, ← List.append_assoc]
  exact List.perm_middle

/-- Release keeps the state well formed. -/
theorem Releases.wellFormed
    (releases : Releases state block earlier later next)
    (live : state.live = earlier ++ block :: later)
    (formed : state.WellFormed) :
    next.WellFormed := by
  have placed := formed.placed.perm (State.perm_of_live live)
  cases releases with
  | front short above =>
      exact ⟨placed.absorb, formed.ordered, formed.positive, formed.bounded⟩
  | behind before prev after split passed reached single =>
      refine ⟨?_, formed.ordered, formed.positive, formed.bounded⟩
      rw [split] at placed
      have byBlock : WellPlaced blockFormat state.low state.high
          (block :: (after ++ (before ++ prev :: (earlier ++ later)))) := by
        refine placed.perm (List.Perm.cons _ ?_)
        grind
      have byPrev : WellPlaced blockFormat state.low state.high
          (prev :: (blockFormat.absorb block after ++
            (before ++ (earlier ++ later)))) := by
        refine byBlock.absorb.perm ?_
        grind
      refine byPrev.absorb.perm ?_
      simp only [State.blocks]
      grind

/-- Release covers the same bytes. -/
theorem Releases.covers_iff
    (releases : Releases state block earlier later next)
    (live : state.live = earlier ++ block :: later) {byte : Nat} :
    blockFormat.Covers next.blocks byte ↔
      blockFormat.Covers state.blocks byte := by
  cases releases with
  | front short above =>
      simp only [State.blocks, live, covers_append, covers_absorb,
        covers_cons]
      simp only [or_assoc, or_left_comm, or_comm]
  | behind before prev after split passed reached single =>
      simp only [State.blocks, live, split, covers_append, covers_absorb,
        covers_cons]
      simp only [or_assoc, or_left_comm, or_comm]

theorem Releases.covered
    (releases : Releases state block earlier later next)
    (live : state.live = earlier ++ block :: later)
    (covered : state.Covered) :
    next.Covered := by
  intro byte above below
  refine (releases.covers_iff live).mpr ?_
  cases releases <;> exact covered byte above below

/--
Release keeps gaps between free blocks, provided the released block overlaps
none of them and is not below the head of a list of two or more blocks.
-/
theorem Releases.gapped
    (releases : Releases state block earlier later next)
    (gapped : blockFormat.Gapped state.free)
    (disjoint : ∀ other ∈ state.free,
      blockFormat.finish block ≤ other.address ∨
        blockFormat.finish other ≤ block.address)
    (notBelowHead : 2 ≤ state.free.length →
      ∀ other ∈ state.free.head?, other.address < block.address) :
    blockFormat.Gapped next.free := by
  cases releases with
  | front short above =>
      refine gapped.absorb fun other member => ?_
      have order := above other member
      rcases disjoint other member with apart | apart
      · exact apart
      · simp only [blockFormat_finish] at apart
        omega
  | behind before prev after split passed reached single =>
      rw [split] at gapped disjoint notBelowHead
      obtain ⟨front, back, across⟩ := List.pairwise_append.mp gapped
      obtain ⟨prevGapped, afterGapped⟩ := List.pairwise_cons.mp back
      -- the loop never compares the head, the other nodes it has passed
      have prevBelow : prev.address < block.address := by
        cases before with
        | nil =>
            cases after with
            | nil => exact single (by simp [split])
            | cons => exact notBelowHead (by simp) prev (by simp)
        | cons => exact passed prev (by simp)
      have blockAbove : blockFormat.finish prev ≤ block.address := by
        rcases disjoint prev (by simp) with apart | apart
        · simp only [blockFormat_finish] at apart
          omega
        · exact apart
      have blockBelow : ∀ other ∈ after,
          blockFormat.finish block ≤ other.address := by
        intro other member
        have order : block.address < other.address := by
          cases after with
          | nil => simp at member
          | cons head rest =>
              have atHead := reached head (by simp)
              rcases List.mem_cons.mp member with rfl | inRest
              · exact atHead
              · have gap := (List.pairwise_cons.mp afterGapped).1 other inRest
                simp only [blockFormat_finish] at gap
                omega
        rcases disjoint other (by simp [member]) with apart | apart
        · exact apart
        · simp only [blockFormat_finish] at apart
          omega
      have inner : blockFormat.Gapped (blockFormat.absorb block after) :=
        Format.Gapped.absorb afterGapped blockBelow
      obtain ⟨head, rest, shape, sameStart, fromAfter⟩ :=
        blockFormat.absorb_head block after
      have startsBehind : ∀ other ∈ blockFormat.absorb block after,
          block.address ≤ other.address := by
        rw [shape]
        intro other member
        rcases List.mem_cons.mp member with rfl | inRest
        · omega
        · have bound := blockBelow other (fromAfter.subset inRest)
          simp only [blockFormat_finish] at bound
          omega
      have outer : blockFormat.Gapped
          (blockFormat.absorb prev (blockFormat.absorb block after)) :=
        inner.absorb fun other member =>
          Nat.le_trans blockAbove (startsBehind other member)
      obtain ⟨outerHead, outerRest, outerShape, outerStart, fromInner⟩ :=
        blockFormat.absorb_head prev (blockFormat.absorb block after)
      refine List.pairwise_append.mpr ⟨front, outer, ?_⟩
      rw [outerShape]
      intro left leftMember right rightMember
      have gap := across left leftMember prev List.mem_cons_self
      rcases List.mem_cons.mp rightMember with rfl | inRest
      · omega
      · have bound := startsBehind right (fromInner.subset inRest)
        omega

end Release

end Kernull.AbstractHeap
