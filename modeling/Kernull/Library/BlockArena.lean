import Mathlib.Data.List.Basic
import Mathlib.Data.List.Pairwise

/-!
# Blocks laid out in an arena

An arena is an interval of addresses cut into blocks.  A block starts with a
header, followed by its payload; the first bytes of the block, its record,
hold bookkeeping that no other block may touch.  A format fixes the length of
header and record, and how many bytes a block is allowed to overhang into the
block behind it or past the end of the arena.  A format without overhang
describes an arena of disjoint blocks.

The operations of an allocator change an arena in four ways: it grows at its
end, a block is carved in two, two touching blocks are merged, and blocks are
regrouped.  Each keeps blocks well placed, and each keeps the bytes covered.
The last section shows that a list of blocks with gaps between them is
determined by the set of bytes it covers.
-/

namespace Kernull.Library.BlockArena

/-- The sizes a layout is measured with. -/
structure Format where
  header : Nat
  record : Nat
  overhang : Nat
  header_pos : 0 < header
  overhang_lt_record : overhang < record

/-- A block starts at an address and has a payload of `size` bytes. -/
structure Block where
  address : Nat
  size : Nat
deriving DecidableEq

/-- The first address behind a block. -/
def Format.finish (format : Format) (block : Block) : Nat :=
  block.address + format.header + block.size

/-- The block reaches at least as far as `address`, counting its overhang. -/
def Format.Precedes (format : Format) (left right : Block) : Prop :=
  left.address + format.record ≤ right.address ∧
    format.finish left ≤ right.address + format.overhang

/-- Two blocks do not disturb each other, whichever comes first. -/
def Format.Apart (format : Format) (left right : Block) : Prop :=
  format.Precedes left right ∨ format.Precedes right left

theorem Format.Apart.symm
    {format : Format} {left right : Block}
    (apart : format.Apart left right) :
    format.Apart right left :=
  Or.symm apart

instance (format : Format) : Std.Symm format.Apart :=
  ⟨fun _ _ apart => apart.symm⟩

/-- All blocks lie in the arena and are apart from each other. -/
structure WellPlaced (format : Format) (low high : Nat)
    (blocks : List Block) : Prop where
  apart : blocks.Pairwise format.Apart
  above : ∀ block ∈ blocks, low ≤ block.address
  below : ∀ block ∈ blocks,
    block.address + format.record ≤ high ∧
      format.finish block ≤ high + format.overhang

variable {format : Format} {low high : Nat}
  {block left right : Block} {blocks others : List Block}

theorem wellPlaced_nil :
    WellPlaced format low high [] :=
  ⟨List.Pairwise.nil, by simp, by simp⟩

theorem wellPlaced_cons :
    WellPlaced format low high (block :: blocks) ↔
      (low ≤ block.address ∧
        block.address + format.record ≤ high ∧
        format.finish block ≤ high + format.overhang) ∧
      (∀ other ∈ blocks, format.Apart block other) ∧
      WellPlaced format low high blocks := by
  constructor
  · intro placed
    have apart := List.pairwise_cons.mp placed.apart
    have above := List.forall_mem_cons.mp placed.above
    have below := List.forall_mem_cons.mp placed.below
    exact ⟨⟨above.1, below.1⟩, apart.1, apart.2, above.2, below.2⟩
  · rintro ⟨⟨above, below⟩, apart, placed⟩
    exact
      ⟨List.pairwise_cons.mpr ⟨apart, placed.apart⟩,
        List.forall_mem_cons.mpr ⟨above, placed.above⟩,
        List.forall_mem_cons.mpr ⟨below, placed.below⟩⟩

/-- The order in which blocks are listed is irrelevant. -/
theorem WellPlaced.perm
    (placed : WellPlaced format low high blocks)
    (permuted : blocks.Perm others) :
    WellPlaced format low high others :=
  ⟨(permuted.pairwise_iff fun apart => apart.symm).mp placed.apart,
    fun block member => placed.above block (permuted.mem_iff.mpr member),
    fun block member => placed.below block (permuted.mem_iff.mpr member)⟩

/-- Distinct blocks of a well-placed list are apart. -/
theorem WellPlaced.apart_of_ne
    (placed : WellPlaced format low high blocks)
    (leftMember : left ∈ blocks) (rightMember : right ∈ blocks)
    (different : left.address ≠ right.address) :
    format.Apart left right :=
  placed.apart.forall leftMember rightMember
    (by rintro rfl; exact different rfl)

/-! ## Growing, carving and merging -/

/-- A new block placed at the old end of a growing arena. -/
theorem WellPlaced.grow
    {newHigh : Nat}
    (placed : WellPlaced format low high blocks) (size : Nat)
    (nonempty : low ≤ high)
    (recordFits : high + format.record ≤ newHigh)
    (blockFits :
      high + format.header + size ≤ newHigh + format.overhang) :
    WellPlaced format low newHigh (⟨high, size⟩ :: blocks) := by
  refine wellPlaced_cons.mpr
    ⟨⟨nonempty, recordFits, blockFits⟩, ?_, placed.apart, placed.above, ?_⟩
  · intro other member
    exact Or.inr (placed.below other member)
  · intro other member
    have below := placed.below other member
    constructor <;> omega

/-- The remainder left when the first `size` payload bytes are carved off. -/
def Format.remainder (format : Format) (block : Block) (size : Nat) :
    Block :=
  ⟨block.address + format.header + size, block.size - size - format.header⟩

/--
The record of the remainder does not collide with what lies behind the block.
-/
def Format.RoomFor (format : Format) (high : Nat) (blocks : List Block)
    (block : Block) (size : Nat) : Prop :=
  (format.remainder block size).address + format.record ≤ high ∧
    ∀ other ∈ blocks, block.address < other.address →
      (format.remainder block size).address + format.record ≤ other.address

/-- Room can be read off the size alone when enough payload remains. -/
theorem WellPlaced.roomFor_of_size
    {size : Nat}
    (placed : WellPlaced format low high (block :: blocks))
    (enough : size + format.record + format.overhang ≤ block.size) :
    format.RoomFor high blocks block size := by
  obtain ⟨⟨_, _, below⟩, apart, _⟩ := wellPlaced_cons.mp placed
  simp only [Format.finish] at below
  refine ⟨?_, fun other member behind => ?_⟩
  · simp only [Format.remainder]
    omega
  · rcases apart other member with ⟨_, ends⟩ | ⟨ahead, _⟩
    · simp only [Format.finish] at ends
      simp only [Format.remainder]
      omega
    · omega

/-- Carving a block in two keeps the arena well placed. -/
theorem WellPlaced.carve
    {size : Nat}
    (placed : WellPlaced format low high (block :: blocks))
    (recordFits : format.record ≤ format.header + size)
    (sizeFits : size + format.header ≤ block.size)
    (room : format.RoomFor high blocks block size) :
    WellPlaced format low high
      (format.remainder block size :: ⟨block.address, size⟩ :: blocks) := by
  obtain ⟨⟨above, fits, below⟩, apart, rest⟩ := wellPlaced_cons.mp placed
  simp only [Format.RoomFor, Format.remainder] at room
  simp only [Format.finish] at below
  refine wellPlaced_cons.mpr ⟨?_, ?_, wellPlaced_cons.mpr ⟨?_, ?_, rest⟩⟩
  · simp only [Format.remainder, Format.finish]
    omega
  · intro other member
    rcases List.mem_cons.mp member with rfl | member
    · right
      simp only [Format.Precedes, Format.remainder, Format.finish]
      omega
    · rcases apart other member with ⟨ahead, ends⟩ | ⟨ahead, ends⟩
      · left
        have behind := room.2 other member (by
          have := format.overhang_lt_record
          omega)
        simp only [Format.finish] at ends
        simp only [Format.Precedes, Format.remainder, Format.finish]
        omega
      · right
        simp only [Format.finish] at ends
        simp only [Format.Precedes, Format.remainder, Format.finish]
        omega
  · simp only [Format.finish]
    omega
  · intro other member
    rcases apart other member with ⟨ahead, ends⟩ | ⟨ahead, ends⟩
    · left
      simp only [Format.finish] at ends
      simp only [Format.Precedes, Format.finish]
      omega
    · right
      exact ⟨ahead, ends⟩

/-- Two touching blocks taken as one. -/
def Format.merged (format : Format) (left right : Block) : Block :=
  ⟨left.address, left.size + format.header + right.size⟩

/-- Merging two touching blocks keeps the arena well placed. -/
theorem WellPlaced.merge
    (placed : WellPlaced format low high (left :: right :: blocks))
    (touching : format.finish left = right.address) :
    WellPlaced format low high (format.merged left right :: blocks) := by
  obtain ⟨⟨above, fits, _⟩, leftApart, tail⟩ := wellPlaced_cons.mp placed
  obtain ⟨⟨_, _, below⟩, rightApart, rest⟩ := wellPlaced_cons.mp tail
  have shorter := format.overhang_lt_record
  simp only [Format.finish] at touching below
  refine wellPlaced_cons.mpr ⟨?_, ?_, rest⟩
  · simp only [Format.merged, Format.finish]
    omega
  · intro other member
    have fromLeft := leftApart other (List.mem_cons_of_mem right member)
    have fromRight := rightApart other member
    simp only [Format.Apart, Format.Precedes, Format.finish,
      Format.merged] at *
    omega

/-! ## Covered bytes -/

/-- A byte belongs to the extent of one of the blocks. -/
def Format.Covers (format : Format) (blocks : List Block)
    (byte : Nat) : Prop :=
  ∃ block ∈ blocks, block.address ≤ byte ∧ byte < format.finish block

theorem Format.Covers.perm
    {byte : Nat} (covered : format.Covers blocks byte)
    (permuted : blocks.Perm others) :
    format.Covers others byte := by
  obtain ⟨block, member, bounds⟩ := covered
  exact ⟨block, permuted.mem_iff.mp member, bounds⟩

theorem covers_cons {byte : Nat} :
    format.Covers (block :: blocks) byte ↔
      (block.address ≤ byte ∧ byte < format.finish block) ∨
        format.Covers blocks byte := by
  simp [Format.Covers]

theorem covers_append {byte : Nat} :
    format.Covers (blocks ++ others) byte ↔
      format.Covers blocks byte ∨ format.Covers others byte := by
  simp only [Format.Covers, List.mem_append]
  constructor
  · rintro ⟨block, member | member, bounds⟩
    · exact Or.inl ⟨block, member, bounds⟩
    · exact Or.inr ⟨block, member, bounds⟩
  · rintro (⟨block, member, bounds⟩ | ⟨block, member, bounds⟩)
    · exact ⟨block, Or.inl member, bounds⟩
    · exact ⟨block, Or.inr member, bounds⟩

/-- Carving a block covers the same bytes. -/
theorem covers_carve {byte : Nat} (size : Nat)
    (sizeFits : size + format.header ≤ block.size) :
    format.Covers
        (format.remainder block size :: ⟨block.address, size⟩ :: blocks)
        byte ↔
      format.Covers (block :: blocks) byte := by
  simp only [covers_cons, Format.remainder, Format.finish]
  have split :
      ((block.address + format.header + size ≤ byte ∧
          byte < block.address + format.header + size + format.header +
            (block.size - size - format.header)) ∨
        (block.address ≤ byte ∧
          byte < block.address + format.header + size)) ↔
      (block.address ≤ byte ∧
        byte < block.address + format.header + block.size) := by
    omega
  rw [← split]
  exact or_assoc.symm

/-- Merging touching blocks covers the same bytes. -/
theorem covers_merge {byte : Nat}
    (touching : format.finish left = right.address) :
    format.Covers (format.merged left right :: blocks) byte ↔
      format.Covers (left :: right :: blocks) byte := by
  simp only [covers_cons, Format.merged, Format.finish] at *
  have join :
      (left.address ≤ byte ∧
        byte < left.address + format.header +
          (left.size + format.header + right.size)) ↔
      ((left.address ≤ byte ∧
          byte < left.address + format.header + left.size) ∨
        (right.address ≤ byte ∧
          byte < right.address + format.header + right.size)) := by
    omega
  rw [join]
  exact or_assoc

/-! ## Merging with the next block of a list -/

/-- Put a block in front of a list, merged with the head if they touch. -/
def Format.absorb (format : Format) (block : Block) : List Block → List Block
  | [] => [block]
  | next :: rest =>
      if format.finish block = next.address then
        format.merged block next :: rest
      else block :: next :: rest

/-- Absorbing keeps the start of the block at the head. -/
theorem Format.absorb_head
    (format : Format) (block : Block) (blocks : List Block) :
    ∃ head rest, format.absorb block blocks = head :: rest ∧
      head.address = block.address ∧ rest.Sublist blocks := by
  cases blocks with
  | nil => exact ⟨block, [], rfl, rfl, List.Sublist.refl []⟩
  | cons next rest =>
      by_cases touching : format.finish block = next.address
      · refine ⟨format.merged block next, rest, ?_, rfl,
          List.sublist_cons_self next rest⟩
        simp [Format.absorb, touching]
      · refine ⟨block, next :: rest, ?_, rfl, List.Sublist.refl _⟩
        simp [Format.absorb, touching]

/-- Absorbing keeps the arena well placed. -/
theorem WellPlaced.absorb
    (placed : WellPlaced format low high (block :: (blocks ++ others))) :
    WellPlaced format low high (format.absorb block blocks ++ others) := by
  cases blocks with
  | nil => exact placed
  | cons next rest =>
      by_cases touching : format.finish block = next.address
      · simpa [Format.absorb, touching] using placed.merge touching
      · simpa [Format.absorb, touching] using placed

/-- Absorbing covers the same bytes. -/
theorem covers_absorb {byte : Nat} :
    format.Covers (format.absorb block blocks) byte ↔
      format.Covers (block :: blocks) byte := by
  cases blocks with
  | nil => rfl
  | cons next rest =>
      by_cases touching : format.finish block = next.address
      · simpa [Format.absorb, touching] using covers_merge touching
      · simp [Format.absorb, touching]

/-! ## Lists of blocks with gaps between them -/

/-- Increasing addresses, with at least one byte between any two blocks. -/
def Format.Gapped (format : Format) (blocks : List Block) : Prop :=
  blocks.Pairwise fun left right => format.finish left < right.address

/-- The head of a gapped list starts at the least covered byte. -/
theorem Format.Gapped.head_le
    {byte : Nat}
    (gapped : format.Gapped (block :: blocks))
    (covered : format.Covers (block :: blocks) byte) :
    block.address ≤ byte := by
  rcases covers_cons.mp covered with bounds | ⟨other, member, bounds⟩
  · exact bounds.1
  · have behind := (List.pairwise_cons.mp gapped).1 other member
    simp only [Format.finish] at behind
    omega

/-- The byte right behind the head of a gapped list is not covered. -/
theorem Format.Gapped.not_covers_finish
    (gapped : format.Gapped (block :: blocks)) :
    ¬ format.Covers (block :: blocks) (format.finish block) := by
  intro covered
  rcases covers_cons.mp covered with bounds | ⟨other, member, bounds⟩
  · exact absurd bounds.2 (Nat.lt_irrefl _)
  · have behind := (List.pairwise_cons.mp gapped).1 other member
    omega

/-- The tail of a gapped list covers what lies behind its head. -/
theorem Format.Gapped.covers_tail_iff
    {byte : Nat}
    (gapped : format.Gapped (block :: blocks)) :
    format.Covers blocks byte ↔
      format.Covers (block :: blocks) byte ∧
        format.finish block ≤ byte := by
  rw [covers_cons]
  constructor
  · rintro ⟨other, member, bounds⟩
    have behind := (List.pairwise_cons.mp gapped).1 other member
    exact ⟨Or.inr ⟨other, member, bounds⟩, by omega⟩
  · rintro ⟨bounds | covered, behind⟩
    · omega
    · exact covered

/-- Absorbing closes the last gap that may be missing in a sorted list. -/
theorem Format.Gapped.absorb
    (gapped : format.Gapped blocks)
    (behind : ∀ other ∈ blocks, format.finish block ≤ other.address) :
    format.Gapped (format.absorb block blocks) := by
  cases blocks with
  | nil => exact List.pairwise_singleton _ block
  | cons next rest =>
      obtain ⟨nextGapped, restGapped⟩ := List.pairwise_cons.mp gapped
      by_cases touching : format.finish block = next.address
      · simp only [Format.absorb, touching, ↓reduceIte]
        refine List.pairwise_cons.mpr ⟨fun other member => ?_, restGapped⟩
        have gap := nextGapped other member
        simp only [Format.finish, Format.merged] at *
        omega
      · simp only [Format.absorb, touching, ↓reduceIte]
        refine List.pairwise_cons.mpr ⟨fun other member => ?_, gapped⟩
        rcases List.mem_cons.mp member with rfl | member
        · have near := behind other List.mem_cons_self
          omega
        · have near := behind next List.mem_cons_self
          have gap := nextGapped other member
          simp only [Format.finish] at *
          omega

/-- A gapped list of blocks is determined by the bytes it covers. -/
theorem Format.Gapped.ext
    (leftGapped : format.Gapped blocks)
    (rightGapped : format.Gapped others)
    (sameBytes : ∀ byte,
      format.Covers blocks byte ↔ format.Covers others byte) :
    blocks = others := by
  have positive := format.header_pos
  have first : ∀ (block : Block) (blocks : List Block),
      format.Covers (block :: blocks) block.address := by
    intro block blocks
    exact covers_cons.mpr (Or.inl (by simp only [Format.finish]; omega))
  induction blocks generalizing others with
  | nil =>
      cases others with
      | nil => rfl
      | cons other others =>
          obtain ⟨_, member, _⟩ := (sameBytes _).mpr (first other others)
          simp at member
  | cons block blocks inductionHypothesis =>
      cases others with
      | nil =>
          obtain ⟨_, member, _⟩ := (sameBytes _).mp (first block blocks)
          simp at member
      | cons other others =>
          have sameStart : block.address = other.address := by
            have notBefore := leftGapped.head_le
              ((sameBytes _).mpr (first other others))
            have notBehind := rightGapped.head_le
              ((sameBytes _).mp (first block blocks))
            omega
          have notLonger :
              ¬ format.finish block < format.finish other := by
            intro longer
            apply leftGapped.not_covers_finish
            refine (sameBytes _).mpr (covers_cons.mpr (Or.inl ⟨?_, longer⟩))
            simp only [Format.finish]
            omega
          have notShorter :
              ¬ format.finish other < format.finish block := by
            intro shorter
            apply rightGapped.not_covers_finish
            refine (sameBytes _).mp (covers_cons.mpr (Or.inl ⟨?_, shorter⟩))
            simp only [Format.finish]
            omega
          have sameFinish :
              format.finish block = format.finish other := by omega
          have sameBlock : block = other := by
            cases block
            cases other
            simp only [Format.finish] at sameFinish
            simp only [Block.mk.injEq]
            simp only at sameStart
            omega
          subst other
          congr 1
          apply inductionHypothesis
            (List.pairwise_cons.mp leftGapped).2
            (List.pairwise_cons.mp rightGapped).2
          intro byte
          rw [leftGapped.covers_tail_iff, rightGapped.covers_tail_iff,
            sameBytes]

end Kernull.Library.BlockArena
