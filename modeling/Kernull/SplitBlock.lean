import Kernull.KmallocRefinement

/-!
# Splitting a block in raw memory

`split_block` writes the size of the remainder before it reads the list
pointer of the block, and clears the list pointer of the block last.  For a
request of less than eight bytes the size of the remainder and the list
pointer of the block share bytes, so that the remainder takes over a list
pointer whose high bytes come from its own size, and its size loses its low
bytes.
-/

namespace Kernull.SplitBlock

open Kernull.Mm
open Kernull.Kmalloc
open Kernull.KmallocRefinement
open Kernull.Library.ByteMemory

/-- The size that the remainder of a block is left with. -/
def remainderSize (whole size : Nat) : Nat :=
  (whole - size - 8) / 256 ^ (8 - size) * 256 ^ (8 - size)

/-- The list pointer that the remainder of a block is left with. -/
def remainderNext (whole size next : Nat) : Nat :=
  next % 256 ^ size + 256 ^ size * ((whole - size - 8) % 256 ^ (8 - size))

section Words

variable {whole size next : Nat}

theorem remainderSize_of_request (request : 8 ≤ size) :
    remainderSize whole size = whole - size - 8 := by
  rw [remainderSize, Nat.sub_eq_zero_of_le request, pow_zero, Nat.div_one,
    Nat.mul_one]

theorem remainderSize_le (whole size : Nat) :
    remainderSize whole size ≤ whole - size - 8 :=
  Nat.div_mul_le_self _ _

/-- The size is kept when the bytes that are cleared are zero already. -/
theorem remainderSize_eq_iff :
    remainderSize whole size = whole - size - 8 ↔
      (whole - size - 8) % 256 ^ (8 - size) = 0 := by
  have joined := Nat.div_add_mod (whole - size - 8) (256 ^ (8 - size))
  rw [Nat.mul_comm] at joined
  rw [remainderSize]
  omega

theorem remainderNext_of_request
    (request : 8 ≤ size) (pointer : next < 2 ^ 64) :
    remainderNext whole size next = next := by
  have wide : 256 ^ 8 ≤ 256 ^ size := Nat.pow_le_pow_right (by decide) request
  have small : next < 256 ^ size := by omega
  rw [remainderNext, Nat.sub_eq_zero_of_le request, pow_zero, Nat.mod_one,
    Nat.mul_zero, Nat.add_zero, Nat.mod_eq_of_lt small]

/-- The list pointer is kept when its high bytes are those of the size. -/
theorem remainderNext_eq_iff :
    remainderNext whole size next = next ↔
      next / 256 ^ size = (whole - size - 8) % 256 ^ (8 - size) := by
  have joined := Nat.mod_add_div next (256 ^ size)
  have positive : 0 < 256 ^ size := Nat.pow_pos (by decide)
  rw [remainderNext]
  constructor
  · intro kept
    refine (Nat.eq_of_mul_eq_mul_left positive ?_).symm
    exact Nat.add_left_cancel (kept.trans joined.symm)
  · intro same
    rw [← same]
    exact joined

end Words

/-! ## What `split_block` leaves -/

section Split

variable {memory : Memory} {block size : Nat}

/-- The memory behind the two assignments to sizes. -/
def sized (memory : Memory) (block size : Nat) : Memory :=
  setSize (setSize memory block size) (block + 8 + size)
    (blockSize memory block - size - 8)

theorem splitBlock_eq
    (large : 16 < blockSize memory block - size)
    (bounded : block + 8 + blockSize memory block < 2 ^ 64) :
    splitBlock memory block size =
      (setNext
        (setNext (sized memory block size) (block + 8 + size)
          (blockNext (sized memory block size) block)) block null,
        block + 8 + size) := by
  have rem : sub64 (blockSize memory block) size =
      blockSize memory block - size :=
    sub64_of_le (by omega) (by omega)
  have start : (block + 8 + size) % 2 ^ 64 = block + 8 + size :=
    Nat.mod_eq_of_lt (by omega)
  simp only [splitBlock, rem, sizeofBlock, sizeofSizeT, large, start, sized,
    ↓reduceIte]

/-- The list pointer that is read behind the assignments to sizes. -/
theorem blockNext_sized
    (small : size < 8) (memory : Memory) (block : Nat) :
    blockNext (sized memory block size) block =
      remainderNext (blockSize memory block) size
        (blockNext memory block) := by
  have inside : size ≤ 8 := Nat.le_of_lt small
  have front : readBytes (sized memory block size) (block + 8) size =
      blockNext memory block % 256 ^ size := by
    rw [sized, setSize, setSize,
      readBytes_writeBytes_of_disjoint _ _ (by omega),
      readBytes_writeBytes_of_disjoint _ _ (by omega),
      readBytes_front memory (block + 8) inside, blockNext]
  have back : readBytes (sized memory block size) (block + 8 + size)
      (8 - size) =
        (blockSize memory block - size - 8) % 256 ^ (8 - size) := by
    rw [sized, setSize, readBytes_front _ _ (Nat.sub_le 8 size),
      readBytes_writeBytes_same]
    exact Nat.mod_mod_of_dvd _ (Nat.pow_dvd_pow 256 (Nat.sub_le 8 size))
  rw [blockNext, remainderNext, readBytes_split _ _ inside, front, back]

/-- The size of the remainder once the list pointers are assigned. -/
theorem blockSize_remainder_of_small
    (small : size < 8) (memory : Memory) (block pointer : Nat) :
    blockSize
        (setNext
          (setNext (sized memory block size) (block + 8 + size) pointer)
          block null)
        (block + 8 + size) =
      remainderSize (blockSize memory block) size := by
  have inside : size ≤ 8 := Nat.le_of_lt small
  have stored := blockSize_lt memory block
  generalize linked : setNext (sized memory block size) (block + 8 + size)
    pointer = middle
  have low : readBytes (setNext middle block null) (block + 8 + size)
      (8 - size) = 0 := by
    rw [readBytes_back _ _ inside, setNext, readBytes_writeBytes_same, null,
      Nat.zero_mod, Nat.zero_div]
  have high : readBytes (setNext middle block null)
      (block + 8 + size + (8 - size)) (8 - (8 - size)) =
        (blockSize memory block - size - 8) / 256 ^ (8 - size) := by
    rw [setNext, readBytes_writeBytes_of_disjoint _ _ (by omega), ← linked,
      setNext, readBytes_writeBytes_of_disjoint _ _ (by omega),
      readBytes_back _ _ (Nat.sub_le 8 size), sized, setSize,
      readBytes_writeBytes_same, Nat.mod_eq_of_lt (by omega)]
  rw [blockSize, readBytes_split _ _ (Nat.sub_le 8 size), low, high,
    Nat.zero_add, Nat.mul_comm, remainderSize]

/-- What cutting a large block leaves in its two parts and elsewhere. -/
structure Cut (memory : Memory) (block size : Nat) (result : Memory) :
    Prop where
  front : blockSize result block = size
  back : blockSize result (block + 8 + size) =
    remainderSize (blockSize memory block) size
  link : blockNext result (block + 8 + size) =
    remainderNext (blockSize memory block) size (blockNext memory block)
  outside : ∀ byte,
    byte < block ∨ block + 8 + blockSize memory block ≤ byte →
      result byte = memory byte

/-- Whatever the request, a large block is cut at the request. -/
theorem splitBlock_cut
    (large : 16 < blockSize memory block - size)
    (bounded : block + 8 + blockSize memory block < 2 ^ 64) :
    ∃ result, splitBlock memory block size = (result, block + 8 + size) ∧
      Cut memory block size result := by
  have cut := splitBlock_eq large bounded
  refine ⟨_, cut, ?_⟩
  have beyond : ∀ byte,
      byte < block ∨ block + 8 + blockSize memory block ≤ byte →
        setNext
          (setNext (sized memory block size) (block + 8 + size)
            (blockNext (sized memory block size) block))
          block null byte = memory byte := by
    intro byte outside
    rw [setNext, writeBytes_outside _ _ (by omega), setNext,
      writeBytes_outside _ _ (by omega), sized, setSize,
      writeBytes_outside _ _ (by omega), setSize,
      writeBytes_outside _ _ (by omega)]
  by_cases request : 8 ≤ size
  · obtain ⟨result, same, front, back, link, _⟩ :=
      splitBlock_of_large memory block request large bounded
    have memories := (Prod.mk.inj (cut.symm.trans same)).1
    rw [memories]
    constructor
    · exact front
    · rw [remainderSize_of_request request]
      exact back
    · rw [remainderNext_of_request request (blockNext_lt memory block)]
      exact link
    · exact memories ▸ beyond
  · have small : size < 8 := Nat.lt_of_not_le request
    have pointer : remainderNext (blockSize memory block) size
        (blockNext memory block) < 2 ^ 64 :=
      blockNext_sized small memory block ▸ blockNext_lt _ block
    constructor
    · rw [blockSize_setNext_same, blockSize, setNext,
        readBytes_writeBytes_of_disjoint _ _ (by omega), sized, setSize,
        readBytes_writeBytes_of_disjoint _ _ (by omega)]
      exact blockSize_setSize_same (by omega)
    · exact blockSize_remainder_of_small small memory block _
    · rw [blockNext, setNext, readBytes_writeBytes_of_disjoint _ _ (by omega),
        blockNext_sized small]
      exact blockNext_setNext_same pointer
    · exact beyond

end Split

/-! ## Headers that stay intact -/

/--
`split_block` leaves the block whole and returns its successor, or it cuts the
block at the request and returns a remainder with the size and the list
pointer that are due to it.
-/
def SplitsCleanly (memory : Memory) (block size : Nat) : Prop :=
  splitBlock memory block size = (memory, blockNext memory block) ∨
    ∃ result, splitBlock memory block size = (result, block + 8 + size) ∧
      blockSize result block = size ∧
      blockSize result (block + 8 + size) =
        blockSize memory block - size - 8 ∧
      blockNext result (block + 8 + size) = blockNext memory block

/--
Storing the list pointer of a block with the size that is recorded changes no
byte outside of the block, whatever the rest of memory holds.
-/
def LinkInside (memory : Memory) (block : Nat) : Prop :=
  ∀ (contents : Memory) (pointer byte : Nat),
    byte < block ∨ block + 8 + blockSize memory block ≤ byte →
      setNext contents block pointer byte = contents byte

/-- The list pointer takes the first eight bytes of the payload. -/
theorem linkInside_iff {memory : Memory} {block : Nat} :
    LinkInside memory block ↔ 8 ≤ blockSize memory block := by
  constructor
  · intro inside
    by_contra small
    have last := inside (fun _ => 1) 0 (block + 15) (by omega)
    have stored : setNext (fun _ => 1) block 0 (block + 15) = 0 := by
      have whole := readBytes_back (setNext (fun _ => 1) block 0)
        (block + 8) (show 7 ≤ 8 by decide)
      rw [setNext, readBytes_writeBytes_same] at whole
      have single : (setNext (fun _ => 1) block 0 (block + 15)).toNat = 0 :=
        whole
      exact BitVec.eq_of_toNat_eq single
    rw [stored] at last
    exact absurd last (by decide)
  · intro large contents pointer byte outside
    exact writeBytes_outside contents pointer (by omega)

/-- When the split alone is clean: small requests need lucky bytes. -/
theorem splitsCleanly_iff
    {memory : Memory} {block size : Nat}
    (fits : size ≤ blockSize memory block)
    (bounded : block + 8 + blockSize memory block < 2 ^ 64) :
    SplitsCleanly memory block size ↔
      8 ≤ size ∨ blockSize memory block ≤ size + 16 ∨
        ((blockSize memory block - size - 8) % 256 ^ (8 - size) = 0 ∧
          blockNext memory block < 256 ^ size) := by
  by_cases large : 16 < blockSize memory block - size
  · obtain ⟨result, same, cut⟩ := splitBlock_cut large bounded
    have cutClean : SplitsCleanly memory block size ↔
        remainderSize (blockSize memory block) size =
            blockSize memory block - size - 8 ∧
          remainderNext (blockSize memory block) size
              (blockNext memory block) = blockNext memory block := by
      rw [← cut.back, ← cut.link]
      constructor
      · rintro (whole | ⟨other, split, _, back, link⟩)
        · obtain rfl := (Prod.mk.inj (same.symm.trans whole)).1
          have front := cut.front
          omega
        · obtain rfl := (Prod.mk.inj (same.symm.trans split)).1
          exact ⟨back, link⟩
      · rintro ⟨back, link⟩
        exact Or.inr ⟨result, same, cut.front, back, link⟩
    rw [cutClean]
    by_cases request : 8 ≤ size
    · exact iff_of_true ⟨remainderSize_of_request request,
        remainderNext_of_request request (blockNext_lt memory block)⟩
        (Or.inl request)
    · have notWhole : ¬ blockSize memory block ≤ size + 16 := by omega
      have positive : 0 < 256 ^ size := Nat.pow_pos (by decide)
      rw [remainderSize_eq_iff, remainderNext_eq_iff, or_iff_right request,
        or_iff_right notWhole]
      refine and_congr_right fun cleared => ?_
      rw [cleared, Nat.div_eq_zero_iff, or_iff_right positive.ne']
  · have whole := splitBlock_of_small size fits (Nat.not_lt.mp large)
    exact iff_of_true (Or.inl whole) (Or.inr (Or.inl (by omega)))

/--
Splitting a block and storing its list pointer later keep all headers intact
exactly for requests of eight bytes or more, and for blocks of at least eight
bytes that are not cut.  The split by itself is clean for some smaller
requests as well, by luck.
-/
theorem split_keeps_headers_iff
    {memory : Memory} {block size : Nat}
    (fits : size ≤ blockSize memory block)
    (bounded : block + 8 + blockSize memory block < 2 ^ 64) :
    ((SplitsCleanly memory block size ∧
        LinkInside (splitBlock memory block size).1 block) ↔
      8 ≤ size ∨
        (8 ≤ blockSize memory block ∧
          blockSize memory block ≤ size + 16)) ∧
    (SplitsCleanly memory block size ↔
      8 ≤ size ∨ blockSize memory block ≤ size + 16 ∨
        ((blockSize memory block - size - 8) % 256 ^ (8 - size) = 0 ∧
          blockNext memory block < 256 ^ size)) := by
  have clean := splitsCleanly_iff fits bounded
  refine ⟨?_, clean⟩
  rw [clean, linkInside_iff]
  by_cases large : 16 < blockSize memory block - size
  · obtain ⟨result, same, cut⟩ := splitBlock_cut large bounded
    rw [same, cut.front]
    omega
  · have whole := splitBlock_of_small size fits (Nat.not_lt.mp large)
    simp only [whole]
    omega

/-- A free block of 4088 bytes that ends the list. -/
def singleBlock : Memory :=
  setNext (setSize (fun _ => 0) 0x1000 4088) 0x1000 null

theorem split_of_request_keeps_headers :
    SplitsCleanly singleBlock 0x1000 100 ∧
      LinkInside (splitBlock singleBlock 0x1000 100).1 0x1000 :=
  (split_keeps_headers_iff (by decide) (by decide)).1.mpr
    (Or.inl (by decide))

/-- A request of no bytes destroys the header of the remainder. -/
theorem empty_request_breaks_headers :
    ¬ ∀ (memory : Memory) (block size : Nat),
      size ≤ blockSize memory block →
      block + 8 + blockSize memory block < 2 ^ 64 →
        SplitsCleanly memory block size ∧
          LinkInside (splitBlock memory block size).1 block := by
  intro always
  obtain ⟨clean, _⟩ := always singleBlock 0x1000 0 (by decide) (by decide)
  exact absurd ((splitsCleanly_iff (by decide) (by decide)).mp clean)
    (by decide)

end Kernull.SplitBlock
