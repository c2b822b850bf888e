import Mathlib.Logic.Function.Basic
import Mathlib.Tactic.Ring

/-!
# Byte-addressed memory

Memory is a total function from addresses to bytes.  Multi-byte values are
stored little-endian at arbitrary, possibly unaligned, addresses.  The facts
that programs over such a memory need are proved for every width: a read
returns what the last write to the same range stored, a write leaves disjoint
ranges alone, a read depends only on the bytes of its range, and a read across
a boundary joins the reads on both sides, which says what ranges that overlap
partly do to each other.  A region can be copied over itself byte by byte from
either end, as long as no byte is overwritten before it is read, and turned
around in place by exchanging its bytes in pairs from the outside.
-/

namespace Kernull.Library.ByteMemory

/-- A memory holds one byte at every address. -/
abbrev Memory := Nat → BitVec 8

/-- Read `count` bytes at `address` as a little-endian number. -/
def readBytes (memory : Memory) (address : Nat) : Nat → Nat
  | 0 => 0
  | count + 1 =>
      (memory address).toNat + 256 * readBytes memory (address + 1) count

/-- Write the low `count` bytes of `value` at `address`, little-endian. -/
def writeBytes (memory : Memory) (address : Nat) : Nat → Nat → Memory
  | 0, _ => memory
  | count + 1, value =>
      Function.update
        (writeBytes memory (address + 1) count (value / 256))
        address (BitVec.ofNat 8 value)

/-- A write changes no byte outside its range. -/
theorem writeBytes_outside
    (memory : Memory) {address count : Nat} (value : Nat) {other : Nat}
    (outside : other < address ∨ address + count ≤ other) :
    writeBytes memory address count value other = memory other := by
  induction count generalizing address value with
  | zero => rfl
  | succ count inductionHypothesis =>
      have different : other ≠ address := by omega
      rw [writeBytes, Function.update_of_ne different]
      exact inductionHypothesis (value / 256) (by omega)

/-- A read depends only on the bytes of its range. -/
theorem readBytes_congr
    {left right : Memory} {address count : Nat}
    (agree : ∀ offset, offset < count →
      left (address + offset) = right (address + offset)) :
    readBytes left address count = readBytes right address count := by
  induction count generalizing address with
  | zero => rfl
  | succ count inductionHypothesis =>
      have first : left address = right address :=
        agree 0 (Nat.succ_pos count)
      have others :
          readBytes left (address + 1) count =
            readBytes right (address + 1) count := by
        apply inductionHypothesis
        intro offset bound
        have shifted := agree (offset + 1) (by omega)
        rwa [show address + (offset + 1) = address + 1 + offset by omega]
          at shifted
      rw [readBytes, readBytes, first, others]

/-- A write leaves every disjoint range alone. -/
theorem readBytes_writeBytes_of_disjoint
    (memory : Memory) {address count other width : Nat} (value : Nat)
    (disjoint : other + width ≤ address ∨ address + count ≤ other) :
    readBytes (writeBytes memory address count value) other width =
      readBytes memory other width := by
  apply readBytes_congr
  intro offset bound
  exact writeBytes_outside memory value (by omega)

/-- Reading back a written range returns the value modulo its width. -/
theorem readBytes_writeBytes_same
    (memory : Memory) (address count value : Nat) :
    readBytes (writeBytes memory address count value) address count =
      value % 256 ^ count := by
  induction count generalizing address value with
  | zero => simp [readBytes, Nat.mod_one]
  | succ count inductionHypothesis =>
      have above :
          readBytes
              (writeBytes memory address (count + 1) value)
              (address + 1) count =
            value / 256 % 256 ^ count := by
        rw [← inductionHypothesis (address + 1) (value / 256)]
        apply readBytes_congr
        intro offset bound
        have different : address + 1 + offset ≠ address := by omega
        rw [writeBytes, Function.update_of_ne different]
      have lowest :
          (writeBytes memory address (count + 1) value address).toNat =
            value % 256 := by
        rw [writeBytes, Function.update_self, BitVec.toNat_ofNat]
      rw [readBytes, above, lowest, pow_succ, Nat.mul_comm (256 ^ count),
        Nat.mod_mul]

/-- What a write leaves in its range does not depend on what was there. -/
theorem writeBytes_inside
    (left right : Memory) {address count : Nat} (value : Nat) {place : Nat}
    (inside : address ≤ place ∧ place < address + count) :
    writeBytes left address count value place =
      writeBytes right address count value place := by
  induction count generalizing address value with
  | zero => omega
  | succ count inductionHypothesis =>
      rw [writeBytes, writeBytes]
      by_cases first : place = address
      · rw [first, Function.update_self, Function.update_self]
      · rw [Function.update_of_ne first, Function.update_of_ne first]
        exact inductionHypothesis (value / 256) (by omega)

/-- Of two writes to the same range only the second is left. -/
theorem writeBytes_overwrite
    (memory : Memory) (address count first second : Nat) :
    writeBytes (writeBytes memory address count first) address count second =
      writeBytes memory address count second := by
  funext place
  by_cases inside : address ≤ place ∧ place < address + count
  · exact writeBytes_inside _ _ second inside
  · have outside : place < address ∨ address + count ≤ place := by
      omega
    rw [writeBytes_outside _ _ outside, writeBytes_outside _ _ outside,
      writeBytes_outside _ _ outside]

/-- A value read from `count` bytes fits in `count` bytes. -/
theorem readBytes_lt
    (memory : Memory) (address count : Nat) :
    readBytes memory address count < 256 ^ count := by
  induction count generalizing address with
  | zero => simp [readBytes]
  | succ count inductionHypothesis =>
      have lowest := (memory address).isLt
      have others := inductionHypothesis (address + 1)
      rw [readBytes, pow_succ]
      omega

/-- Zero bytes are read as zero. -/
theorem readBytes_of_zero
    {memory : Memory} {address count : Nat}
    (zero : ∀ offset, offset < count → memory (address + offset) = 0) :
    readBytes memory address count = 0 := by
  induction count generalizing address with
  | zero => rfl
  | succ count inductionHypothesis =>
      have first : memory address = 0 := zero 0 (Nat.succ_pos count)
      have others : readBytes memory (address + 1) count = 0 := by
        apply inductionHypothesis
        intro offset bound
        have shifted := zero (offset + 1) (Nat.succ_lt_succ bound)
        rwa [show address + (offset + 1) = address + 1 + offset by omega]
          at shifted
      rw [readBytes, first, others]
      rfl

/-! ## Ranges that overlap partly -/

/-- A read across a boundary joins the reads on both sides. -/
theorem readBytes_add
    (memory : Memory) (address low high : Nat) :
    readBytes memory address (low + high) =
      readBytes memory address low +
        256 ^ low * readBytes memory (address + low) high := by
  induction low generalizing address with
  | zero => simp [readBytes]
  | succ low inductionHypothesis =>
      have shifted : address + 1 + low = address + (low + 1) := by omega
      have longer : low + 1 + high = low + high + 1 := by omega
      rw [longer, readBytes, readBytes, inductionHypothesis, shifted,
        pow_succ]
      ring

/-- A read is the low bytes of its front and the high bytes of its back. -/
theorem readBytes_split
    (memory : Memory) (address : Nat) {front count : Nat}
    (inside : front ≤ count) :
    readBytes memory address count =
      readBytes memory address front +
        256 ^ front * readBytes memory (address + front) (count - front) := by
  rw [← readBytes_add, Nat.add_sub_cancel' inside]

/-- The front of a range holds the low bytes of what is read from it. -/
theorem readBytes_front
    (memory : Memory) (address : Nat) {front count : Nat}
    (inside : front ≤ count) :
    readBytes memory address front =
      readBytes memory address count % 256 ^ front := by
  have small := readBytes_lt memory address front
  rw [readBytes_split memory address inside, Nat.add_mul_mod_self_left,
    Nat.mod_eq_of_lt small]

/-- The back of a range holds the high bytes of what is read from it. -/
theorem readBytes_back
    (memory : Memory) (address : Nat) {front count : Nat}
    (inside : front ≤ count) :
    readBytes memory (address + front) (count - front) =
      readBytes memory address count / 256 ^ front := by
  have small := readBytes_lt memory address front
  have positive : 0 < 256 ^ front := Nat.pow_pos (by decide)
  rw [readBytes_split memory address inside,
    Nat.add_mul_div_left _ _ positive, Nat.div_eq_of_lt small, Nat.zero_add]

/-! ## Byte strings in memory -/

/-- The bytes of a list stand in a row. -/
def Holds
    (memory : Memory) (address : Nat) (bytes : List (BitVec 8)) : Prop :=
  ∀ i (bound : i < bytes.length), memory (address + i) = bytes[i]

instance (memory : Memory) (address : Nat) (bytes : List (BitVec 8)) :
    Decidable (Holds memory address bytes) :=
  inferInstanceAs
    (Decidable
      (∀ i (bound : i < bytes.length), memory (address + i) = bytes[i]))

theorem holds_nil (memory : Memory) (address : Nat) :
    Holds memory address [] := by
  intro i bound
  exact absurd bound (Nat.not_lt_zero i)

theorem holds_cons
    {memory : Memory} {address : Nat} {first : BitVec 8}
    {others : List (BitVec 8)} :
    Holds memory address (first :: others) ↔
      memory address = first ∧ Holds memory (address + 1) others := by
  constructor
  · intro holds
    constructor
    · exact holds 0 (Nat.succ_pos _)
    · intro i bound
      have shifted := holds (i + 1) (Nat.succ_lt_succ bound)
      rwa [show address + (i + 1) = address + 1 + i by omega] at shifted
  · rintro ⟨here, holds⟩ i bound
    cases i with
    | zero => exact here
    | succ i =>
        have shifted := holds i (Nat.lt_of_succ_lt_succ bound)
        rwa [show address + 1 + i = address + (i + 1) by omega] at shifted

theorem Holds.congr
    {left right : Memory} {address : Nat} {bytes : List (BitVec 8)}
    (holds : Holds left address bytes)
    (agree : ∀ i, i < bytes.length →
      right (address + i) = left (address + i)) :
    Holds right address bytes := by
  intro i bound
  rw [agree i bound]
  exact holds i bound

/-- A zero-terminated string stands at an address. -/
structure HoldsString
    (memory : Memory) (address : Nat) (text : List (BitVec 8)) : Prop where
  bytes : Holds memory address text
  nonzero : ∀ c ∈ text, c ≠ 0
  terminator : memory (address + text.length) = 0

namespace HoldsString

variable
  {memory : Memory} {address : Nat} {first : BitVec 8}
  {others : List (BitVec 8)}

theorem head (holds : HoldsString memory address (first :: others)) :
    memory address = first :=
  (holds_cons.mp holds.bytes).1

theorem head_ne_zero
    (holds : HoldsString memory address (first :: others)) :
    memory address ≠ 0 := by
  rw [holds.head]
  exact holds.nonzero first List.mem_cons_self

/-- The same bytes in another memory are the same string. -/
theorem congr {other : Memory} {text : List (BitVec 8)}
    (holds : HoldsString memory address text)
    (agree : ∀ i, i ≤ text.length →
      other (address + i) = memory (address + i)) :
    HoldsString other address text where
  bytes := holds.bytes.congr fun i bound => agree i (Nat.le_of_lt bound)
  nonzero := holds.nonzero
  terminator := (agree text.length (Nat.le_refl _)).trans holds.terminator

/-- Behind the first character stands the rest of the string. -/
theorem tail (holds : HoldsString memory address (first :: others)) :
    HoldsString memory (address + 1) others := by
  constructor
  · exact (holds_cons.mp holds.bytes).2
  · intro c member
    exact holds.nonzero c (List.mem_cons_of_mem first member)
  · have last := holds.terminator
    rw [List.length_cons] at last
    rwa [show address + 1 + others.length =
      address + (others.length + 1) by omega]

end HoldsString

/-! ## Copying a region that may overlap its destination -/

/--
Of a copy from `src` to `dest`, exactly the bytes `[low, high)` have been done:
they hold what `memory` held at the source, and all others are untouched.
-/
structure Copied
    (memory result : Memory) (dest src low high : Nat) : Prop where
  inside :
    ∀ i, low ≤ i → i < high → result (dest + i) = memory (src + i)
  outside :
    ∀ a, a < dest + low ∨ dest + high ≤ a → result a = memory a

namespace Copied

variable {memory result : Memory} {dest src low high : Nat}

/-- Before the copy nothing is done. -/
theorem nothing (memory : Memory) (dest src start : Nat) :
    Copied memory memory dest src start start where
  inside i above below := by omega
  outside _ _ := rfl

/--
Upwards, the next source byte still has its original value when the
destination does not start above the source.
-/
theorem source_forward
    (copied : Copied memory result dest src 0 high) (below : dest ≤ src) :
    result (src + high) = memory (src + high) := by
  apply copied.outside
  omega

/-- One byte more of a copy upwards. -/
theorem forward
    (copied : Copied memory result dest src 0 high) (below : dest ≤ src) :
    Copied memory
      (Function.update result (dest + high) (result (src + high)))
      dest src 0 (high + 1) where
  inside i _ bound := by
    cases Nat.lt_succ_iff_lt_or_eq.mp bound with
    | inl earlier =>
        have different : dest + i ≠ dest + high := by omega
        rw [Function.update_of_ne different]
        exact copied.inside i (Nat.zero_le i) earlier
    | inr last =>
        subst last
        rw [Function.update_self]
        exact copied.source_forward below
  outside a apart := by
    have different : a ≠ dest + high := by omega
    rw [Function.update_of_ne different]
    apply copied.outside
    omega

/--
Downwards, the next source byte still has its original value when the
destination does not start below the source.
-/
theorem source_backward
    (copied : Copied memory result dest src (low + 1) high)
    (above : src ≤ dest) :
    result (src + low) = memory (src + low) := by
  apply copied.outside
  omega

/-- One byte more of a copy downwards. -/
theorem backward
    (copied : Copied memory result dest src (low + 1) high)
    (above : src ≤ dest) (bound : low < high) :
    Copied memory
      (Function.update result (dest + low) (result (src + low)))
      dest src low high where
  inside i least below := by
    cases Nat.eq_or_lt_of_le least with
    | inl first =>
        subst first
        rw [Function.update_self]
        exact copied.source_backward above
    | inr later =>
        have different : dest + i ≠ dest + low := by omega
        rw [Function.update_of_ne different]
        exact copied.inside i later below
  outside a apart := by
    have different : a ≠ dest + low := by omega
    rw [Function.update_of_ne different]
    apply copied.outside
    omega

end Copied

/-! ## Turning a region around in place -/

/-- Exchange two bytes. -/
def exchange (memory : Memory) (left right : Nat) : Memory :=
  Function.update
    (Function.update memory left (memory right)) right (memory left)

theorem exchange_left (memory : Memory) (left right : Nat) :
    exchange memory left right left = memory right := by
  by_cases same : left = right
  · subst same
    rw [exchange, Function.update_self]
  · rw [exchange, Function.update_of_ne same, Function.update_self]

theorem exchange_right (memory : Memory) (left right : Nat) :
    exchange memory left right right = memory left := by
  rw [exchange, Function.update_self]

theorem exchange_other
    (memory : Memory) {left right other : Nat}
    (notLeft : other ≠ left) (notRight : other ≠ right) :
    exchange memory left right other = memory other := by
  rw [exchange, Function.update_of_ne notRight,
    Function.update_of_ne notLeft]

/--
Of the turning around of the region from `low` to `high`, the outermost `done`
pairs have been exchanged.
-/
structure Mirrored
    (memory result : Memory) (low high done : Nat) : Prop where
  fromHigh : ∀ i, i < done → result (low + i) = memory (high - i)
  fromLow : ∀ i, i < done → result (high - i) = memory (low + i)
  rest :
    ∀ a, a < low ∨ high < a ∨ (low + done ≤ a ∧ a + done ≤ high) →
      result a = memory a

namespace Mirrored

variable {memory result : Memory} {low high done : Nat}

theorem nothing (memory : Memory) (low high : Nat) :
    Mirrored memory memory low high 0 where
  fromHigh _ bound := absurd bound (Nat.not_lt_zero _)
  fromLow _ bound := absurd bound (Nat.not_lt_zero _)
  rest _ _ := rfl

/-- One more pair, as long as the pairs have not met. -/
theorem exchange
    (mirrored : Mirrored memory result low high done)
    (apart : low + done + done ≤ high) :
    Mirrored memory
      (exchange result (low + done) (high - done)) low high (done + 1) where
  fromHigh i bound := by
    cases Nat.lt_succ_iff_lt_or_eq.mp bound with
    | inl earlier =>
        have notLeft : low + i ≠ low + done := by omega
        have notRight : low + i ≠ high - done := by omega
        rw [exchange_other _ notLeft notRight]
        exact mirrored.fromHigh i earlier
    | inr last =>
        subst last
        rw [exchange_left]
        exact mirrored.rest _ (by omega)
  fromLow i bound := by
    cases Nat.lt_succ_iff_lt_or_eq.mp bound with
    | inl earlier =>
        have notLeft : high - i ≠ low + done := by omega
        have notRight : high - i ≠ high - done := by omega
        rw [exchange_other _ notLeft notRight]
        exact mirrored.fromLow i earlier
    | inr last =>
        subst last
        rw [exchange_right]
        exact mirrored.rest _ (by omega)
  rest a apartFrom := by
    have notLeft : a ≠ low + done := by omega
    have notRight : a ≠ high - done := by omega
    rw [exchange_other _ notLeft notRight]
    exact mirrored.rest a (by omega)

/-- Once the pairs have met, every byte is where its mirror image was. -/
theorem complete
    (mirrored : Mirrored memory result low high done)
    (met : high ≤ low + (done + done)) {a : Nat}
    (least : low ≤ a) (most : a ≤ high) :
    result a = memory (low + high - a) := by
  by_cases lower : a < low + done
  · have moved := mirrored.fromHigh (a - low) (by omega)
    rwa [show low + (a - low) = a by omega,
      show high - (a - low) = low + high - a by omega] at moved
  · by_cases upper : high < a + done
    · have moved := mirrored.fromLow (high - a) (by omega)
      rwa [show high - (high - a) = a by omega,
        show low + (high - a) = low + high - a by omega] at moved
    · -- only the byte in the middle is in no pair
      have middle : low + high - a = a := by omega
      rw [middle]
      exact mirrored.rest a (by omega)

/-- A row of bytes that is turned around ends up in the mirrored place. -/
theorem holds
    (mirrored : Mirrored memory result low high done)
    (met : high ≤ low + (done + done)) {address : Nat}
    {bytes : List (BitVec 8)} (least : low ≤ address)
    (placed : address + bytes.length + address = low + high + 1)
    (before : Holds memory address bytes) :
    Holds result address bytes.reverse := by
  intro i bound
  have inside : i < bytes.length := by
    rwa [List.length_reverse] at bound
  have moved := mirrored.complete met
    (show low ≤ address + i by omega) (by omega)
  have source := before (bytes.length - 1 - i) (by omega)
  rw [moved, List.getElem_reverse, ← source]
  congr 1
  omega

end Mirrored

end Kernull.Library.ByteMemory
