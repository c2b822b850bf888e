import Mathlib.Algebra.Group.Nat.Defs
import Mathlib.Tactic.Common

/-!
# Registers with parts of their own

A 32-bit general register whose low half is a register of 16 bits, which in
turn consists of two bytes: `eax` with `ax`, `ah` and `al`.  Writing a part
leaves the others as they are.
-/

namespace Kernull.Library.Registers

/-- A 32-bit register, as its upper half and the two bytes of its lower half. -/
@[ext]
structure Register where
  upper : BitVec 16
  high : BitVec 8
  low : BitVec 8
deriving DecidableEq

namespace Register

/-- The lower half. -/
def word (register : Register) : BitVec 16 :=
  register.high ++ register.low

/-- The whole register. -/
def value (register : Register) : BitVec 32 :=
  register.upper ++ register.word

/-- Write the lower half. -/
def setWord (register : Register) (word : BitVec 16) : Register :=
  { register with
    high := word.extractLsb' 8 8
    low := word.extractLsb' 0 8 }

/-- The register that holds a value. -/
def ofValue (value : BitVec 32) : Register where
  upper := value.extractLsb' 16 16
  high := value.extractLsb' 8 8
  low := value.extractLsb' 0 8

variable (register : Register)

theorem word_toNat :
    register.word.toNat = register.high.toNat * 2 ^ 8 + register.low.toNat := by
  have small : register.low.toNat < 2 ^ 8 := register.low.isLt
  rw [word, BitVec.toNat_append, ← Nat.shiftLeft_add_eq_or_of_lt small,
    Nat.shiftLeft_eq]

theorem value_toNat :
    register.value.toNat =
      register.upper.toNat * 2 ^ 16 + register.word.toNat := by
  have small : register.word.toNat < 2 ^ 16 := register.word.isLt
  rw [value, BitVec.toNat_append, ← Nat.shiftLeft_add_eq_or_of_lt small,
    Nat.shiftLeft_eq]

@[simp]
theorem word_setWord (word : BitVec 16) :
    (register.setWord word).word = word := by
  apply BitVec.eq_of_toNat_eq
  rw [word_toNat, setWord]
  simp only [BitVec.extractLsb'_toNat, Nat.shiftRight_eq_div_pow]
  have bound := word.isLt
  omega

/-- Writing back what the lower half held changes nothing. -/
@[simp]
theorem setWord_word : register.setWord register.word = register := by
  have small := register.low.isLt
  have smallHigh := register.high.isLt
  ext1
  · rfl
  · apply BitVec.eq_of_toNat_eq
    simp only [setWord, BitVec.extractLsb'_toNat, word_toNat,
      Nat.shiftRight_eq_div_pow]
    omega
  · apply BitVec.eq_of_toNat_eq
    simp only [setWord, BitVec.extractLsb'_toNat, word_toNat,
      Nat.shiftRight_eq_div_pow]
    omega

@[simp]
theorem value_ofValue (value : BitVec 32) : (ofValue value).value = value := by
  apply BitVec.eq_of_toNat_eq
  rw [value_toNat, word_toNat, ofValue]
  simp only [BitVec.extractLsb'_toNat, Nat.shiftRight_eq_div_pow]
  have bound := value.isLt
  omega

@[simp]
theorem ofValue_value : ofValue register.value = register := by
  have small := register.low.isLt
  have smallHigh := register.high.isLt
  ext1
  · apply BitVec.eq_of_toNat_eq
    simp only [ofValue, BitVec.extractLsb'_toNat, value_toNat, word_toNat,
      Nat.shiftRight_eq_div_pow]
    have smallUpper := register.upper.isLt
    omega
  · apply BitVec.eq_of_toNat_eq
    simp only [ofValue, BitVec.extractLsb'_toNat, value_toNat, word_toNat,
      Nat.shiftRight_eq_div_pow]
    omega
  · apply BitVec.eq_of_toNat_eq
    simp only [ofValue, BitVec.extractLsb'_toNat, value_toNat, word_toNat,
      Nat.shiftRight_eq_div_pow]
    omega

/-- The lower half holds the value modulo its width. -/
theorem word_ofValue (count : Nat) :
    (ofValue (BitVec.ofNat 32 count)).word = BitVec.ofNat 16 count := by
  have whole := congrArg BitVec.toNat (value_ofValue (BitVec.ofNat 32 count))
  have bound := (ofValue (BitVec.ofNat 32 count)).word.isLt
  apply BitVec.eq_of_toNat_eq
  rw [value_toNat, BitVec.toNat_ofNat] at whole
  rw [BitVec.toNat_ofNat]
  omega

end Register

end Kernull.Library.Registers
