import Mathlib.Data.Nat.Digits.Lemmas

/-!
# Numerals

The numeral of a number in a base: its digits, most significant first, with a
single zero for the number zero.  Reading a numeral from the left gives the
number back, no numeral of a positive number starts with a zero, and the
length is bounded by the power of the base that bounds the number.
-/

namespace Kernull.Library.Numeral

/-- The digits of a number, most significant first. -/
def numeral (base num : Nat) : List Nat :=
  if num = 0 then [0] else (Nat.digits base num).reverse

/-- The number that a list of digits denotes, read from the left. -/
def readNumeral (base : Nat) (places : List Nat) : Nat :=
  places.foldl (fun value digit => value * base + digit) 0

@[simp]
theorem numeral_zero (base : Nat) : numeral base 0 = [0] :=
  rfl

theorem numeral_of_ne_zero {base num : Nat} (nonzero : num ≠ 0) :
    numeral base num = (Nat.digits base num).reverse :=
  if_neg nonzero

/-- Reading from the left is evaluating the reversed list from the right. -/
theorem readNumeral_reverse (base : Nat) (places : List Nat) :
    readNumeral base places.reverse = Nat.ofDigits base places := by
  rw [readNumeral, List.foldl_reverse, Nat.ofDigits_eq_foldr]
  congr 1
  ext digit value
  simp [Nat.mul_comm, Nat.add_comm]

/-- Reading a numeral gives its number back. -/
theorem readNumeral_numeral (base num : Nat) :
    readNumeral base (numeral base num) = num := by
  by_cases nonzero : num = 0
  · subst nonzero
    simp [readNumeral]
  · rw [numeral_of_ne_zero nonzero, readNumeral_reverse,
      Nat.ofDigits_digits]

theorem numeral_ne_nil (base num : Nat) : numeral base num ≠ [] := by
  by_cases nonzero : num = 0
  · simp [nonzero]
  · rw [numeral_of_ne_zero nonzero]
    intro empty
    exact
      Nat.digits_ne_nil_iff_ne_zero.mpr nonzero
        (List.reverse_eq_nil_iff.mp empty)

theorem numeral_length_pos (base num : Nat) :
    0 < (numeral base num).length :=
  List.length_pos_of_ne_nil (numeral_ne_nil base num)

/-- Every digit is below the base. -/
theorem lt_base_of_mem_numeral
    {base num digit : Nat} (atLeastTwo : 2 ≤ base)
    (member : digit ∈ numeral base num) : digit < base := by
  by_cases nonzero : num = 0
  · subst nonzero
    have zero : digit = 0 := by simpa using member
    omega
  · rw [numeral_of_ne_zero nonzero, List.mem_reverse] at member
    exact Nat.digits_lt_base atLeastTwo member

/-- A positive number's numeral has no leading zero. -/
theorem head_numeral_ne_zero
    {base num : Nat} (nonzero : num ≠ 0) :
    (numeral base num).head (numeral_ne_nil base num) ≠ 0 := by
  simp only [numeral_of_ne_zero nonzero, List.head_reverse]
  exact Nat.getLast_digit_ne_zero base nonzero

/-- A number below a power of the base has no more digits than the power. -/
theorem numeral_length_le
    {base num width : Nat} (atLeastTwo : 2 ≤ base) (positive : 0 < width)
    (bound : num < base ^ width) :
    (numeral base num).length ≤ width := by
  by_cases nonzero : num = 0
  · subst nonzero
    exact positive
  · rw [numeral_of_ne_zero nonzero, List.length_reverse]
    exact (Nat.digits_length_le_iff atLeastTwo num).mpr bound

/-- The digits of a positive number, from the lowest. -/
theorem digits_step
    {base num : Nat} (atLeastTwo : 2 ≤ base) (nonzero : num ≠ 0) :
    Nat.digits base num = num % base :: Nat.digits base (num / base) :=
  Nat.digits_def' atLeastTwo (Nat.pos_of_ne_zero nonzero)

end Kernull.Library.Numeral
