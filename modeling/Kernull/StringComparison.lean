import Mathlib.Data.List.Lex
import Kernull.StringReading

/-!
# Comparison of strings

`strcmp` stops at the end of the shorter string without looking which one has
ended, so a string and its prefixes compare as equal; and it compares signed
characters, so the bytes from 0x80 on come before all others.  The order of
unsigned bytes is kept exactly by the strings of which none is a prefix of
another and which first differ within one half of the bytes.
-/

namespace Kernull.StringComparison

open Kernull.KernelString
open Kernull.StringReading
open Kernull.Library.GuardedMemory

/-! ## Lists of characters -/

/-- What the loops of `strcmp` and `strncmp` make of two strings. -/
def compareCharacters : List (BitVec 8) → List (BitVec 8) → Int
  | left :: lefts, right :: rights =>
      if left ≠ right then
        differenceSign left right
      else
        compareCharacters lefts rights
  | _, _ => 0

/--
Equal strings, and strings of which neither is a prefix of the other and whose
first bytes that differ are both below 0x80 or both not.
-/
def Comparable : List (BitVec 8) → List (BitVec 8) → Prop
  | left :: lefts, right :: rights =>
      if left = right then
        Comparable lefts rights
      else
        left.msb = right.msb
  | [], [] => True
  | _, _ => False

/-- The result is 0 for equal strings only, and negative for a lesser one. -/
structure ComparesRight
    (left right : List (BitVec 8)) (result : Int) : Prop where
  zero : result = 0 ↔ left = right
  negative : result < 0 ↔ left < right

/-- Signed characters are in the order of unsigned bytes within each half. -/
theorem differenceSign_neg_iff
    {left right : BitVec 8} (different : left ≠ right) :
    (differenceSign left right < 0 ↔ left < right) ↔
      left.msb = right.msb := by
  have leftBound := left.isLt
  have rightBound := right.isLt
  have apart : left.toNat ≠ right.toNat := fun same =>
    different (BitVec.eq_of_toNat_eq same)
  have sign : differenceSign left right < 0 ↔
      left.toInt < right.toInt := by
    rw [differenceSign]
    split_ifs with less
    · exact iff_of_true (by decide) less
    · exact iff_of_false (by decide) less
  rw [sign, BitVec.lt_def, BitVec.toInt_eq_toNat_cond,
    BitVec.toInt_eq_toNat_cond, BitVec.msb_eq_decide, BitVec.msb_eq_decide,
    decide_eq_decide]
  split_ifs <;> omega

theorem differenceSign_ne_zero (left right : BitVec 8) :
    differenceSign left right ≠ 0 := by
  rw [differenceSign]
  split_ifs <;> decide

/-- The comparison is right for comparable strings and for no others. -/
theorem comparesRight_iff (left right : List (BitVec 8)) :
    ComparesRight left right (compareCharacters left right) ↔
      Comparable left right := by
  induction left generalizing right with
  | nil =>
      cases right with
      | nil =>
          apply iff_of_true
          · constructor
            · exact iff_of_true rfl rfl
            · exact iff_of_false (Int.lt_irrefl 0) (List.not_lt_nil [])
          · trivial
      | cons other others =>
          apply iff_of_false
          · intro compares
            exact nomatch compares.zero.mp rfl
          · exact id
  | cons first lefts inductionHypothesis =>
      cases right with
      | nil =>
          apply iff_of_false
          · intro compares
            exact nomatch compares.zero.mp rfl
          · exact id
      | cons other rights =>
          rw [compareCharacters, Comparable]
          by_cases same : first = other
          · subst same
            rw [if_neg (not_not.mpr rfl), if_pos rfl,
              ← inductionHypothesis rights]
            constructor
            · intro compares
              constructor
              · rw [compares.zero, List.cons.injEq, and_iff_right rfl]
              · rw [compares.negative, List.cons_lt_cons_iff]
                simp
            · intro compares
              constructor
              · rw [compares.zero, List.cons.injEq, and_iff_right rfl]
              · rw [compares.negative, List.cons_lt_cons_iff]
                simp
          · rw [if_pos same, if_neg same, ← differenceSign_neg_iff same]
            have lists : first :: lefts < other :: rights ↔
                first < other := by
              rw [List.cons_lt_cons_iff]
              simp [same]
            constructor
            · intro compares
              rw [compares.negative, lists]
            · intro sign
              constructor
              · apply iff_of_false (differenceSign_ne_zero first other)
                intro equal
                exact same (List.cons.inj equal).1
              · rw [sign, lists]

/-- Turning the strings around turns the sign around, in any case. -/
theorem compareCharacters_swap (left right : List (BitVec 8)) :
    compareCharacters left right < 0 ↔
      0 < compareCharacters right left := by
  induction left generalizing right with
  | nil =>
      cases right with
      | nil => exact iff_of_false (Int.lt_irrefl 0) (Int.lt_irrefl 0)
      | cons other others =>
          exact iff_of_false (Int.lt_irrefl 0) (Int.lt_irrefl 0)
  | cons first lefts inductionHypothesis =>
      cases right with
      | nil => exact iff_of_false (Int.lt_irrefl 0) (Int.lt_irrefl 0)
      | cons other rights =>
          rw [compareCharacters, compareCharacters]
          by_cases same : first = other
          · subst same
            rw [if_neg (not_not.mpr rfl), if_neg (not_not.mpr rfl)]
            exact inductionHypothesis rights
          · have apart : first.toInt ≠ other.toInt := fun equal =>
              same (BitVec.eq_of_toInt_eq equal)
            rw [if_pos same, if_pos (Ne.symm same), differenceSign,
              differenceSign]
            split_ifs <;> omega

/-- Right comparisons are transitive. -/
theorem comparesRight_trans
    {left middle right : List (BitVec 8)} {first second third : Int}
    (comparesFirst : ComparesRight left middle first)
    (comparesSecond : ComparesRight middle right second)
    (comparesThird : ComparesRight left right third)
    (firstSign : first ≤ 0) (secondSign : second ≤ 0) : third ≤ 0 := by
  rcases Int.lt_or_eq_of_le firstSign with firstLess | firstZero
  · rcases Int.lt_or_eq_of_le secondSign with secondLess | secondZero
    · have less := List.lt_trans (comparesFirst.negative.mp firstLess)
        (comparesSecond.negative.mp secondLess)
      exact Int.le_of_lt (comparesThird.negative.mpr less)
    · have same := comparesSecond.zero.mp secondZero
      subst same
      exact Int.le_of_lt
        (comparesThird.negative.mpr (comparesFirst.negative.mp firstLess))
  · have same := comparesFirst.zero.mp firstZero
    subst same
    rcases Int.lt_or_eq_of_le secondSign with secondLess | secondZero
    · exact Int.le_of_lt
        (comparesThird.negative.mpr (comparesSecond.negative.mp secondLess))
    · exact Int.le_of_eq
        (comparesThird.zero.mpr (comparesSecond.zero.mp secondZero))

/-! ## The loops -/

/-- `strcmp` returns, and what. -/
theorem strcmpLoop_eq
    {memory : ReadableMemory} {s1 s2 rounds : Nat}
    {left right : List (BitVec 8)}
    (reads : ReadsString memory s1 left)
    (others : ReadsString memory s2 right) (enough : left.length < rounds) :
    strcmpLoop memory rounds s1 s2 =
      some (compareCharacters left right) := by
  induction rounds generalizing left right s1 s2 with
  | zero => exact absurd enough (Nat.not_lt_zero _)
  | succ rounds inductionHypothesis =>
      rw [strcmpLoop]
      cases left with
      | nil =>
          rw [reads.empty]
          rfl
      | cons first lefts =>
          simp only [reads.head, Option.bind_eq_bind, Option.bind_some,
            if_pos reads.head_ne_zero]
          cases right with
          | nil =>
              rw [others.empty]
              rfl
          | cons other rights =>
              simp only [others.head, Option.bind_some,
                if_pos others.head_ne_zero]
              rw [pointerAdd_one reads, pointerAdd_one others,
                inductionHypothesis reads.tail others.tail
                  (Nat.lt_of_succ_lt_succ enough), compareCharacters]
              split_ifs <;> rfl

theorem strcmp_eq
    {memory : ReadableMemory} (left right : StringIn memory) :
    strcmp memory left.address right.address =
      some (compareCharacters left.text right.text) := by
  have fits := left.stands.fits
  apply strcmpLoop_eq left.stands right.stands
  rw [addresses]
  omega

/-- `strncmp` compares the first characters. -/
theorem strncmp_eq
    {memory : ReadableMemory} {s1 s2 : Nat}
    {left right : List (BitVec 8)}
    (reads : ReadsString memory s1 left)
    (others : ReadsString memory s2 right) (n : Nat) :
    strncmp memory s1 s2 n =
      some (compareCharacters (left.take n) (right.take n)) := by
  induction n generalizing left right s1 s2 with
  | zero =>
      rw [List.take_zero, List.take_zero]
      rfl
  | succ n inductionHypothesis =>
      rw [strncmp]
      cases left with
      | nil =>
          rw [reads.empty]
          rfl
      | cons first lefts =>
          simp only [reads.head, Option.bind_eq_bind, Option.bind_some,
            if_pos reads.head_ne_zero]
          cases right with
          | nil =>
              rw [others.empty]
              rfl
          | cons other rights =>
              simp only [others.head, Option.bind_some,
                if_pos others.head_ne_zero]
              rw [pointerAdd_one reads, pointerAdd_one others,
                inductionHypothesis reads.tail others.tail,
                List.take_succ_cons, List.take_succ_cons,
                compareCharacters]
              split_ifs <;> rfl

/-! ## The order of strings -/

/--
`strcmp` is a total order on the given strings: it returns 0 for equal strings
only and a negative value for a lesser one, which makes it antisymmetric and
transitive.
-/
structure TotalOrder (memory : ReadableMemory)
    (strings : List (StringIn memory)) : Prop where
  compares : ∀ left ∈ strings, ∀ right ∈ strings,
    ∃ result, strcmp memory left.address right.address = some result ∧
      ComparesRight left.text right.text result
  antisymmetric : ∀ left ∈ strings, ∀ right ∈ strings, ∀ result turned,
    strcmp memory left.address right.address = some result →
    strcmp memory right.address left.address = some turned →
      (result < 0 ↔ 0 < turned)
  transitive : ∀ left ∈ strings, ∀ middle ∈ strings, ∀ right ∈ strings,
    ∀ first second third,
      strcmp memory left.address middle.address = some first →
      strcmp memory middle.address right.address = some second →
      strcmp memory left.address right.address = some third →
        first ≤ 0 → second ≤ 0 → third ≤ 0

/-- A comparison of two strings that is right. -/
theorem compares_iff {memory : ReadableMemory}
    (left right : StringIn memory) :
    (∃ result, strcmp memory left.address right.address = some result ∧
        ComparesRight left.text right.text result) ↔
      Comparable left.text right.text := by
  rw [strcmp_eq, ← comparesRight_iff]
  simp

theorem totalOrder_iff {memory : ReadableMemory}
    (strings : List (StringIn memory)) :
    TotalOrder memory strings ↔
      ∀ left ∈ strings, ∀ right ∈ strings,
        Comparable left.text right.text := by
  constructor
  · intro order left leftMember right rightMember
    exact (compares_iff left right).mp
      (order.compares left leftMember right rightMember)
  · intro comparable
    constructor
    · intro left leftMember right rightMember
      exact (compares_iff left right).mpr
        (comparable left leftMember right rightMember)
    · intro left _ right _ result turned compared turnedCompared
      rw [strcmp_eq] at compared turnedCompared
      rw [← Option.some.inj compared, ← Option.some.inj turnedCompared]
      exact compareCharacters_swap left.text right.text
    · intro left leftMember middle middleMember right rightMember
        first second third firstCompared secondCompared thirdCompared
      rw [strcmp_eq] at firstCompared secondCompared thirdCompared
      rw [← Option.some.inj firstCompared,
        ← Option.some.inj secondCompared, ← Option.some.inj thirdCompared]
      exact comparesRight_trans
        ((comparesRight_iff _ _).mpr
          (comparable left leftMember middle middleMember))
        ((comparesRight_iff _ _).mpr
          (comparable middle middleMember right rightMember))
        ((comparesRight_iff _ _).mpr
          (comparable left leftMember right rightMember))

/--
On any three strings, `strcmp` is a total order exactly when any two of them
are comparable; and for every count `strncmp` returns what `strcmp` returns
for the first characters, wherever they stand as strings.
-/
theorem strcmp_total_order_iff
    {memory : ReadableMemory} (a b c : StringIn memory) (n : Nat) :
    (TotalOrder memory [a, b, c] ↔
      ∀ left ∈ [a, b, c], ∀ right ∈ [a, b, c],
        Comparable left.text right.text) ∧
    ∀ (elsewhere : ReadableMemory) (front other : StringIn elsewhere),
      front.text = a.text.take n → other.text = b.text.take n →
        ∃ result,
          strncmp memory a.address b.address n = some result ∧
          strcmp elsewhere front.address other.address = some result := by
  constructor
  · exact totalOrder_iff [a, b, c]
  · intro elsewhere front other frontText otherText
    refine ⟨_, strncmp_eq a.stands b.stands n, ?_⟩
    rw [strcmp_eq, frontText, otherText]

/-- Memory with the strings `a` at 0x1000 and the empty one behind it. -/
def letterMemory : ReadableMemory :=
  fun address => some (if address = 0x1000 then 0x61 else 0)

/-- The string `a`. -/
def letterString : StringIn letterMemory where
  address := 0x1000
  text := [0x61]
  stands :=
    { bytes := by decide
      nonzero := by decide
      terminator := by decide
      fits := by decide }

/-- The empty string. -/
def emptyString : StringIn letterMemory where
  address := 0x1001
  text := []
  stands :=
    { bytes := by decide
      nonzero := by decide
      terminator := by decide
      fits := by decide }

/-- The empty string and `a` compare as equal. -/
theorem prefix_compares_as_equal :
    ¬ ∀ (memory : ReadableMemory) (a b c : StringIn memory),
      TotalOrder memory [a, b, c] := by
  intro always
  have order := always letterMemory letterString emptyString emptyString
  have comparable := (totalOrder_iff _).mp order letterString
    List.mem_cons_self emptyString
    (List.mem_cons_of_mem _ List.mem_cons_self)
  exact comparable

end Kernull.StringComparison
