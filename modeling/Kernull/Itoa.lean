import Kernull.Library.ByteMemory
import Kernull.Library.Numeral

/-!
# Number printing

`itoa` of `kernel/printk.c`: the digits are stored lowest first, a terminator
is put behind them, and a loop over 8-bit indices turns them around in place.
The loop starts at the index of the terminator, so its first round exchanges
the terminator with the byte before the buffer.  The module says exactly what
memory holds afterwards, and from that when the numeral comes out whole.
-/

namespace Kernull.Itoa

open Kernull.Library.ByteMemory
open Kernull.Library.Numeral

/-- `digits`: the characters `0` to `9` and `a` to `f`. -/
def digits : List Nat :=
  [0x30, 0x31, 0x32, 0x33, 0x34, 0x35, 0x36, 0x37,
   0x38, 0x39, 0x61, 0x62, 0x63, 0x64, 0x65, 0x66]

/-- The address of `buf[index]`, for an `int` index. -/
def element (buf : Nat) (index : Int) : Nat :=
  ((buf + index) % 2 ^ 64).toNat

/-- `++` on a `u8`. -/
def increment8 (value : Nat) : Nat :=
  (value + 1) % 256

/-- `value - 1` on a `u8`. -/
def decrement8 (value : Nat) : Nat :=
  (value + 255) % 256

/--
`while (num != 0)`: the index after the loop and the memory.  There is no
result where the division traps, where a remainder is past the table, and
where 64 digits are not enough.
-/
def storeDigits (buf base : Nat) :
    Nat → Nat → Nat → Memory → Option (Nat × Memory)
  | rounds, num, idx, memory =>
    if num = 0 then
      some (idx, memory)
    else
      match rounds with
      | 0 => none
      | rounds + 1 =>
          if base = 0 then
            none
          else
            match digits[num % base]? with
            | none => none
            | some digit =>
                storeDigits buf base rounds (num / base) (increment8 idx)
                  (Function.update memory (element buf idx)
                    (BitVec.ofNat 8 digit))

/--
`while (idx >= pivot)`: exchange `buf[end - idx]` and `buf[idx]` and step `idx`
down, which wraps at zero.
-/
def reverseDigits (buf endIdx pivot : Nat) :
    Nat → Nat → Memory → Option Memory
  | 0, _, _ => none
  | rounds + 1, idx, memory =>
      if pivot ≤ idx then
        reverseDigits buf endIdx pivot rounds (decrement8 idx)
          (exchange memory (element buf (endIdx - idx)) (element buf idx))
      else
        some memory

/-- The number of values of a `u8`, which bounds the second loop. -/
def reverseRounds : Nat := 256

/-- The number of bits of `num`, which bounds the first loop. -/
def digitRounds : Nat := 64

/-- The digits, lowest first: the `if` of `itoa`. -/
def storeNumeral (buf num base : Nat) (memory : Memory) :
    Option (Nat × Memory) :=
  if num = 0 then
    some (1, Function.update memory (element buf 0) 0x30)
  else
    storeDigits buf base digitRounds num 0 memory

/-- `itoa`: the memory after it. -/
def itoa (buf num base : Nat) (memory : Memory) : Option Memory := do
  let (idx, memory) ← storeNumeral buf num base memory
  let memory := Function.update memory (element buf idx) 0
  let endIdx := decrement8 idx
  let pivot := (idx + 1) / 2
  reverseDigits buf endIdx pivot reverseRounds idx memory

/-! ## Digits and their characters -/

/-- The character that stands for a digit. -/
def digitChar (digit : Nat) : BitVec 8 :=
  BitVec.ofNat 8 (digits.getD digit 0)

/-- The digit that a character stands for. -/
def digitValue (c : BitVec 8) : Nat :=
  digits.idxOf c.toNat

theorem digits_lookup {digit : Nat} (small : digit < 16) :
    digits[digit]? = some (digits.getD digit 0) := by
  interval_cases digit <;> rfl

theorem digitChar_ne_zero {digit : Nat} (small : digit < 16) :
    digitChar digit ≠ 0 := by
  interval_cases digit <;> decide

theorem digitValue_digitChar {digit : Nat} (small : digit < 16) :
    digitValue (digitChar digit) = digit := by
  interval_cases digit <;> decide

/-- The numeral of a number as characters. -/
def numeralText (base num : Nat) : List (BitVec 8) :=
  (numeral base num).map digitChar

/-- The number that a text of digits denotes. -/
def readText (base : Nat) (text : List (BitVec 8)) : Nat :=
  readNumeral base (text.map digitValue)

section Numerals

variable {base num : Nat}

theorem numeralText_length :
    (numeralText base num).length = (numeral base num).length :=
  List.length_map _

theorem numeralText_nonzero
    (atLeastTwo : 2 ≤ base) (atMost : base ≤ 16) :
    ∀ c ∈ numeralText base num, c ≠ 0 := by
  intro c member
  rcases List.mem_map.mp member with ⟨digit, digitMember, equal⟩
  have below := lt_base_of_mem_numeral atLeastTwo digitMember
  rw [← equal]
  exact digitChar_ne_zero (by omega)

/-- Reading the characters of a numeral gives its number back. -/
theorem readText_numeralText
    (atLeastTwo : 2 ≤ base) (atMost : base ≤ 16) :
    readText base (numeralText base num) = num := by
  have pointwise :
      ∀ digit ∈ numeral base num,
        (digitValue ∘ digitChar) digit = id digit := by
    intro digit member
    have below := lt_base_of_mem_numeral atLeastTwo member
    exact digitValue_digitChar (by omega)
  rw [readText, numeralText, List.map_map, List.map_congr_left pointwise,
    List.map_id, readNumeral_numeral]

/-- What the numeral of a number is, apart from how it is computed. -/
structure IsNumeral
    (base num : Nat) (text : List (BitVec 8)) : Prop where
  nonempty : text ≠ []
  characters : ∀ c ∈ text, ∃ digit, digit < base ∧ c = digitChar digit
  reads : readText base text = num
  noLeadingZero : text.head? = some (digitChar 0) → text = [digitChar 0]

/-- Different digits have different characters. -/
theorem digitChar_inj {left right : Nat}
    (leftSmall : left < 16) (rightSmall : right < 16)
    (same : digitChar left = digitChar right) : left = right := by
  rw [← digitValue_digitChar leftSmall, same,
    digitValue_digitChar rightSmall]

theorem isNumeral_numeralText
    (atLeastTwo : 2 ≤ base) (atMost : base ≤ 16) :
    IsNumeral base num (numeralText base num) := by
  have nonempty := numeral_ne_nil base num
  constructor
  · exact fun empty => nonempty (List.map_eq_nil_iff.mp empty)
  · intro c member
    rcases List.mem_map.mp member with ⟨digit, digitMember, equal⟩
    exact ⟨digit, lt_base_of_mem_numeral atLeastTwo digitMember, equal.symm⟩
  · exact readText_numeralText atLeastTwo atMost
  · intro zeroFirst
    rw [numeralText, List.head?_map, List.head?_eq_some_head nonempty,
      Option.map_some, Option.some_inj] at zeroFirst
    have below :=
      lt_base_of_mem_numeral atLeastTwo (List.head_mem nonempty)
    have zero := digitChar_inj (by omega) (by omega) zeroFirst
    by_cases nonzero : num = 0
    · subst nonzero
      rfl
    · exact absurd zero (head_numeral_ne_zero nonzero)

end Numerals

/-! ## The digit loop -/

theorem element_eq
    {buf address : Nat} {index : Int} (small : address < 2 ^ 64)
    (placed : (address : Int) = buf + index) :
    element buf index = address := by
  rw [element]
  omega

theorem element_of_lt {buf index : Nat} (small : buf + index < 2 ^ 64) :
    element buf index = buf + index :=
  element_eq small (Nat.cast_add buf index)

/-- What the digit loop stores: the remaining digits, lowest first. -/
structure DigitsStored
    (memory after : Memory) (start base num : Nat) : Prop where
  places :
    Holds after start ((Nat.digits base num).map digitChar)
  rest :
    ∀ a, a < start ∨ start + (Nat.digits base num).length ≤ a →
      after a = memory a

/-- One digit stored in front of the digits of the quotient. -/
theorem DigitsStored.cons
    {memory after : Memory} {start base num : Nat}
    (atLeastTwo : 2 ≤ base) (nonzero : num ≠ 0)
    (stored :
      DigitsStored
        (Function.update memory start (digitChar (num % base)))
        after (start + 1) base (num / base)) :
    DigitsStored memory after start base num := by
  have step := digits_step atLeastTwo nonzero
  have here : after start = digitChar (num % base) := by
    rw [stored.rest start (Or.inl (Nat.lt_succ_self start)),
      Function.update_self]
  constructor
  · rw [step, List.map_cons]
    exact holds_cons.mpr ⟨here, stored.places⟩
  · intro a apart
    rw [step, List.length_cons] at apart
    have different : a ≠ start := by omega
    rw [stored.rest a (by omega), Function.update_of_ne different]

/-- The digit loop ends behind the last digit, with all digits stored. -/
theorem storeDigits_stored
    {buf base rounds num idx : Nat} (memory : Memory)
    (atLeastTwo : 2 ≤ base) (atMost : base ≤ 16)
    (bound : num < base ^ rounds)
    (indexFits : idx + (Nat.digits base num).length < 256)
    (fits : buf + idx + (Nat.digits base num).length < 2 ^ 64) :
    ∃ after,
      storeDigits buf base rounds num idx memory =
          some (idx + (Nat.digits base num).length, after) ∧
        DigitsStored memory after (buf + idx) base num := by
  induction rounds generalizing num idx memory with
  | zero =>
      have zero : num = 0 := Nat.lt_one_iff.mp bound
      subst zero
      refine ⟨memory, ?_, ?_, fun _ _ => rfl⟩
      · simp [storeDigits]
      · rw [Nat.digits_zero]
        exact holds_nil memory _
  | succ rounds inductionHypothesis =>
      by_cases nonzero : num = 0
      · subst nonzero
        refine ⟨memory, ?_, ?_, fun _ _ => rfl⟩
        · simp [storeDigits]
        · rw [Nat.digits_zero]
          exact holds_nil memory _
      · have step := digits_step atLeastTwo nonzero
        have remainder : num % base < base := Nat.mod_lt num (by omega)
        have quotient : num / base < base ^ rounds := by
          apply Nat.div_lt_of_lt_mul
          rwa [pow_succ'] at bound
        rw [step, List.length_cons] at indexFits fits
        have index : increment8 idx = idx + 1 :=
          Nat.mod_eq_of_lt (by omega)
        have address : element buf idx = buf + idx :=
          element_of_lt (by omega)
        let updated :=
          Function.update memory (buf + idx) (digitChar (num % base))
        have rest :
            ∃ after,
              storeDigits buf base rounds (num / base) (idx + 1) updated =
                  some (idx + 1 + (Nat.digits base (num / base)).length,
                    after) ∧
                DigitsStored updated after (buf + (idx + 1)) base
                  (num / base) :=
          inductionHypothesis updated quotient (by omega) (by omega)
        rcases rest with ⟨after, run, stored⟩
        refine ⟨after, ?_, stored.cons atLeastTwo nonzero⟩
        have basePositive : base ≠ 0 := by omega
        have lookup := digits_lookup (show num % base < 16 by omega)
        rw [storeDigits, if_neg nonzero, step, List.length_cons]
        simp only [if_neg basePositive, lookup, index, address]
        rw [show idx + ((Nat.digits base (num / base)).length + 1) =
          idx + 1 + (Nat.digits base (num / base)).length by omega]
        exact run

/-! ## The exchange loop -/

/--
The exchange loop, entered with `done` pairs exchanged already, goes on until
the pairs have met.
-/
theorem reverseDigits_mirrored
    {memory result : Memory} {buf count done rounds : Nat}
    (positive : 0 < buf) (nonempty : 0 < count) (small : count < 256)
    (fits : buf + count < 2 ^ 64) (started : done ≤ count / 2 + 1)
    (enough : count / 2 + 1 < done + rounds)
    (mirrored : Mirrored memory result (buf - 1) (buf + count) done) :
    ∃ after,
      reverseDigits buf (count - 1) ((count + 1) / 2) rounds (count - done)
          result = some after ∧
        Mirrored memory after (buf - 1) (buf + count) (count / 2 + 1) := by
  induction rounds generalizing done result with
  | zero => omega
  | succ rounds inductionHypothesis =>
      rw [reverseDigits]
      by_cases more : (count + 1) / 2 ≤ count - done
      · have left :
            element buf ((count - 1 : Nat) - (count - done : Nat)) =
              buf - 1 + done :=
          element_eq (by omega) (by omega)
        have right :
            element buf (count - done : Nat) = buf + count - done :=
          element_eq (by omega) (by omega)
        have next : decrement8 (count - done) = count - (done + 1) := by
          rw [decrement8]
          omega
        rw [if_pos more, left, right, next]
        apply inductionHypothesis
        · omega
        · omega
        · exact mirrored.exchange (by omega)
      · have finished : done = count / 2 + 1 := by omega
        rw [if_neg more]
        subst finished
        exact ⟨result, rfl, mirrored⟩

/-! ## The whole function -/

/--
What `itoa` leaves: the numeral, but behind it the byte that was before the
buffer, and before the buffer the terminator.
-/
structure Printed
    (memory after : Memory) (buf : Nat) (text : List (BitVec 8)) : Prop where
  bytes : Holds after buf text
  behind : after (buf + text.length) = memory (buf - 1)
  before : after (buf - 1) = 0
  rest :
    ∀ a, a + 1 < buf ∨ buf + text.length < a → after a = memory a

section Run

variable {buf num base : Nat}

theorem numeralText_reverse (nonzero : num ≠ 0) :
    (numeralText base num).reverse =
      (Nat.digits base num).map digitChar := by
  rw [numeralText, numeral_of_ne_zero nonzero, List.map_reverse,
    List.reverse_reverse]

theorem numeralText_length_pos : 0 < (numeralText base num).length := by
  rw [numeralText_length]
  exact numeral_length_pos base num

/-- A number of 64 bits has at most 64 digits. -/
theorem numeralText_length_le
    (atLeastTwo : 2 ≤ base) (small : num < 2 ^ 64) :
    (numeralText base num).length ≤ 64 := by
  have power : 2 ^ 64 ≤ base ^ 64 := Nat.pow_le_pow_left atLeastTwo 64
  rw [numeralText_length]
  exact numeral_length_le atLeastTwo (by decide) (by omega)

/-- The first half of `itoa`: the digits stand in the buffer, lowest first. -/
theorem exists_stored
    (memory : Memory) (atLeastTwo : 2 ≤ base) (atMost : base ≤ 16)
    (small : num < 2 ^ 64)
    (fits : buf + (numeralText base num).length < 2 ^ 64) :
    ∃ stored,
      storeNumeral buf num base memory =
          some ((numeralText base num).length, stored) ∧
        Holds stored buf (numeralText base num).reverse ∧
        ∀ a, a < buf ∨ buf + (numeralText base num).length ≤ a →
          stored a = memory a := by
  rw [storeNumeral]
  by_cases nonzero : num = 0
  · subst nonzero
    have start : element buf 0 = buf := element_eq (by omega) (by simp)
    have single : numeralText base 0 = [0x30] := rfl
    rw [if_pos rfl, start, single]
    refine ⟨_, rfl, ?_, ?_⟩
    · apply holds_cons.mpr
      constructor
      · exact Function.update_self buf _ memory
      · exact holds_nil _ _
    · intro a apart
      rw [List.length_singleton] at apart
      exact Function.update_of_ne (by omega) _ _
  · have length :
        (numeralText base num).length = (Nat.digits base num).length := by
      rw [← List.length_reverse, numeralText_reverse nonzero,
        List.length_map]
    have atMostSixtyFour := numeralText_length_le atLeastTwo small
    have power : 2 ^ 64 ≤ base ^ 64 := Nat.pow_le_pow_left atLeastTwo 64
    have loop :
        ∃ stored,
          storeDigits buf base digitRounds num 0 memory =
              some (0 + (Nat.digits base num).length, stored) ∧
            DigitsStored memory stored (buf + 0) base num :=
      storeDigits_stored memory atLeastTwo atMost
        (Nat.lt_of_lt_of_le small power) (by omega) (by omega)
    rcases loop with ⟨stored, run, digitsStored⟩
    rw [if_neg nonzero, run, numeralText_reverse nonzero, length,
      Nat.zero_add]
    exact ⟨stored, rfl, digitsStored.places, digitsStored.rest⟩

/--
Exchanging the bytes from `buf[-1]` to the terminator turns the digits around,
and the terminator with the byte before them.
-/
theorem printed_of_mirrored
    {memory stored after : Memory} {text : List (BitVec 8)} {rounds : Nat}
    (positive : 0 < buf) (nonempty : 0 < text.length)
    (bytes : Holds stored buf text.reverse)
    (rest : ∀ a, a < buf ∨ buf + text.length ≤ a → stored a = memory a)
    (mirrored :
      Mirrored (Function.update stored (buf + text.length) 0) after
        (buf - 1) (buf + text.length) rounds)
    (met : buf + text.length ≤ buf - 1 + (rounds + rounds)) :
    Printed memory after buf text := by
  have terminator :
      Function.update stored (buf + text.length) 0 (buf + text.length) =
        0 :=
    Function.update_self _ _ _
  have elsewhere :
      ∀ a, a < buf ∨ buf + text.length < a →
        Function.update stored (buf + text.length) 0 a = memory a := by
    intro a apart
    have different : a ≠ buf + text.length := by omega
    have stays := rest a (by omega)
    rwa [← Function.update_of_ne different 0 stored] at stays
  have digitsStay :
      Holds (Function.update stored (buf + text.length) 0) buf
        text.reverse := by
    apply bytes.congr
    intro i bound
    rw [List.length_reverse] at bound
    exact Function.update_of_ne (by omega) _ _
  have turned :=
    mirrored.holds met (Nat.sub_le buf 1)
      (by rw [List.length_reverse]; omega) digitsStay
  constructor
  · rwa [List.reverse_reverse] at turned
  · rw [mirrored.complete met (by omega) (Nat.le_refl _),
      ← elsewhere (buf - 1) (by omega)]
    congr 1
    omega
  · rw [mirrored.complete met (Nat.le_refl _) (by omega), ← terminator]
    congr 1
    omega
  · intro a apart
    rw [mirrored.rest a (by omega)]
    exact elsewhere a (by omega)

/-- `itoa` returns, and what it leaves in memory. -/
theorem itoa_printed
    (memory : Memory) (positive : 0 < buf)
    (atLeastTwo : 2 ≤ base) (atMost : base ≤ 16) (small : num < 2 ^ 64)
    (fits : buf + (numeralText base num).length < 2 ^ 64) :
    ∃ after,
      itoa buf num base memory = some after ∧
        Printed memory after buf (numeralText base num) := by
  rcases exists_stored memory atLeastTwo atMost small fits with
    ⟨stored, run, bytes, rest⟩
  have nonempty : 0 < (numeralText base num).length :=
    numeralText_length_pos
  have atMostSixtyFour := numeralText_length_le atLeastTwo small
  generalize (numeralText base num) = text at *
  have last : decrement8 text.length = text.length - 1 := by
    rw [decrement8]
    omega
  have enough : text.length / 2 + 1 < 0 + reverseRounds := by
    rw [reverseRounds]
    omega
  have loop :=
    reverseDigits_mirrored positive nonempty (by omega) fits
      (Nat.zero_le _) enough
      (Mirrored.nothing (Function.update stored (buf + text.length) 0)
        (buf - 1) (buf + text.length))
  rcases loop with ⟨after, loop, mirrored⟩
  refine ⟨after, ?_, ?_⟩
  · rw [itoa, run]
    simp only [Option.bind_eq_bind, Option.bind_some, last,
      element_of_lt fits]
    exact loop
  · exact
      printed_of_mirrored positive nonempty bytes rest mirrored (by omega)

/--
`itoa` does its work: the numeral stands in the buffer as a string and memory
around the buffer is as before.
-/
def PrintsNumeral (memory : Memory) (buf num base : Nat) : Prop :=
  ∃ after,
    itoa buf num base memory = some after ∧
      HoldsString after buf (numeralText base num) ∧
      ∀ a, a < buf ∨ buf + (numeralText base num).length < a →
        after a = memory a

/-- Only the bytes of the buffer decide what it holds after `itoa`. -/
def Uninfluenced (memory : Memory) (buf num base : Nat) : Prop :=
  ∀ other after otherAfter,
    (∀ a, buf ≤ a → a ≤ buf + (numeralText base num).length →
      other a = memory a) →
    itoa buf num base memory = some after →
    itoa buf num base other = some otherAfter →
    ∀ a, buf ≤ a → a ≤ buf + (numeralText base num).length →
      otherAfter a = after a

/-- The numeral is printed where the byte before the buffer is zero. -/
theorem printsNumeral_iff
    (memory : Memory) (positive : 0 < buf)
    (atLeastTwo : 2 ≤ base) (atMost : base ≤ 16) (small : num < 2 ^ 64)
    (fits : buf + (numeralText base num).length < 2 ^ 64) :
    PrintsNumeral memory buf num base ↔ memory (buf - 1) = 0 := by
  rcases itoa_printed memory positive atLeastTwo atMost small fits with
    ⟨after, run, printed⟩
  constructor
  · rintro ⟨result, resultRun, string, _⟩
    have same : result = after :=
      Option.some_inj.mp (resultRun.symm.trans run)
    subst same
    rw [← printed.behind]
    exact string.terminator
  · intro zero
    refine ⟨after, run, ⟨printed.bytes, ?_, ?_⟩, ?_⟩
    · exact numeralText_nonzero atLeastTwo atMost
    · rw [printed.behind, zero]
    · intro a apart
      by_cases before : a + 1 = buf
      · have here : a = buf - 1 := by omega
        rw [here, printed.before, zero]
      · exact printed.rest a (by omega)

/-- The byte before the buffer always comes out behind the numeral. -/
theorem not_uninfluenced
    (memory : Memory) (positive : 0 < buf)
    (atLeastTwo : 2 ≤ base) (atMost : base ≤ 16) (small : num < 2 ^ 64)
    (fits : buf + (numeralText base num).length < 2 ^ 64) :
    ¬ Uninfluenced memory buf num base := by
  intro uninfluenced
  let other :=
    Function.update memory (buf - 1) (memory (buf - 1) + 1)
  rcases itoa_printed memory positive atLeastTwo atMost small fits with
    ⟨after, run, printed⟩
  rcases itoa_printed other positive atLeastTwo atMost small fits with
    ⟨otherAfter, otherRun, otherPrinted⟩
  have agree :
      ∀ a, buf ≤ a → a ≤ buf + (numeralText base num).length →
        other a = memory a := by
    intro a least _
    exact Function.update_of_ne (by omega) _ _
  have same :=
    uninfluenced other after otherAfter agree run otherRun
      (buf + (numeralText base num).length) (Nat.le_add_right _ _)
      (Nat.le_refl _)
  have changed : other (buf - 1) = memory (buf - 1) + 1 :=
    Function.update_self _ _ _
  rw [printed.behind, otherPrinted.behind, changed] at same
  exact absurd same (by simp)

/--
The first round of the exchange loop pairs `buf[-1]` with the terminator: the
numeral is printed and memory around the buffer kept exactly when that byte is
zero, and it always influences what stands in the buffer.
-/
theorem itoa_prints_iff
    (memory : Memory) (buf num base : Nat) (positive : 0 < buf)
    (atLeastTwo : 2 ≤ base) (atMost : base ≤ 16) (small : num < 2 ^ 64)
    (fits : buf + (numeralText base num).length < 2 ^ 64) :
    IsNumeral base num (numeralText base num) ∧
      (PrintsNumeral memory buf num base ↔ memory (buf - 1) = 0) ∧
      ¬ Uninfluenced memory buf num base := by
  constructor
  · exact isNumeral_numeralText atLeastTwo atMost
  constructor
  · exact printsNumeral_iff memory positive atLeastTwo atMost small fits
  · exact not_uninfluenced memory positive atLeastTwo atMost small fits

/-- All of a number of 64 binary digits, on a zeroed stack. -/
theorem itoa_prints_longest :
    IsNumeral 2 (2 ^ 64 - 1) (numeralText 2 (2 ^ 64 - 1)) ∧
      PrintsNumeral (fun _ => 0) 0x1000 (2 ^ 64 - 1) 2 ∧
      ¬ Uninfluenced (fun _ => 0) 0x1000 (2 ^ 64 - 1) 2 := by
  have length : (numeralText 2 (2 ^ 64 - 1)).length ≤ 64 :=
    numeralText_length_le (by decide) (by decide)
  obtain ⟨numeral, prints, influenced⟩ :=
    itoa_prints_iff (fun _ => 0) 0x1000 (2 ^ 64 - 1) 2 (by decide) (by decide)
      (by decide) (by decide) (by omega)
  exact ⟨numeral, prints.mpr rfl, influenced⟩

/-- The number 7 comes out as `7!` where the byte before the buffer is `!`. -/
theorem itoa_not_prints :
    ¬ ∀ (memory : Memory) (buf num base : Nat), 0 < buf → 2 ≤ base →
      base ≤ 16 → num < 2 ^ 64 →
      buf + (numeralText base num).length < 2 ^ 64 →
      PrintsNumeral memory buf num base ∧
        Uninfluenced memory buf num base := by
  intro always
  have prints :=
    (always (fun _ => 0x21) 0x1000 7 10 (by decide) (by decide) (by decide)
      (by decide) (by decide)).1
  have iff :
      PrintsNumeral (fun _ => 0x21) 0x1000 7 10 ↔ (0x21 : BitVec 8) = 0 :=
    printsNumeral_iff _ (by decide) (by decide) (by decide) (by decide)
      (by decide)
  exact absurd (iff.mp prints) (by decide)

end Run

end Kernull.Itoa
