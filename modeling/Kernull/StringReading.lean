import Kernull.Library.GuardedMemory
import Kernull.KernelString

/-!
# String functions that only read

`memchr`, `memcmp`, `strlen`, `strchr`, `strrchr`, `strcmp`, `strncmp` and
`strstr` of `kernel/string.c` over memory of which only some bytes may be
read: the outer option is `none` when a byte is read that may not be, or when
a loop does not end.  Of a function that returns a pointer the inner option is
`none` for `NULL`.

A `char` is signed, so it is compared by `toInt`; an `unsigned char` is
compared by `toNat`.  A loop without a counter that has run for all addresses
never ends, as the pointers come around.
-/

namespace Kernull.StringReading

open Kernull.KernelString
open Kernull.Mm
open Kernull.Library.GuardedMemory

/-- The number of addresses. -/
def addresses : Nat := 2 ^ 64

/-- `memchr`; the sought byte is the conversion of `c` to `unsigned char`. -/
def memchr (memory : ReadableMemory) (p : Nat) (c : BitVec 32) :
    Nat → Option (Option Nat)
  | 0 => some none
  | n + 1 => do
      let here ← memory p
      if here = c.setWidth 8 then
        some (some p)
      else
        memchr memory (pointerAdd p 1) c n

/-- The loop of `memcmp`; `ret` is the last difference. -/
def memcmpLoop (memory : ReadableMemory) (p1 p2 : Nat) (ret : Int) :
    Nat → Option Int
  | 0 => some ret
  | n + 1 => do
      let left ← memory p1
      let right ← memory p2
      let ret : Int := left.toNat - right.toNat
      if ret ≠ 0 then
        some ret
      else
        memcmpLoop memory (pointerAdd p1 1) (pointerAdd p2 1) ret n

/-- `memcmp`. -/
def memcmp (memory : ReadableMemory) (s1 s2 n : Nat) : Option Int :=
  memcmpLoop memory s1 s2 0 n

/-- The loop of `strlen`. -/
def strlenLoop (memory : ReadableMemory) (s : Nat) :
    Nat → Nat → Option Nat
  | 0, _ => none
  | rounds + 1, n => do
      let here ← memory (pointerAdd s n)
      if here ≠ 0 then
        strlenLoop memory s rounds (n + 1)
      else
        some n

/-- `strlen`. -/
def strlen (memory : ReadableMemory) (s : Nat) : Option Nat :=
  strlenLoop memory s addresses 0

/-- `*s == (unsigned char) c` for a `char *s`. -/
def IsCharacter (here : BitVec 8) (c : BitVec 32) : Prop :=
  here.toInt = ((c.setWidth 8).toNat : Int)

instance (here : BitVec 8) (c : BitVec 32) :
    Decidable (IsCharacter here c) :=
  inferInstanceAs (Decidable (_ = _))

/-- The loop of `strchr`. -/
def strchrLoop (memory : ReadableMemory) (c : BitVec 32) :
    Nat → Nat → Option (Option Nat)
  | 0, _ => none
  | rounds + 1, s => do
      let here ← memory s
      if here ≠ 0 then
        if IsCharacter here c then
          some (some s)
        else
          strchrLoop memory c rounds (pointerAdd s 1)
      else
        some none

/-- `strchr`. -/
def strchr (memory : ReadableMemory) (s : Nat) (c : BitVec 32) :
    Option (Option Nat) :=
  strchrLoop memory c addresses s

/-- The loop of `strrchr`; `ret` is the last position found. -/
def strrchrLoop (memory : ReadableMemory) (c : BitVec 32) :
    Nat → Nat → Option Nat → Option (Option Nat)
  | 0, _, _ => none
  | rounds + 1, s, ret => do
      let here ← memory s
      if here ≠ 0 then
        let ret := if IsCharacter here c then some s else ret
        strrchrLoop memory c rounds (pointerAdd s 1) ret
      else
        some ret

/-- `strrchr`. -/
def strrchr (memory : ReadableMemory) (s : Nat) (c : BitVec 32) :
    Option (Option Nat) :=
  strrchrLoop memory c addresses s none

/-- `*s1 < *s2 ? -1 : 1` for characters. -/
def differenceSign (left right : BitVec 8) : Int :=
  if left.toInt < right.toInt then -1 else 1

/-- The loop of `strcmp`. -/
def strcmpLoop (memory : ReadableMemory) :
    Nat → Nat → Nat → Option Int
  | 0, _, _ => none
  | rounds + 1, s1, s2 => do
      let left ← memory s1
      if left ≠ 0 then
        let right ← memory s2
        if right ≠ 0 then
          if left ≠ right then
            some (differenceSign left right)
          else
            strcmpLoop memory rounds (pointerAdd s1 1) (pointerAdd s2 1)
        else
          some 0
      else
        some 0

/-- `strcmp`. -/
def strcmp (memory : ReadableMemory) (s1 s2 : Nat) : Option Int :=
  strcmpLoop memory addresses s1 s2

/-- `strncmp`. -/
def strncmp (memory : ReadableMemory) (s1 s2 : Nat) :
    Nat → Option Int
  | 0 => some 0
  | n + 1 => do
      let left ← memory s1
      if left ≠ 0 then
        let right ← memory s2
        if right ≠ 0 then
          if left ≠ right then
            some (differenceSign left right)
          else
            strncmp memory (pointerAdd s1 1) (pointerAdd s2 1) n
        else
          some 0
      else
        some 0

/-- The loop of `strstr`. -/
def strstrLoop (memory : ReadableMemory) (sub subLen : Nat) :
    Nat → Nat → Nat → Option (Option Nat)
  | 0, _, _ => none
  | rounds + 1, dom, domLen =>
      if subLen ≤ domLen then do
        let domLen := sub64 domLen 1
        let compared ← memcmp memory dom sub subLen
        if compared = 0 then
          some (some dom)
        else
          strstrLoop memory sub subLen rounds (pointerAdd dom 1) domLen
      else
        some none

/-- `strstr`. -/
def strstr (memory : ReadableMemory) (dom sub : Nat) :
    Option (Option Nat) := do
  let subLen ← strlen memory sub
  if subLen = 0 then
    some (some dom)
  else
    let domLen ← strlen memory dom
    strstrLoop memory sub subLen addresses dom domLen

/-! ## Stepping through a string -/

section

variable
  {memory : ReadableMemory} {s : Nat} {first : BitVec 8}
  {text others : List (BitVec 8)}

/-- The pointer to the next character of a string. -/
theorem pointerAdd_one
    (reads : ReadsString memory s (first :: others)) :
    pointerAdd s 1 = s + 1 :=
  pointerAdd_of_lt reads.succ_lt

/-- The loop of `strlen` counts the characters that are left. -/
theorem strlenLoop_eq
    {done rounds : Nat} (reads : ReadsString memory (s + done) text)
    (enough : text.length < rounds) :
    strlenLoop memory s rounds done = some (done + text.length) := by
  induction rounds generalizing text done with
  | zero => exact absurd enough (Nat.not_lt_zero _)
  | succ rounds inductionHypothesis =>
      have fits := reads.fits
      have here : pointerAdd s done = s + done :=
        pointerAdd_of_lt (by omega)
      rw [strlenLoop, here]
      cases text with
      | nil =>
          rw [reads.empty]
          rfl
      | cons first others =>
          have rest :
              strlenLoop memory s rounds (done + 1) =
                some (done + 1 + others.length) :=
            inductionHypothesis reads.tail (Nat.lt_of_succ_lt_succ enough)
          simp only [reads.head, Option.bind_eq_bind, Option.bind_some,
            if_pos reads.head_ne_zero]
          rw [rest, List.length_cons]
          congr 1
          omega

theorem strlen_eq (reads : ReadsString memory s text) :
    strlen memory s = some text.length := by
  have fits := reads.fits
  have counted : strlenLoop memory s addresses 0 =
      some (0 + text.length) := by
    apply strlenLoop_eq
    · exact reads
    · rw [addresses]
      omega
  rwa [Nat.zero_add] at counted

end

end Kernull.StringReading
