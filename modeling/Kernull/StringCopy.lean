import Kernull.MemoryFunctions
import Kernull.StringAppend

/-!
# Copying strings

`strcpy` and `strncpy` of `kernel/string.c` on buffers that may overlap.  Both
copy upwards, as `memcpy` does.  A destination that starts inside the source
overwrites its terminator before it is read: then `strcpy` never ends and
`strncpy` copies as many bytes as it is allowed to.  The destinations are
`restrict`, which buffers that overlap do not keep to: as for `memcpy`, the
theorems speak of the loops over single bytes.
-/

namespace Kernull.StringCopy

open Kernull.KernelString
open Kernull.MemoryFunctions
open Kernull.StringAppend
open Kernull.Library.ByteMemory
open Kernull.Library.ReplicatingCopy
open Kernull.Library.StoreTrace

/-- `strcpy`, with a bound on the rounds of its loop. -/
def strcpy (rounds dest src : Nat) (traced : TracedMemory) :
    Option (Nat × TracedMemory) := do
  let ret := dest
  let traced ← copyString rounds dest src traced
  some (ret, traced)

/-- The loop of `strncpy`. -/
def copyAtMost : Nat → Nat → Nat → Memory → Memory
  | 0, _, _, memory => memory
  | n + 1, dest, src, memory =>
      let c := memory src
      let memory := Function.update memory dest c
      if c = 0 then
        memory
      else
        copyAtMost n (pointerAdd dest 1) (pointerAdd src 1) memory

/-- `strncpy`: the pointer it returns and the memory after it. -/
def strncpy (dest src n : Nat) (memory : Memory) : Nat × Memory :=
  (dest, copyAtMost n dest src memory)

/-- The destination starts inside the source or at its terminator. -/
def StartsInside (dest src length : Nat) : Prop :=
  src < dest ∧ dest ≤ src + length

instance (dest src length : Nat) : Decidable (StartsInside dest src length) :=
  inferInstanceAs (Decidable (_ ∧ _))

/-- A string that ends in the address space, and room for it elsewhere. -/
structure Given (memory : Memory) (dest src : Nat)
    (text : List (BitVec 8)) : Prop where
  holds : HoldsString memory src text
  srcFits : src + text.length < 2 ^ 64
  destFits : dest + text.length < 2 ^ 64

section

variable
  {memory result : Memory} {dest src done : Nat} {text : List (BitVec 8)}

/-! ## The source is still there when it is read -/

/-- The characters of a string before its terminator. -/
theorem Given.character_ne_zero
    (given : Given memory dest src text) {i : Nat} (bound : i < text.length) :
    memory (src + i) ≠ 0 := by
  rw [given.holds.bytes i bound]
  exact given.holds.nonzero _ (List.getElem_mem bound)

section

variable
  (given : Given memory dest src text)
  (outside : ¬ StartsInside dest src text.length)
  (copied : Copied memory result dest src 0 done)
  (bound : done ≤ text.length)

include given outside copied bound

/-- Unless the destination starts inside, the source is unchanged. -/
theorem read_next :
    result (pointerAdd src done) = memory (src + done) := by
  have fits := given.srcFits
  rw [pointerAdd_of_lt (by omega)]
  apply copied.outside
  rw [StartsInside] at outside
  omega

/-- One byte more. -/
theorem copied_next :
    Copied memory
      (Function.update result (pointerAdd dest done)
        (result (pointerAdd src done)))
      dest src 0 (done + 1) := by
  have fits := given.destFits
  rw [read_next given outside copied bound, pointerAdd_of_lt (by omega)]
  constructor
  · intro i _ below
    by_cases last : i = done
    · rw [last, Function.update_self]
    · have different : dest + i ≠ dest + done := by omega
      rw [Function.update_of_ne different]
      exact copied.inside i (Nat.zero_le i) (by omega)
  · intro a apart
    have different : a ≠ dest + done := by omega
    rw [Function.update_of_ne different]
    exact copied.outside a (by omega)

theorem read_eq_zero_iff :
    result (pointerAdd src done) = 0 ↔ done = text.length := by
  rw [read_next given outside copied bound]
  constructor
  · intro zero
    apply Nat.le_antisymm bound
    exact Nat.not_lt.mp fun early => given.character_ne_zero early zero
  · rintro rfl
    exact given.holds.terminator

end

/-- A destination inside the source repeats characters that are not zero. -/
theorem repeated_ne_zero
    (given : Given memory dest src text)
    (inside : StartsInside dest src text.length)
    (replicated : Replicated (2 ^ 64) memory result dest src done)
    (within : done < 2 ^ 64) :
    result (pointerAdd src done) ≠ 0 := by
  have destFits := given.destFits
  obtain ⟨above, reaches⟩ := inside
  have read := replicated.source above (by omega) within
  have early := Nat.mod_lt done (Nat.sub_pos_of_lt above)
  rw [pointerAdd, read]
  exact given.character_ne_zero (by omega)

/-! ## `strncpy` -/

/-- The loop from the middle of the string on. -/
theorem copyAtMost_eq_copyUp
    (given : Given memory dest src text)
    (outside : ¬ StartsInside dest src text.length)
    (copied : Copied memory result dest src 0 done)
    (bound : done ≤ text.length) (n : Nat) :
    copyAtMost n (pointerAdd dest done) (pointerAdd src done) result =
      copyUp (min n (text.length + 1 - done)) (pointerAdd dest done)
        (pointerAdd src done) result := by
  induction n generalizing result done with
  | zero =>
      rw [Nat.zero_min]
      rfl
  | succ n inductionHypothesis =>
      have ends := read_eq_zero_iff given outside copied bound
      rw [copyAtMost]
      by_cases last : done = text.length
      · have counted : min (n + 1) (text.length + 1 - done) = 0 + 1 := by
          omega
        rw [if_pos (ends.mpr last), counted]
        rfl
      · have counted : min (n + 1) (text.length + 1 - done) =
            min n (text.length + 1 - (done + 1)) + 1 := by omega
        rw [if_neg fun zero => last (ends.mp zero), counted, copyUp,
          pointerAdd_one, pointerAdd_one]
        exact inductionHypothesis (copied_next given outside copied bound)
          (by omega)

/-- The loop when the destination starts inside. -/
theorem copyAtMost_eq_copyUp_inside
    (given : Given memory dest src text)
    (inside : StartsInside dest src text.length) {n : Nat}
    (replicated : Replicated (2 ^ 64) memory result dest src done)
    (within : done + n ≤ 2 ^ 64) :
    copyAtMost n (pointerAdd dest done) (pointerAdd src done) result =
      copyUp n (pointerAdd dest done) (pointerAdd src done) result := by
  induction n generalizing result done with
  | zero => rfl
  | succ n inductionHypothesis =>
      have destFits := given.destFits
      have nonzero := repeated_ne_zero given inside replicated (by omega)
      rw [copyAtMost, copyUp, if_neg nonzero, pointerAdd_one, pointerAdd_one]
      exact inductionHypothesis
        (replicated.forward inside.1 (by omega) (by omega)) (by omega)

/-! ## `strcpy` -/

/-- More rounds do not change what a loop that ends does. -/
theorem copyString_mono
    {rounds dest src : Nat} {traced final : TracedMemory}
    (ran : copyString rounds dest src traced = some final) (more : Nat) :
    copyString (rounds + more) dest src traced = some final := by
  induction rounds generalizing dest src traced with
  | zero => exact absurd ran (Option.some_ne_none final).symm
  | succ rounds inductionHypothesis =>
      rw [copyString] at ran
      rw [Nat.succ_add, copyString]
      by_cases nonzero : traced.memory src ≠ 0
      · rw [if_pos nonzero] at ran ⊢
        exact inductionHypothesis ran
      · rw [if_neg nonzero] at ran ⊢
        exact ran

/-- The loop from the middle of the string on. -/
theorem copyString_eq_copyUp
    (given : Given memory dest src text)
    (outside : ¬ StartsInside dest src text.length)
    {traced : TracedMemory} {rounds : Nat}
    (copied : Copied memory traced.memory dest src 0 done)
    (bound : done ≤ text.length) (enough : text.length < done + rounds) :
    ∃ after,
      copyString rounds (pointerAdd dest done) (pointerAdd src done) traced =
        some after ∧
      after.memory =
        copyUp (text.length + 1 - done) (pointerAdd dest done)
          (pointerAdd src done) traced.memory := by
  induction rounds generalizing traced done with
  | zero => omega
  | succ rounds inductionHypothesis =>
      have ends := read_eq_zero_iff given outside copied bound
      rw [copyString]
      by_cases last : done = text.length
      · have counted : text.length + 1 - done = 0 + 1 := by omega
        rw [if_neg (not_not_intro (ends.mpr last)), counted]
        exact ⟨_, rfl, rfl⟩
      · have counted : text.length + 1 - done =
            text.length + 1 - (done + 1) + 1 := by omega
        rw [if_pos fun zero => last (ends.mp zero), counted, copyUp,
          pointerAdd_one, pointerAdd_one]
        exact inductionHypothesis (copied_next given outside copied bound)
          (by omega) (by omega)

/-- In the first round of the address space the loop does not end. -/
theorem copyString_inside
    (given : Given memory dest src text)
    (inside : StartsInside dest src text.length)
    {traced : TracedMemory} {count : Nat}
    (replicated : Replicated (2 ^ 64) memory traced.memory dest src done)
    (within : done + count ≤ 2 ^ 64) (rounds : Nat) :
    ∃ after,
      copyString (count + rounds) (pointerAdd dest done)
          (pointerAdd src done) traced =
        copyString rounds (pointerAdd dest (done + count))
          (pointerAdd src (done + count)) after ∧
      Replicated (2 ^ 64) memory after.memory dest src (done + count) := by
  induction count generalizing traced done with
  | zero =>
      rw [Nat.zero_add]
      exact ⟨traced, rfl, replicated⟩
  | succ count inductionHypothesis =>
      have destFits := given.destFits
      have nonzero := repeated_ne_zero given inside replicated (by omega)
      have next : Replicated (2 ^ 64) memory
          (traced.store (pointerAdd dest done)
            (traced.memory (pointerAdd src done))).memory
          dest src (done + 1) :=
        replicated.forward inside.1 (by omega) (by omega)
      rw [Nat.succ_add, copyString, if_pos nonzero, pointerAdd_one,
        pointerAdd_one, show done + (count + 1) = done + 1 + count by omega]
      exact inductionHypothesis next (by omega)

/-- Where no byte is zero the loop does not end. -/
theorem copyString_of_nonzero
    {traced : TracedMemory}
    (nonzero : ∀ a, a < 2 ^ 64 → traced.memory a ≠ 0) {dest src : Nat}
    (srcInside : src < 2 ^ 64) (rounds : Nat) :
    copyString rounds dest src traced = none := by
  induction rounds generalizing traced dest src with
  | zero => rfl
  | succ rounds inductionHypothesis =>
      rw [copyString, if_pos (nonzero src srcInside)]
      apply inductionHypothesis
      · intro a below
        show Function.update traced.memory dest (traced.memory src) a ≠ 0
        by_cases here : a = dest
        · rw [here, Function.update_self]
          exact nonzero src srcInside
        · rw [Function.update_of_ne here]
          exact nonzero a below
      · exact Nat.mod_lt _ (by decide)

/-- After a round of the address space no byte is zero. -/
theorem nonzero_of_replicated
    (given : Given memory dest src text)
    (inside : StartsInside dest src text.length)
    (replicated : Replicated (2 ^ 64) memory result dest src (2 ^ 64))
    {a : Nat} (below : a < 2 ^ 64) : result a ≠ 0 := by
  obtain ⟨above, reaches⟩ := inside
  have destFits := given.destFits
  obtain ⟨i, small, place⟩ :
      ∃ i, i < 2 ^ 64 ∧ (dest + i) % 2 ^ 64 = a := by
    refine ⟨(a + 2 ^ 64 - dest) % 2 ^ 64, Nat.mod_lt _ (by decide), ?_⟩
    omega
  have early := Nat.mod_lt i (Nat.sub_pos_of_lt above)
  rw [← place, replicated.inside i small]
  exact given.character_ne_zero (by omega)

/-- A destination inside the source makes `strcpy` go on for ever. -/
theorem copyString_never
    (given : Given memory dest src text)
    (inside : StartsInside dest src text.length) (rounds : Nat) :
    copyString rounds dest src (untouched memory) = none := by
  have srcFits := given.srcFits
  have destFits := given.destFits
  have destZero : pointerAdd dest 0 = dest := pointerAdd_zero (by omega)
  have srcZero : pointerAdd src 0 = src := pointerAdd_zero (by omega)
  have start : Replicated (2 ^ 64) memory (untouched memory).memory dest src
      0 := Replicated.nothing (2 ^ 64) memory dest src
  obtain ⟨after, same, replicated⟩ := copyString_inside given inside start
    (by omega : 0 + 2 ^ 64 ≤ 2 ^ 64) rounds
  rw [destZero, srcZero, Nat.zero_add] at same
  rw [Nat.zero_add] at replicated
  have later : copyString (2 ^ 64 + rounds) dest src (untouched memory) =
      none := by
    rw [same]
    apply copyString_of_nonzero
    · intro a below
      exact nonzero_of_replicated given inside replicated below
    · exact Nat.mod_lt _ (by decide)
  cases ran : copyString rounds dest src (untouched memory) with
  | none => rfl
  | some final =>
      rw [Nat.add_comm, copyString_mono ran (2 ^ 64)] at later
      exact absurd later (Option.some_ne_none final)

/-- Otherwise `strcpy` copies the characters and the terminator. -/
theorem copyString_copies
    (given : Given memory dest src text)
    (outside : ¬ StartsInside dest src text.length) {rounds : Nat}
    (enough : text.length < rounds) :
    ∃ after, copyString rounds dest src (untouched memory) = some after ∧
      after.memory = (memcpy dest src (text.length + 1) memory).2 := by
  have srcFits := given.srcFits
  have destFits := given.destFits
  have start : Copied memory (untouched memory).memory dest src 0 0 :=
    Copied.nothing memory dest src 0
  obtain ⟨after, ran, left⟩ := copyString_eq_copyUp given outside start
    (Nat.zero_le _) (by omega : text.length < 0 + rounds)
  rw [pointerAdd_zero (by omega), pointerAdd_zero (by omega)] at ran left
  exact ⟨after, ran, left⟩

/-- What the loop has done when it ends. -/
theorem copyString_ended
    (given : Given memory dest src text) {rounds : Nat} {final : TracedMemory}
    (ran : copyString rounds dest src (untouched memory) = some final) :
    ¬ StartsInside dest src text.length ∧
      CopiedUpwards memory final.memory dest src (text.length + 1) := by
  have srcFits := given.srcFits
  have destFits := given.destFits
  have outside : ¬ StartsInside dest src text.length := by
    intro inside
    rw [copyString_never given inside rounds] at ran
    exact absurd ran (Option.some_ne_none final).symm
  have enough : text.length < rounds + (text.length + 1) :=
    Nat.lt_of_lt_of_le (Nat.lt_succ_self _) (Nat.le_add_left _ rounds)
  rcases copyString_copies given outside enough with ⟨after, longer, left⟩
  rw [copyString_mono ran] at longer
  have same : final = after := Option.some.inj longer
  rw [same, left]
  exact ⟨outside, copiedUpwards_memcpy memory (by omega) (by omega)⟩

/-- The string has arrived unless the destination starts inside. -/
theorem holdsString_of_copiedUpwards
    (given : Given memory dest src text)
    (outside : ¬ StartsInside dest src text.length)
    (copied : CopiedUpwards memory result dest src (text.length + 1)) :
    HoldsString result dest text := by
  have place (i : Nat) (bound : i ≤ text.length) :
      result (dest + i) = memory (src + i) := by
    rw [copied.inside i (Nat.lt_succ_of_le bound), sourceOffset]
    by_cases above : src < dest
    · rw [StartsInside] at outside
      rw [if_pos above, Nat.mod_eq_of_lt (by omega)]
    · rw [if_neg above]
  constructor
  · intro i bound
    rw [place i (Nat.le_of_lt bound)]
    exact given.holds.bytes i bound
  · exact given.holds.nonzero
  · rw [place text.length (Nat.le_refl _)]
    exact given.holds.terminator

end

/-! ## The two functions -/

/--
For every string and every destination with room for it, `strcpy` ends exactly
when the destination does not start inside the string or at its terminator;
whenever it ends it returns the destination, which holds the string, and no
byte behind the terminator or before the destination has changed.
-/
theorem strcpy_ends_iff
    {memory : Memory} {dest src : Nat} {text : List (BitVec 8)}
    (given : Given memory dest src text) :
    ((∃ rounds, (strcpy rounds dest src (untouched memory)).isSome) ↔
      ¬ StartsInside dest src text.length) ∧
    ∀ rounds ret after,
      strcpy rounds dest src (untouched memory) = some (ret, after) →
        ret = dest ∧ HoldsString after.memory dest text ∧
          ∀ a, a < dest ∨ dest + text.length < a →
            after.memory a = memory a := by
  constructor
  · constructor
    · rintro ⟨rounds, ends⟩ inside
      rw [strcpy, copyString_never given inside rounds] at ends
      exact Bool.noConfusion ends
    · intro outside
      rcases copyString_copies given outside (Nat.lt_succ_self text.length)
        with ⟨after, ran, _⟩
      refine ⟨text.length + 1, ?_⟩
      rw [strcpy, ran]
      rfl
  · intro rounds ret after ends
    rcases Option.bind_eq_some_iff.mp ends with ⟨final, ran, returned⟩
    obtain ⟨rfl, rfl⟩ := Prod.mk.inj (Option.some.inj returned)
    rcases copyString_ended given ran with ⟨outside, copied⟩
    refine ⟨rfl, holdsString_of_copiedUpwards given outside copied, ?_⟩
    intro a apart
    exact copied.outside a (by omega)

/-- The number of bytes that `strncpy` copies. -/
def copiedCount (dest src length n : Nat) : Nat :=
  if StartsInside dest src length then n else min n (length + 1)

/--
`strncpy` is `memcpy` of so many bytes: the characters with the terminator or
the count, whichever is less, and always the count where the destination
starts inside the source.  It neither pads nor terminates what it copies.
-/
theorem strncpy_is_memcpy
    {memory : Memory} {dest src : Nat} {text : List (BitVec 8)}
    (given : Given memory dest src text) {n : Nat}
    (addressable : n ≤ 2 ^ 64) :
    strncpy dest src n memory =
      memcpy dest src (copiedCount dest src text.length n) memory := by
  have srcFits := given.srcFits
  have destFits := given.destFits
  have destZero : pointerAdd dest 0 = dest := pointerAdd_zero (by omega)
  have srcZero : pointerAdd src 0 = src := pointerAdd_zero (by omega)
  rw [strncpy, memcpy, copiedCount]
  by_cases inside : StartsInside dest src text.length
  · have same := copyAtMost_eq_copyUp_inside given inside
      (Replicated.nothing (2 ^ 64) memory dest src)
      (by omega : 0 + n ≤ 2 ^ 64)
    rw [destZero, srcZero] at same
    rw [if_pos inside, same]
  · have same := copyAtMost_eq_copyUp given inside
      (Copied.nothing memory dest src 0) (Nat.zero_le _) n
    rw [destZero, srcZero] at same
    rw [if_neg inside, same]
    rfl

/-- The string `ab` at 0x1000. -/
def shortString : Memory := fun address =>
  if address = 0x1000 then 0x61
  else if address = 0x1001 then 0x62
  else 0

/-- It is copied into itself, or elsewhere. -/
theorem given_shortString (dest : Nat) (fits : dest + 2 < 2 ^ 64) :
    Given shortString dest 0x1000 [0x61, 0x62] where
  holds := ⟨by decide, by decide, by decide⟩
  srcFits := by decide
  destFits := fits

/-- Onto its second character it is copied for ever; elsewhere it is copied. -/
theorem strcpy_shortString :
    (∀ rounds, ¬ (strcpy rounds 0x1001 0x1000 (untouched shortString)).isSome) ∧
    ∃ rounds ret after,
      strcpy rounds 0x2000 0x1000 (untouched shortString) =
          some (ret, after) ∧
        HoldsString after.memory 0x2000 [0x61, 0x62] := by
  obtain ⟨inside, _⟩ := strcpy_ends_iff (given_shortString 0x1001 (by decide))
  obtain ⟨outside, copied⟩ :=
    strcpy_ends_iff (given_shortString 0x2000 (by decide))
  constructor
  · intro rounds ends
    exact inside.mp ⟨rounds, ends⟩ (by decide)
  · obtain ⟨rounds, ends⟩ := outside.mpr (by decide)
    obtain ⟨⟨ret, after⟩, runs⟩ := Option.isSome_iff_exists.mp ends
    exact ⟨rounds, ret, after, runs, (copied rounds ret after runs).2.1⟩

theorem strncpy_is_memcpy_shortString :
    strncpy 0x1001 0x1000 7 shortString =
      memcpy 0x1001 0x1000 (copiedCount 0x1001 0x1000 2 7) shortString :=
  strncpy_is_memcpy (given_shortString 0x1001 (by decide)) (by decide)

end Kernull.StringCopy
