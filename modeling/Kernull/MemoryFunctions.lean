import Mathlib.Data.List.Lex
import Kernull.Library.ReplicatingCopy
import Kernull.StringReading

/-!
# Copying and comparing memory

`memcpy` and `memcmp` of `kernel/string.c`.  `memcpy` always copies upwards, so
a destination that starts inside the source gets the bytes before it over and
over; it does what `memmove` does exactly when the source repeats itself in the
same way.  The destination of `memcpy` is `restrict`, which buffers that
overlap do not keep to: the theorems speak of the loop over single bytes, for a
compiler that keeps their order.
-/

namespace Kernull.MemoryFunctions

open Kernull.KernelString
open Kernull.StringReading
open Kernull.Library.ByteMemory
open Kernull.Library.GuardedMemory
open Kernull.Library.ReplicatingCopy

/-! ## Copying -/

/-- `memcpy`: the pointer it returns and the memory after it. -/
def memcpy (dest src n : Nat) (memory : Memory) : Nat × Memory :=
  (dest, copyUp n dest src memory)

theorem pointerAdd_zero {p : Nat} (inside : p < 2 ^ 64) :
    pointerAdd p 0 = p :=
  Nat.mod_eq_of_lt inside

theorem pointerAdd_one (p n : Nat) :
    pointerAdd (pointerAdd p n) 1 = pointerAdd p (n + 1) := by
  rw [pointerAdd, pointerAdd, pointerAdd, Nat.mod_add_mod, Nat.add_assoc]

/-- The loop above the source repeats what lies between the two starts. -/
theorem copyUp_replicated
    {memory result : Memory} {dest src done n : Nat}
    (above : src < dest) (destInside : dest < 2 ^ 64)
    (within : done + n ≤ 2 ^ 64)
    (replicated : Replicated (2 ^ 64) memory result dest src done) :
    Replicated (2 ^ 64) memory
      (copyUp n (pointerAdd dest done) (pointerAdd src done) result)
      dest src (done + n) := by
  induction n generalizing result done with
  | zero => exact replicated
  | succ n inductionHypothesis =>
      have further := inductionHypothesis
        (by omega) (replicated.forward above destInside (by omega))
      rw [copyUp, pointerAdd_one, pointerAdd_one,
        show done + (n + 1) = done + 1 + n by omega]
      exact further

/-- Which byte of the source an upward copy puts at a place. -/
def sourceOffset (dest src i : Nat) : Nat :=
  if src < dest then i % (dest - src) else i

/-- What `memcpy` leaves, however the regions overlap. -/
structure CopiedUpwards (memory after : Memory) (dest src n : Nat) :
    Prop where
  inside : ∀ i, i < n →
    after (dest + i) = memory (src + sourceOffset dest src i)
  outside : ∀ a, a < dest ∨ dest + n ≤ a → after a = memory a

/-- `memcpy` on regions that overlap in any way. -/
theorem copiedUpwards_memcpy
    (memory : Memory) {dest src n : Nat}
    (destFits : dest + n ≤ 2 ^ 64) (srcFits : src + n ≤ 2 ^ 64) :
    CopiedUpwards memory (memcpy dest src n memory).2 dest src n := by
  cases n with
  | zero =>
      exact ⟨fun i below => absurd below (Nat.not_lt_zero i), fun _ _ => rfl⟩
  | succ n =>
      have destInside : dest < 2 ^ 64 := by omega
      have srcInside : src < 2 ^ 64 := by omega
      by_cases above : src < dest
      · have replicated := copyUp_replicated above destInside
          (by omega : 0 + (n + 1) ≤ 2 ^ 64)
          (Replicated.nothing (2 ^ 64) memory dest src)
        rw [pointerAdd_zero destInside, pointerAdd_zero srcInside,
          Nat.zero_add] at replicated
        have place (i : Nat) (below : i < n + 1) :
            (dest + i) % 2 ^ 64 = dest + i :=
          Nat.mod_eq_of_lt (by omega)
        constructor
        · intro i below
          rw [sourceOffset, if_pos above, ← replicated.inside i below,
            place i below]
          rfl
        · intro a apart
          apply replicated.outside
          intro i below
          rw [place i below]
          omega
      · have copied := copyUp_copied (Nat.not_lt.mp above)
          (by omega : src + (0 + (n + 1)) ≤ 2 ^ 64)
          (Copied.nothing memory dest src 0)
        rw [pointerAdd_zero destInside, pointerAdd_zero srcInside,
          Nat.zero_add] at copied
        constructor
        · intro i below
          rw [sourceOffset, if_neg above]
          exact copied.inside i (Nat.zero_le i) below
        · intro a apart
          apply copied.outside
          omega

/--
For regions that overlap in any way, `memcpy` changes no byte outside the
destination, and it does what `memmove` does exactly when each byte of the
source equals the one that the upward copy takes in its place: always if the
destination does not start inside the source, and otherwise when the source
repeats its bytes before the destination.
-/
theorem memcpy_is_memmove_iff
    (memory : Memory) {dest src n : Nat}
    (destFits : dest + n ≤ 2 ^ 64) (srcFits : src + n ≤ 2 ^ 64) :
    (∀ a, a < dest ∨ dest + n ≤ a →
      (memcpy dest src n memory).2 a = memory a) ∧
    ((memcpy dest src n memory).2 = (memmove dest src n memory).2 ↔
      ∀ i, i < n →
        memory (src + i) = memory (src + sourceOffset dest src i)) ∧
    (dest ≤ src ∨ src + n ≤ dest →
      (memcpy dest src n memory).2 = (memmove dest src n memory).2) := by
  have copied := copiedUpwards_memcpy memory destFits srcFits
  have moved := memmove_copied memory destFits srcFits
  have agree_iff :
      (memcpy dest src n memory).2 = (memmove dest src n memory).2 ↔
        ∀ i, i < n →
          memory (src + i) = memory (src + sourceOffset dest src i) := by
    constructor
    · intro same i below
      rw [← copied.inside i below, same,
        moved.inside i (Nat.zero_le i) below]
    · intro repeats
      funext a
      by_cases inside : dest ≤ a ∧ a < dest + n
      · obtain ⟨i, rfl⟩ := Nat.exists_eq_add_of_le inside.1
        have below : i < n := by omega
        rw [copied.inside i below, moved.inside i (Nat.zero_le i) below,
          repeats i below]
      · rw [copied.outside a (by omega), moved.outside a (by omega)]
  refine ⟨copied.outside, agree_iff, ?_⟩
  intro apart
  apply agree_iff.mpr
  intro i below
  rw [sourceOffset]
  by_cases above : src < dest
  · rw [if_pos above, Nat.mod_eq_of_lt (by omega)]
  · rw [if_neg above]

/--
Six bytes are copied onto a destination that starts three bytes on: the first
three of them twice, unlike `memmove`.
-/
theorem memcpy_differs_overlapping :
    (memcpy 0x1003 0x1000 6 (BitVec.ofNat 8)).2 ≠
        (memmove 0x1003 0x1000 6 (BitVec.ofNat 8)).2 ∧
      (memcpy 0x1003 0x1000 3 (BitVec.ofNat 8)).2 =
        (memmove 0x1003 0x1000 3 (BitVec.ofNat 8)).2 := by
  obtain ⟨_, overlapping, _⟩ :=
    memcpy_is_memmove_iff (BitVec.ofNat 8)
      (show 0x1003 + 6 ≤ 2 ^ 64 by decide)
      (show 0x1000 + 6 ≤ 2 ^ 64 by decide)
  obtain ⟨_, _, apart⟩ :=
    memcpy_is_memmove_iff (BitVec.ofNat 8)
      (show 0x1003 + 3 ≤ 2 ^ 64 by decide)
      (show 0x1000 + 3 ≤ 2 ^ 64 by decide)
  refine ⟨fun same => ?_, apart (Or.inr (by decide))⟩
  exact absurd (overlapping.mp same 3 (by decide)) (by decide)

/-! ## Comparing -/

/-- The bytes of a list may be read in a row. -/
structure ReadsBytes (memory : ReadableMemory) (address : Nat)
    (bytes : List (BitVec 8)) : Prop where
  holds : ∀ i (bound : i < bytes.length),
    memory (address + i) = some bytes[i]
  fits : address + bytes.length ≤ 2 ^ 64

namespace ReadsBytes

variable
  {memory : ReadableMemory} {address : Nat} {first : BitVec 8}
  {others : List (BitVec 8)}

theorem head (reads : ReadsBytes memory address (first :: others)) :
    memory address = some first :=
  reads.holds 0 (Nat.succ_pos _)

/-- Behind the first byte, where there is another one. -/
theorem tail (reads : ReadsBytes memory address (first :: others)) :
    others = [] ∨ pointerAdd address 1 = address + 1 ∧
      ReadsBytes memory (address + 1) others := by
  have fits := reads.fits
  rw [List.length_cons] at fits
  cases others with
  | nil => exact Or.inl rfl
  | cons second others =>
      rw [List.length_cons] at fits
      right
      constructor
      · exact pointerAdd_of_lt (by omega)
      · constructor
        · intro i bound
          have read := reads.holds (i + 1) (Nat.succ_lt_succ bound)
          rwa [show address + (i + 1) = address + 1 + i by omega] at read
        · rw [List.length_cons]
          omega

end ReadsBytes

/-- The first difference of two lists of bytes. -/
def firstDifference : List (BitVec 8) → List (BitVec 8) → Int
  | left :: lefts, right :: rights =>
      if (left.toNat : Int) - right.toNat ≠ 0 then
        left.toNat - right.toNat
      else
        firstDifference lefts rights
  | _, _ => 0

/-- The loop of `memcmp` finds the first difference. -/
theorem memcmpLoop_eq
    {memory : ReadableMemory} {p1 p2 : Nat} {lefts rights : List (BitVec 8)}
    (readsLeft : ReadsBytes memory p1 lefts)
    (readsRight : ReadsBytes memory p2 rights)
    (sameLength : lefts.length = rights.length) :
    memcmpLoop memory p1 p2 0 lefts.length =
      some (firstDifference lefts rights) := by
  induction lefts generalizing p1 p2 rights with
  | nil => rfl
  | cons left lefts inductionHypothesis =>
      cases rights with
      | nil => exact absurd sameLength (Nat.succ_ne_zero _)
      | cons right rights =>
          have shorter : lefts.length = rights.length :=
            Nat.succ.inj sameLength
          rw [List.length_cons, memcmpLoop, readsLeft.head, readsRight.head,
            firstDifference]
          simp only [Option.bind_eq_bind, Option.bind_some]
          by_cases differ : (left.toNat : Int) - right.toNat ≠ 0
          · rw [if_pos differ, if_pos differ]
          · rw [if_neg differ, if_neg differ, not_not.mp differ]
            cases readsLeft.tail with
            | inl ended =>
                rw [ended]
                rfl
            | inr onward =>
                cases readsRight.tail with
                | inl ended =>
                    rw [ended, List.length_nil, List.length_eq_zero_iff]
                      at shorter
                    rw [shorter]
                    rfl
                | inr onwardRight =>
                    rw [onward.1, onwardRight.1]
                    exact inductionHypothesis onward.2 onwardRight.2 shorter

/-- The sign of the first difference is the lexicographic order. -/
structure Orders (left right : List (BitVec 8)) (result : Int) : Prop where
  zero : result = 0 ↔ left = right
  negative : result < 0 ↔ left < right
  positive : 0 < result ↔ right < left

/-- Bytes that differ decide the order. -/
theorem orders_of_ne
    {left right : BitVec 8} (different : left ≠ right)
    (lefts rights : List (BitVec 8)) :
    Orders (left :: lefts) (right :: rights)
      ((left.toNat : Int) - right.toNat) := by
  have differ : left.toNat ≠ right.toNat :=
    fun same => different (BitVec.eq_of_toNat_eq same)
  constructor
  · constructor
    · intro zero
      omega
    · intro same
      exact absurd (List.cons.inj same).1 different
  · rw [List.cons_lt_cons_iff, BitVec.lt_def]
    constructor
    · intro negative
      exact Or.inl (by omega)
    · rintro (less | ⟨same, _⟩)
      · omega
      · exact absurd same different
  · rw [List.cons_lt_cons_iff, BitVec.lt_def]
    constructor
    · intro positive
      exact Or.inl (by omega)
    · rintro (less | ⟨same, _⟩)
      · omega
      · exact absurd same.symm different

/-- An equal byte in front does not change the order. -/
theorem Orders.cons
    {lefts rights : List (BitVec 8)} {result : Int}
    (orders : Orders lefts rights result) (byte : BitVec 8) :
    Orders (byte :: lefts) (byte :: rights) result := by
  have irrefl : ¬byte < byte := by
    rw [BitVec.lt_def]
    exact Nat.lt_irrefl _
  constructor
  · rw [orders.zero]
    simp
  · rw [orders.negative, List.cons_lt_cons_iff]
    simp [irrefl]
  · rw [orders.positive, List.cons_lt_cons_iff]
    simp [irrefl]

theorem orders_firstDifference
    {lefts rights : List (BitVec 8)}
    (sameLength : lefts.length = rights.length) :
    Orders lefts rights (firstDifference lefts rights) := by
  induction lefts generalizing rights with
  | nil =>
      obtain rfl := List.eq_nil_of_length_eq_zero sameLength.symm
      constructor <;> simp [firstDifference]
  | cons left lefts inductionHypothesis =>
      cases rights with
      | nil => exact absurd sameLength (Nat.succ_ne_zero _)
      | cons right rights =>
          rw [firstDifference]
          by_cases same : left = right
          · subst same
            rw [if_neg (not_not_intro (Int.sub_self _))]
            exact (inductionHypothesis (Nat.succ.inj sameLength)).cons left
          · have differ : (left.toNat : Int) - right.toNat ≠ 0 := by
              intro zero
              apply same
              apply BitVec.eq_of_toNat_eq
              omega
            rw [if_pos differ]
            exact orders_of_ne same lefts rights

/--
For every two readable regions of the same length `memcmp` returns a number
whose sign is the lexicographic order of the regions as unsigned bytes, with 0
for equal regions only.
-/
theorem memcmp_orders
    {memory : ReadableMemory} {s1 s2 : Nat} {left right : List (BitVec 8)}
    (readsLeft : ReadsBytes memory s1 left)
    (readsRight : ReadsBytes memory s2 right)
    (sameLength : left.length = right.length) :
    ∃ result, memcmp memory s1 s2 left.length = some result ∧
      Orders left right result :=
  ⟨firstDifference left right,
    memcmpLoop_eq readsLeft readsRight sameLength,
    orders_firstDifference sameLength⟩

/-- Two regions of memory in which every byte is that of its address. -/
theorem memcmp_orders_bytes :
    ∃ result,
      memcmp (fun a => some (BitVec.ofNat 8 a)) 0x10FF 0x1100 2 =
        some result ∧
      Orders [0xFF, 0x00] [0x00, 0x01] result :=
  have left : ReadsBytes (fun a => some (BitVec.ofNat 8 a)) 0x10FF
      [0xFF, 0x00] := ⟨by decide, by decide⟩
  have right : ReadsBytes (fun a => some (BitVec.ofNat 8 a)) 0x1100
      [0x00, 0x01] := ⟨by decide, by decide⟩
  memcmp_orders left right rfl

end Kernull.MemoryFunctions
