import Kernull.Library.Position
import Kernull.StringReading

/-!
# Search for a substring

`strstr` compares the sought string with what stands at each position of the
other one, as long as the characters left there are enough for it.  It finds
the first occurrence and reads no byte behind the terminators.
-/

namespace Kernull.SubstringSearch

open Kernull.KernelString
open Kernull.Mm
open Kernull.StringReading
open Kernull.Library.GuardedMemory
open Kernull.Library.Position

/-- A string occurs in another one at a position. -/
def OccursAt (text sub : List (BitVec 8)) (i : Nat) : Prop :=
  i ≤ text.length ∧ sub <+: text.drop i

section

variable {text sub others : List (BitVec 8)} {first : BitVec 8}

theorem occursAt_zero : OccursAt text sub 0 ↔ sub <+: text := by
  rw [OccursAt, List.drop_zero]
  exact and_iff_right (Nat.zero_le _)

theorem occursAt_succ (i : Nat) :
    OccursAt (first :: others) sub (i + 1) ↔ OccursAt others sub i := by
  rw [OccursAt, OccursAt, List.drop_succ_cons, List.length_cons,
    Nat.succ_le_succ_iff]

/-- A string does not occur in a shorter one. -/
theorem not_occursAt_of_shorter (shorter : text.length < sub.length)
    (i : Nat) : ¬ OccursAt text sub i := by
  rintro ⟨_, isPrefix⟩
  have length := isPrefix.length_le
  rw [List.length_drop] at length
  omega

end

section

variable
  {memory : ReadableMemory} {dom sub rounds : Nat}
  {text sought : List (BitVec 8)}

/-- `memcmp` over a string returns 0 exactly when it stands in front. -/
theorem memcmp_prefix
    (reads : ReadsString memory dom text)
    (readsSub : ReadsString memory sub sought)
    (enough : sought.length ≤ text.length) :
    ∃ ret, memcmp memory dom sub sought.length = some ret ∧
      (ret = 0 ↔ sought <+: text) := by
  rw [memcmp]
  induction sought generalizing text dom sub with
  | nil => exact ⟨0, rfl, iff_of_true rfl List.nil_prefix⟩
  | cons wanted rest inductionHypothesis =>
      cases text with
      | nil => exact absurd enough (Nat.not_succ_le_zero _)
      | cons first others =>
          rw [List.length_cons, memcmpLoop, reads.head, readsSub.head]
          simp only [Option.bind_eq_bind, Option.bind_some]
          by_cases same : first = wanted
          · subst same
            rw [Int.sub_self, if_neg (not_not.mpr rfl),
              pointerAdd_one reads, pointerAdd_one readsSub]
            rcases inductionHypothesis reads.tail readsSub.tail
                (Nat.le_of_succ_le_succ enough) with
              ⟨ret, run, zero⟩
            refine ⟨ret, run, ?_⟩
            rw [zero, List.cons_prefix_cons, and_iff_right rfl]
          · have apart : first.toNat ≠ wanted.toNat := fun equal =>
              same (BitVec.eq_of_toNat_eq equal)
            have different : (first.toNat : Int) - wanted.toNat ≠ 0 := by
              omega
            rw [if_pos different]
            refine ⟨_, rfl, ?_⟩
            apply iff_of_false different
            intro isPrefix
            exact same (List.cons_prefix_cons.mp isPrefix).1.symm

/-- The loop of `strstr` finds the first occurrence in what is left. -/
theorem strstrLoop_first
    (reads : ReadsString memory dom text)
    (readsSub : ReadsString memory sub sought)
    (nonempty : 0 < sought.length) (enough : text.length < rounds) :
    ∃ found,
      strstrLoop memory sub sought.length rounds dom text.length =
        some found ∧
      PointsToFirst (OccursAt text sought) dom found := by
  induction rounds generalizing text dom with
  | zero => exact absurd enough (Nat.not_lt_zero _)
  | succ rounds inductionHypothesis =>
      rw [strstrLoop]
      by_cases room : sought.length ≤ text.length
      · rw [if_pos room]
        rcases memcmp_prefix reads readsSub room with ⟨ret, run, zero⟩
        simp only [run, Option.bind_eq_bind, Option.bind_some]
        by_cases here : ret = 0
        · rw [if_pos here]
          refine ⟨some dom, rfl, .first_here ?_⟩
          exact occursAt_zero.mpr (zero.mp here)
        · rw [if_neg here]
          cases text with
          | nil => exact absurd nonempty (Nat.not_lt.mpr room)
          | cons first others =>
              have fits := reads.fits
              rw [List.length_cons] at fits
              have left : sub64 (first :: others).length 1 =
                  others.length :=
                sub64_of_le (Nat.le_add_left 1 _) (by
                  rw [List.length_cons]
                  omega)
              rw [left, pointerAdd_one reads]
              rcases inductionHypothesis reads.tail
                  (Nat.lt_of_succ_lt_succ enough) with
                ⟨found, rest, points⟩
              refine ⟨found, rest, .first_later ?_ ?_⟩
              · rw [occursAt_zero, ← zero]
                exact here
              · exact points.congr occursAt_succ
      · rw [if_neg room]
        refine ⟨none, rfl, .nowhere ?_⟩
        exact not_occursAt_of_shorter (Nat.lt_of_not_le room)

/-- `strstr` finds the first occurrence, at the start for an empty string. -/
theorem strstr_first
    (reads : ReadsString memory dom text)
    (readsSub : ReadsString memory sub sought) :
    ∃ found, strstr memory dom sub = some found ∧
      PointsToFirst (OccursAt text sought) dom found := by
  rw [strstr, strlen_eq readsSub, strlen_eq reads]
  simp only [Option.bind_eq_bind, Option.bind_some]
  by_cases empty : sought.length = 0
  · rw [if_pos empty]
    refine ⟨some dom, rfl, .first_here ?_⟩
    rw [occursAt_zero, List.eq_nil_of_length_eq_zero empty]
    exact List.nil_prefix
  · rw [if_neg empty]
    have fits := reads.fits
    apply strstrLoop_first reads readsSub (Nat.pos_of_ne_zero empty)
    rw [addresses]
    omega

end

/-- The addresses of the bytes of two strings. -/
def InStrings {memory : ReadableMemory} (dom sub : StringIn memory)
    (address : Nat) : Prop :=
  dom.Covers address ∨ sub.Covers address

instance {memory : ReadableMemory} (dom sub : StringIn memory) :
    DecidablePred (InStrings dom sub) := fun address =>
  inferInstanceAs (Decidable (dom.Covers address ∨ sub.Covers address))

/--
For every two strings, `strstr` returns a pointer to the first position at
which the second occurs in the first, or `NULL` when it occurs nowhere, and
does so also when no byte but those of the two strings may be read.
-/
theorem strstr_finds_first
    {memory : ReadableMemory} (dom sub : StringIn memory) :
    ∃ found,
      strstr memory dom.address sub.address = some found ∧
      strstr (only memory (InStrings dom sub)) dom.address sub.address =
        some found ∧
      PointsToFirst (OccursAt dom.text sub.text) dom.address found := by
  rcases strstr_first dom.stands sub.stands with ⟨found, run, points⟩
  have domOnly : ReadsString (only memory (InStrings dom sub))
      dom.address dom.text :=
    dom.stands_only fun _ => Or.inl
  have subOnly : ReadsString (only memory (InStrings dom sub))
      sub.address sub.text :=
    sub.stands_only fun _ => Or.inr
  rcases strstr_first domOnly subOnly with ⟨guarded, guardedRun, same⟩
  refine ⟨found, run, ?_, points⟩
  rw [guardedRun, points.first_unique same]

end Kernull.SubstringSearch
