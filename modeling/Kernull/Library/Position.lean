import Mathlib.Tactic.Common

/-!
# The first and the last position with a property

A search through a row of cells returns a pointer to the best position at
which something holds, or nothing when it holds nowhere.  A search from the
first position on is put together from what it finds at that position and what
it finds behind it.
-/

namespace Kernull.Library.Position

/--
The pointer, which starts from the address of position zero, is that of a
position with the property such that no better one has it; without a pointer
no position has it.
-/
structure PointsTo
    (better : Nat → Nat → Prop) (holds : Nat → Prop) (address : Nat)
    (pointer : Option Nat) : Prop where
  found : ∀ p, pointer = some p →
    ∃ i, p = address + i ∧ holds i ∧ ∀ j, better j i → ¬ holds j
  null : pointer = none ↔ ∀ i, ¬ holds i

/-- A pointer to the first position. -/
abbrev PointsToFirst := PointsTo (· < ·)

/-- A pointer to the last position. -/
abbrev PointsToLast := PointsTo (· > ·)

namespace PointsTo

variable
  {better : Nat → Nat → Prop} {holds other : Nat → Prop} {address : Nat}
  {pointer : Option Nat}

/-- Where the property holds nowhere there is no pointer. -/
theorem nowhere (never : ∀ i, ¬ holds i) :
    PointsTo better holds address none where
  found _ same := nomatch same
  null := iff_of_true rfl never

theorem congr (points : PointsTo better holds address pointer)
    (same : ∀ i, other i ↔ holds i) :
    PointsTo better other address pointer := by
  have equal : other = holds := funext fun i => propext (same i)
  rwa [equal]

/-- A property of position zero is first there. -/
theorem first_here (here : holds 0) :
    PointsToFirst holds address (some address) where
  found p same := by
    refine ⟨0, ?_, here, ?_⟩
    · exact (Option.some.inj same).symm
    · intro j earlier
      exact absurd earlier (Nat.not_lt_zero j)
  null := iff_of_false (fun same => nomatch same) fun never => never 0 here

/-- Without the property at position zero, the first one comes later. -/
theorem first_later (notHere : ¬ holds 0)
    (rest : PointsToFirst (fun i => holds (i + 1)) (address + 1) pointer) :
    PointsToFirst holds address pointer where
  found p same := by
    rcases rest.found p same with ⟨i, place, here, least⟩
    refine ⟨i + 1, by omega, here, ?_⟩
    intro j earlier
    cases j with
    | zero => exact notHere
    | succ j => exact least j (Nat.lt_of_succ_lt_succ earlier)
  null := by
    rw [rest.null]
    constructor
    · intro never i
      cases i with
      | zero => exact notHere
      | succ i => exact never i
    · intro never i
      exact never (i + 1)

/-- There is only one first position. -/
theorem first_unique {second : Option Nat}
    (points : PointsToFirst holds address pointer)
    (also : PointsToFirst holds address second) : pointer = second := by
  cases pointer with
  | none =>
      exact (also.null.mpr (points.null.mp rfl)).symm
  | some p =>
      cases second with
      | none => exact points.null.mpr (also.null.mp rfl)
      | some q =>
          rcases points.found p rfl with ⟨i, place, here, least⟩
          rcases also.found q rfl with ⟨j, otherPlace, there, otherLeast⟩
          rcases Nat.lt_trichotomy i j with before | same | behind
          · exact absurd here (otherLeast i before)
          · rw [place, otherPlace, same]
          · exact absurd there (least j behind)

/-- Position zero has the last one only if none comes later. -/
theorem last [Decidable (holds 0)]
    (rest : PointsToLast (fun i => holds (i + 1)) (address + 1) pointer) :
    PointsToLast holds address
      (pointer.or (if holds 0 then some address else none)) := by
  cases pointer with
  | none =>
      have never := rest.null.mp rfl
      rw [Option.none_or]
      constructor
      · intro p same
        split_ifs at same with here
        refine ⟨0, ?_, here, ?_⟩
        · exact (Option.some.inj same).symm
        · intro j later
          cases j with
          | zero => exact absurd later (Nat.lt_irrefl 0)
          | succ j => exact never j
      · constructor
        · intro same i
          split_ifs at same with here
          cases i with
          | zero => exact here
          | succ i => exact never i
        · intro nowhere
          exact if_neg (nowhere 0)
  | some found =>
      rw [Option.some_or]
      constructor
      · intro p same
        rcases rest.found p same with ⟨i, place, here, most⟩
        refine ⟨i + 1, by omega, here, ?_⟩
        intro j later
        cases j with
        | zero => exact absurd later (Nat.not_lt_zero _)
        | succ j => exact most j (Nat.lt_of_succ_lt_succ later)
      · apply iff_of_false
        · exact fun same => nomatch same
        · intro never
          rcases rest.found found rfl with ⟨i, _, here, _⟩
          exact never (i + 1) here

end PointsTo

end Kernull.Library.Position
