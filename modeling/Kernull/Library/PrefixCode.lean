import Mathlib.Data.List.Basic

/-!
# Texts that can be read back

Symbols that are written one after the other can be read back when the text of
none of them starts with that of another one.  A line can be read back up to its
end, and also a front of it that always has the same text behind it.
-/

namespace Kernull.Library.PrefixCode

variable {Symbol Letter : Type*} {text : Symbol → List Letter}

/-- No text is empty or starts with the text of another symbol. -/
structure PrefixFree (text : Symbol → List Letter) : Prop where
  nonempty : ∀ symbol, text symbol ≠ []
  apart : ∀ symbol other, text symbol <+: text other → symbol = other

/-- Texts that differ in their first letters. -/
theorem prefixFree_of_take
    {n : Nat} (positive : 0 < n) (long : ∀ symbol, n ≤ (text symbol).length)
    (differ : Function.Injective fun symbol => (text symbol).take n) :
    PrefixFree text where
  nonempty symbol empty := by
    have least := long symbol
    rw [empty] at least
    exact Nat.not_lt.mpr least positive
  apart symbol other starts := by
    rcases starts with ⟨rest, whole⟩
    apply differ
    show (text symbol).take n = (text other).take n
    rw [← whole, List.take_append_of_le_length (long symbol)]

/-- The symbols can be read back from the texts. -/
theorem PrefixFree.flatMap_injective (code : PrefixFree text) :
    Function.Injective (List.flatMap text) := by
  intro left
  induction left with
  | nil =>
      intro right same
      cases right with
      | nil => rfl
      | cons other right =>
          have empty := (List.append_eq_nil_iff.mp same.symm).1
          exact absurd empty (code.nonempty other)
  | cons symbol left inductionHypothesis =>
      intro right same
      cases right with
      | nil =>
          have empty := (List.append_eq_nil_iff.mp same).1
          exact absurd empty (code.nonempty symbol)
      | cons other right =>
          have whole : text symbol ++ left.flatMap text =
              text other ++ right.flatMap text := same
          have first : symbol = other := by
            cases List.prefix_or_prefix_of_prefix ⟨_, whole⟩
              (List.prefix_append (text other) (right.flatMap text)) with
            | inl starts => exact code.apart symbol other starts
            | inr starts => exact (code.apart other symbol starts).symm
          rw [first] at whole ⊢
          rw [inductionHypothesis (List.append_cancel_left whole)]

/-- Two lines with what is behind them. -/
theorem cut_injective
    {stop : Letter} {front other back otherBack : List Letter}
    (clear : stop ∉ front) (otherClear : stop ∉ other)
    (same : front ++ stop :: back = other ++ stop :: otherBack) :
    front = other ∧ back = otherBack := by
  induction front generalizing other with
  | nil =>
      cases other with
      | nil => exact ⟨rfl, (List.cons.inj same).2⟩
      | cons letter other =>
          have first : stop = letter := (List.cons.inj same).1
          rw [first] at otherClear
          exact absurd List.mem_cons_self otherClear
  | cons letter front inductionHypothesis =>
      cases other with
      | nil =>
          have first : letter = stop := (List.cons.inj same).1
          rw [first] at clear
          exact absurd List.mem_cons_self clear
      | cons next other =>
          rcases List.cons.inj same with ⟨first, rest⟩
          rcases inductionHypothesis
              (fun member => clear (List.mem_cons_of_mem letter member))
              (fun member => otherClear (List.mem_cons_of_mem next member))
              rest with
            ⟨fronts, backs⟩
          rw [first, fronts]
          exact ⟨rfl, backs⟩

/-- Two lines with the same text before their ends. -/
theorem line_injective
    {stop : Letter} {front other : List Letter}
    (clear : stop ∉ front) (otherClear : stop ∉ other)
    {middle back otherBack : List Letter}
    (same : front ++ (middle ++ stop :: back) =
      other ++ (middle ++ stop :: otherBack)) :
    front = other ∧ back = otherBack := by
  have stops : stop ∈ middle ++ [stop] :=
    List.mem_append_right middle (List.mem_singleton.mpr rfl)
  rcases List.eq_append_cons_of_mem stops with
    ⟨before, behind, split, unstopped⟩
  have moved (rest : List Letter) :
      middle ++ stop :: rest = before ++ stop :: (behind ++ rest) := by
    have grown := congrArg (· ++ rest) split
    simpa using grown
  rw [moved back, moved otherBack, ← List.append_assoc,
    ← List.append_assoc] at same
  have clearFront : stop ∉ front ++ before :=
    fun member => (List.mem_append.mp member).elim clear unstopped
  have clearOther : stop ∉ other ++ before :=
    fun member => (List.mem_append.mp member).elim otherClear unstopped
  rcases cut_injective clearFront clearOther same with ⟨fronts, backs⟩
  exact ⟨List.append_cancel_right fronts, List.append_cancel_left backs⟩

end Kernull.Library.PrefixCode
