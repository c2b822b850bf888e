import Mathlib.Logic.Basic

/-!
# Runs of a labelled partial transition system

A step function consumes one label and either yields the next state or refuses
the label.  A run folds the step function over a list of labels.  An invariant
kept by the steps that meet a guard holds in every state that a guarded run
visits.
-/

namespace Kernull.Library.LabelledRun

variable {State Label : Type}

/-- Iterate a partial step function along a list of labels. -/
def run (step : State → Label → Option State) :
    State → List Label → Option State
  | state, [] => some state
  | state, label :: rest =>
      (step state label).bind fun next => run step next rest

@[simp]
theorem run_nil
    (step : State → Label → Option State) (state : State) :
    run step state [] = some state :=
  rfl

theorem run_cons
    (step : State → Label → Option State) (state : State)
    (label : Label) (rest : List Label) :
    run step state (label :: rest) =
      (step state label).bind fun next => run step next rest :=
  rfl

theorem run_cons_eq_some_iff
    {step : State → Label → Option State} {state final : State}
    {label : Label} {rest : List Label} :
    run step state (label :: rest) = some final ↔
      ∃ next, step state label = some next ∧
        run step next rest = some final := by
  rw [run_cons, Option.bind_eq_some_iff]

theorem run_append
    (step : State → Label → Option State) (state : State)
    (before after : List Label) :
    run step state (before ++ after) =
      (run step state before).bind fun middle => run step middle after := by
  induction before generalizing state with
  | nil => rfl
  | cons label before inductionHypothesis =>
      rw [List.cons_append, run_cons, run_cons, Option.bind_assoc]
      exact congrArg _ (funext fun next => inductionHypothesis next)

/-- What a map shows of a run is a run, when it shows so much of each step. -/
theorem run_map
    {Shown : Type} {step : State → Label → Option State}
    {shownStep : Shown → Label → Option Shown} {shows : State → Shown}
    (commutes : ∀ state label,
      (step state label).map shows = shownStep (shows state) label)
    (state : State) (labels : List Label) :
    (run step state labels).map shows =
      run shownStep (shows state) labels := by
  induction labels generalizing state with
  | nil => rfl
  | cons label rest inductionHypothesis =>
      rw [run_cons, run_cons, ← commutes, Option.map_bind, Option.bind_map]
      exact congrArg _ (funext inductionHypothesis)

/-- A state is visited when some prefix of the labels leads to it. -/
def Visits (step : State → Label → Option State)
    (start : State) (labels : List Label) (visited : State) : Prop :=
  ∃ before after, labels = before ++ after ∧
    run step start before = some visited

theorem visits_start
    (step : State → Label → Option State)
    (start : State) (labels : List Label) :
    Visits step start labels start :=
  ⟨[], labels, rfl, rfl⟩

theorem visits_cons_iff
    {step : State → Label → Option State}
    {start visited : State} {label : Label} {rest : List Label} :
    Visits step start (label :: rest) visited ↔
      visited = start ∨
        ∃ next, step start label = some next ∧
          Visits step next rest visited := by
  constructor
  · rintro ⟨before, after, split, reached⟩
    cases before with
    | nil =>
        left
        simpa using reached.symm
    | cons head before =>
        right
        simp only [List.cons_append, List.cons.injEq] at split
        obtain ⟨rfl, rfl⟩ := split
        obtain ⟨next, stepped, reached⟩ :=
          run_cons_eq_some_iff.mp reached
        exact ⟨next, stepped, before, after, rfl, reached⟩
  · rintro (rfl | ⟨next, stepped, before, after, rfl, reached⟩)
    · exact visits_start step visited (label :: rest)
    · exact ⟨label :: before, after, rfl,
        run_cons_eq_some_iff.mpr ⟨next, stepped, reached⟩⟩

/-- Every step taken along the labels meets the guard in its source state. -/
def Guarded (step : State → Label → Option State)
    (guard : State → Label → Prop) : State → List Label → Prop
  | _, [] => True
  | state, label :: rest =>
      guard state label ∧
        ∀ next, step state label = some next →
          Guarded step guard next rest

/-- A decidable guard can be checked along a run. -/
instance decidableGuarded
    {step : State → Label → Option State}
    {guard : State → Label → Prop}
    [∀ state label, Decidable (guard state label)] :
    (state : State) → (labels : List Label) →
      Decidable (Guarded step guard state labels)
  | _, [] => inferInstanceAs (Decidable True)
  | state, label :: rest =>
      match stepped : step state label with
      | none =>
          decidable_of_iff (guard state label)
            ⟨fun met => ⟨met, fun _ taken =>
              nomatch stepped.symm.trans taken⟩, And.left⟩
      | some next =>
          have : Decidable (Guarded step guard next rest) :=
            decidableGuarded next rest
          decidable_of_iff
            (guard state label ∧ Guarded step guard next rest)
            ⟨fun met => ⟨met.1, fun _ taken =>
              Option.some.inj (stepped.symm.trans taken) ▸ met.2⟩,
              fun met => ⟨met.1, met.2 next stepped⟩⟩

/--
An invariant of the initial state that every guarded step keeps holds in each
state visited by a guarded run.
-/
theorem invariant_of_guarded
    {step : State → Label → Option State}
    {guard : State → Label → Prop} {invariant : State → Prop}
    (keeps : ∀ state label next, invariant state →
      guard state label → step state label = some next →
        invariant next)
    {start visited : State} {labels : List Label}
    (initially : invariant start)
    (guarded : Guarded step guard start labels)
    (visits : Visits step start labels visited) :
    invariant visited := by
  induction labels generalizing start with
  | nil =>
      obtain ⟨before, after, split, reached⟩ := visits
      obtain ⟨rfl, rfl⟩ := List.append_eq_nil_iff.mp split.symm
      simp only [run_nil, Option.some.injEq] at reached
      exact reached ▸ initially
  | cons label rest inductionHypothesis =>
      rcases visits_cons_iff.mp visits with rfl | ⟨next, stepped, later⟩
      · exact initially
      · exact inductionHypothesis
          (keeps start label next initially guarded.1 stepped)
          (guarded.2 next stepped) later

/--
When guarded steps go through and keep an invariant, then guarded runs go
through and end in it.
-/
theorem exists_run_of_guarded
    {step : State → Label → Option State}
    {guard : State → Label → Prop} {invariant : State → Prop}
    (proceeds : ∀ state label, invariant state → guard state label →
      ∃ next, step state label = some next ∧ invariant next)
    {start : State} {labels : List Label}
    (initially : invariant start)
    (guarded : Guarded step guard start labels) :
    ∃ final, run step start labels = some final ∧ invariant final := by
  induction labels generalizing start with
  | nil => exact ⟨start, rfl, initially⟩
  | cons label rest inductionHypothesis =>
      obtain ⟨next, stepped, held⟩ :=
        proceeds start label initially guarded.1
      obtain ⟨final, reached, finally_⟩ :=
        inductionHypothesis held (guarded.2 next stepped)
      exact ⟨final, run_cons_eq_some_iff.mpr ⟨next, stepped, reached⟩,
        finally_⟩

/-- The steps up to any point of a guarded run are guarded. -/
theorem Guarded.of_append
    {step : State → Label → Option State}
    {guard : State → Label → Prop}
    {start : State} {before after : List Label}
    (guarded : Guarded step guard start (before ++ after)) :
    Guarded step guard start before := by
  induction before generalizing start with
  | nil => trivial
  | cons label before inductionHypothesis =>
      exact ⟨guarded.1, fun next stepped =>
        inductionHypothesis (guarded.2 next stepped)⟩

/-- A guard that every step meets is met along every run. -/
theorem guarded_of_forall
    {step : State → Label → Option State}
    {guard : State → Label → Prop}
    (meets : ∀ state label, guard state label)
    (start : State) (labels : List Label) :
    Guarded step guard start labels := by
  induction labels generalizing start with
  | nil => trivial
  | cons label rest inductionHypothesis =>
      exact ⟨meets start label, fun next _ => inductionHypothesis next⟩

/--
When an invariant makes of each guarded step one that meets another guard and
keeps the invariant, the run meets the other guard.
-/
theorem Guarded.imp_of_invariant
    {step : State → Label → Option State}
    {guard other : State → Label → Prop} {invariant : State → Prop}
    (turns : ∀ state label, invariant state → guard state label →
      other state label ∧
        ∀ next, step state label = some next → invariant next)
    {start : State} {labels : List Label}
    (initially : invariant start)
    (guarded : Guarded step guard start labels) :
    Guarded step other start labels := by
  induction labels generalizing start with
  | nil => trivial
  | cons label rest inductionHypothesis =>
      obtain ⟨met, kept⟩ := turns start label initially guarded.1
      exact ⟨met, fun next stepped =>
        inductionHypothesis (kept next stepped) (guarded.2 next stepped)⟩

/-- A run whose steps meet two guards meets both at each step. -/
theorem Guarded.and
    {step : State → Label → Option State}
    {guard other : State → Label → Prop}
    {start : State} {labels : List Label}
    (guarded : Guarded step guard start labels)
    (otherGuarded : Guarded step other start labels) :
    Guarded step (fun state label => guard state label ∧ other state label)
      start labels := by
  induction labels generalizing start with
  | nil => trivial
  | cons label rest inductionHypothesis =>
      exact ⟨⟨guarded.1, otherGuarded.1⟩, fun next stepped =>
        inductionHypothesis (guarded.2 next stepped)
          (otherGuarded.2 next stepped)⟩

/--
When an invariant holds in each state visited, every step taken meets a guard
without which it would leave the invariant.
-/
theorem guarded_of_invariant
    {step : State → Label → Option State}
    {guard : State → Label → Prop} {invariant : State → Prop}
    (needs : ∀ state label, invariant state →
      (∀ next, step state label = some next → invariant next) →
        guard state label)
    {start : State} {labels : List Label}
    (held : ∀ visited, Visits step start labels visited →
      invariant visited) :
    Guarded step guard start labels := by
  induction labels generalizing start with
  | nil => trivial
  | cons label rest inductionHypothesis =>
      have later (next : State) (stepped : step start label = some next)
          (visited : State) (visits : Visits step next rest visited) :
          invariant visited :=
        held visited (visits_cons_iff.mpr (Or.inr ⟨next, stepped, visits⟩))
      constructor
      · apply needs start label (held start (visits_start step start _))
        intro next stepped
        exact later next stepped next (visits_start step next rest)
      · intro next stepped
        exact inductionHypothesis (later next stepped)

/--
A run whose steps meet a guard is followed by another system that follows each
such step.
-/
theorem run_followed
    {Other : Type} {step : State → Label → Option State}
    {otherStep : Other → Label → Option Other}
    {guard : State → Label → Prop} {follows : Other → State → Prop}
    (followed : ∀ other state label next, follows other state →
      guard state label → step state label = some next →
        ∃ otherNext, otherStep other label = some otherNext ∧
          follows otherNext next)
    {other : Other} {start final : State} {labels : List Label}
    (initially : follows other start)
    (guarded : Guarded step guard start labels)
    (reached : run step start labels = some final) :
    ∃ otherFinal, run otherStep other labels = some otherFinal ∧
      follows otherFinal final := by
  induction labels generalizing other start with
  | nil =>
      rw [run_nil] at reached
      exact ⟨other, rfl, Option.some.inj reached ▸ initially⟩
  | cons label rest inductionHypothesis =>
      obtain ⟨next, stepped, reached⟩ := run_cons_eq_some_iff.mp reached
      obtain ⟨otherNext, otherStepped, further⟩ :=
        followed other start label next initially guarded.1 stepped
      obtain ⟨otherFinal, otherReached, finally_⟩ :=
        inductionHypothesis further (guarded.2 next stepped) reached
      exact ⟨otherFinal,
        run_cons_eq_some_iff.mpr ⟨otherNext, otherStepped, otherReached⟩,
        finally_⟩

section

variable
  {step : State → Label → Option State} {invariant : State → Prop}
  (keeps : ∀ state label next, invariant state →
    step state label = some next → invariant next)

include keeps

/-- An invariant that every step keeps holds in each state visited. -/
theorem invariant_of_visits
    {start visited : State} {labels : List Label}
    (initially : invariant start)
    (visits : Visits step start labels visited) :
    invariant visited :=
  invariant_of_guarded
    (fun state label next held _ => keeps state label next held)
    initially (guarded_of_forall (fun _ _ => trivial) start labels) visits

/--
What a map shows of a guarded run is a run, when in the states that meet an
invariant it shows so much of each guarded step.
-/
theorem run_map_of_guarded
    {Shown : Type} {shownStep : Shown → Label → Option Shown}
    {shows : State → Shown} {guard : State → Label → Prop}
    (commutes : ∀ state label, invariant state → guard state label →
      (step state label).map shows = shownStep (shows state) label)
    {start : State} (initially : invariant start) {labels : List Label}
    (guarded : Guarded step guard start labels) :
    (run step start labels).map shows =
      run shownStep (shows start) labels := by
  induction labels generalizing start with
  | nil => rfl
  | cons label rest inductionHypothesis =>
      rw [run_cons, run_cons, ← commutes start label initially guarded.1]
      cases stepped : step start label with
      | none => rfl
      | some next =>
          exact inductionHypothesis (keeps start label next initially stepped)
            (guarded.2 next stepped)

/-- The same for all runs, when each step is shown so. -/
theorem run_map_of_invariant
    {Shown : Type} {shownStep : Shown → Label → Option Shown}
    {shows : State → Shown}
    (commutes : ∀ state label, invariant state →
      (step state label).map shows = shownStep (shows state) label)
    {start : State} (initially : invariant start) (labels : List Label) :
    (run step start labels).map shows =
      run shownStep (shows start) labels :=
  run_map_of_guarded keeps (fun state label held _ =>
    commutes state label held) initially
    (guarded_of_forall (fun _ _ => trivial) start labels)

end

end Kernull.Library.LabelledRun
