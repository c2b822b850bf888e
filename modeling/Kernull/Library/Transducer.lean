import Mathlib.Data.List.Basic

/-!
# Partial transducers

A transducer consumes one input at a time, emits finitely many outputs and
may refuse an input.  Feeding it a list of inputs concatenates what it emits.
When every frame of inputs leads from a resting state back to a resting state
and emits outputs that depend on the frame alone, a concatenation of frames is
decoded frame by frame.
-/

namespace Kernull.Library.Transducer

variable {State Input Output Frame : Type}

/-- Feed a list of inputs to a transducer, collecting its outputs. -/
def feed (step : State → Input → Option (State × List Output)) :
    State → List Input → Option (State × List Output)
  | state, [] => some (state, [])
  | state, input :: rest =>
      (step state input).bind fun first =>
        (feed step first.1 rest).map fun later =>
          (later.1, first.2 ++ later.2)

variable {step : State → Input → Option (State × List Output)}

@[simp]
theorem feed_nil (state : State) :
    feed step state [] = some (state, []) :=
  rfl

theorem feed_cons (state : State) (input : Input) (rest : List Input) :
    feed step state (input :: rest) =
      (step state input).bind fun first =>
        (feed step first.1 rest).map fun later =>
          (later.1, first.2 ++ later.2) :=
  rfl

/-- One input that is accepted. -/
theorem feed_cons_of_step
    {state next : State} {input : Input} {emitted : List Output}
    (stepped : step state input = some (next, emitted))
    (rest : List Input) :
    feed step state (input :: rest) =
      (feed step next rest).map fun later =>
        (later.1, emitted ++ later.2) := by
  rw [feed_cons, stepped]
  rfl

/-- Feeding a concatenation is feeding its parts one after the other. -/
theorem feed_append
    {state : State} {front back : List Input} :
    feed step state (front ++ back) =
      (feed step state front).bind fun first =>
        (feed step first.1 back).map fun later =>
          (later.1, first.2 ++ later.2) := by
  induction front generalizing state with
  | nil => cases fed : feed step state back <;> simp [fed]
  | cons input front inductionHypothesis =>
      rw [List.cons_append, feed_cons, feed_cons]
      cases stepped : step state input with
      | none => rfl
      | some first =>
          simp only [Option.bind_some, inductionHypothesis]
          cases feed step first.1 front with
          | none => rfl
          | some second =>
              simp [Function.comp_def, List.append_assoc]

theorem feed_append_of_feed
    {state next : State} {front back : List Input}
    {emitted : List Output}
    (fed : feed step state front = some (next, emitted)) :
    feed step state (front ++ back) =
      (feed step next back).map fun later =>
        (later.1, emitted ++ later.2) := by
  rw [feed_append, fed]
  rfl

/--
Frame-wise decoding: frames that lead from rest to rest are decoded in order,
each into its own outputs.
-/
theorem feed_frames
    {resting : State → Prop}
    {encode : Frame → List Input} {decoded : Frame → List Output}
    (decodes : ∀ state frame, resting state →
      ∃ next, feed step state (encode frame) = some (next, decoded frame) ∧
        resting next)
    {state : State} (rests : resting state) (frames : List Frame) :
    ∃ next,
      feed step state (frames.flatMap encode) =
        some (next, frames.flatMap decoded) ∧
      resting next := by
  induction frames generalizing state with
  | nil => exact ⟨state, rfl, rests⟩
  | cons frame frames inductionHypothesis =>
      obtain ⟨middle, first, rested⟩ := decodes state frame rests
      obtain ⟨next, later, rested⟩ := inductionHypothesis rested
      refine ⟨next, ?_, rested⟩
      rw [List.flatMap_cons, feed_append_of_feed first, later]
      rfl

end Kernull.Library.Transducer
