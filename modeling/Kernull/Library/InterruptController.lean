import Mathlib.Logic.Function.Basic
import Mathlib.Tactic.Common

/-!
# A cascade of two interrupt controllers

Two programmable interrupt controllers with eight inputs each, the second one
connected to an input of the first.  A controller that is written to goes
through its initialisation sequence; it then passes on the most urgent request
that is not masked and not held up by an interrupt in service, until it is told
that the service has ended.

Seen from outside, a cascade with nothing in service is the set of requests
that it will pass on: acknowledging takes the most urgent one out, and the ends
of interrupt that belong to it lead back to nothing in service.
-/

namespace Kernull.Library.InterruptController

/-! ## One controller -/

/-- What the next byte at the data port means. -/
inductive Phase where
  | ready
  | expectsVector
  | expectsCascade
  | expectsMode
  deriving DecidableEq

/-- The registers of a controller. -/
structure Chip where
  requested : Fin 8 → Bool
  inService : Fin 8 → Bool
  masked : Fin 8 → Bool
  vectorBase : BitVec 8
  cascade : BitVec 8
  microprocessorMode : Bool
  automaticEnd : Bool
  needsMode : Bool
  single : Bool
  phase : Phase

/-- The most urgent of some inputs. -/
def first (inputs : Fin 8 → Bool) : Option (Fin 8) :=
  (List.finRange 8).find? inputs

namespace Chip

/-- A request on an input. -/
def raise (chip : Chip) (input : Fin 8) : Chip :=
  { chip with requested := Function.update chip.requested input true }

/-- The request on an input goes. -/
def lower (chip : Chip) (input : Fin 8) : Chip :=
  { chip with requested := Function.update chip.requested input false }

/-- End the service of an input. -/
def endOf (chip : Chip) (input : Fin 8) : Chip :=
  { chip with inService := Function.update chip.inService input false }

/-- End the most urgent service. -/
def endMostUrgent (chip : Chip) : Chip :=
  match first chip.inService with
  | some input => chip.endOf input
  | none => chip

/--
A byte at the command port: the first word of an initialisation, or an end of
interrupt.  Polling and changes of the priorities are not modelled.
-/
def writeCommand (chip : Chip) (data : BitVec 8) : Chip :=
  if data.getLsbD 4 then
    { chip with
      requested := fun _ => false
      masked := fun _ => false
      microprocessorMode := chip.microprocessorMode && data.getLsbD 0
      automaticEnd := chip.automaticEnd && data.getLsbD 0
      needsMode := data.getLsbD 0
      single := data.getLsbD 1
      phase := .expectsVector }
  else if data.getLsbD 3 then
    chip
  else if data.extractLsb' 5 3 = 0b001 then
    chip.endMostUrgent
  else if data.extractLsb' 5 3 = 0b011 then
    chip.endOf ⟨(data.extractLsb' 0 3).toNat, (data.extractLsb' 0 3).isLt⟩
  else
    chip

/-- The phase behind the words that every initialisation has. -/
def lastPhase (chip : Chip) : Phase :=
  if chip.needsMode then .expectsMode else .ready

/-- A byte at the data port. -/
def writeData (chip : Chip) (data : BitVec 8) : Chip :=
  match chip.phase with
  | .expectsVector =>
      { chip with
        vectorBase := data &&& 0xF8
        phase := if chip.single then chip.lastPhase else .expectsCascade }
  | .expectsCascade =>
      { chip with cascade := data, phase := chip.lastPhase }
  | .expectsMode =>
      { chip with
        microprocessorMode := data.getLsbD 0
        automaticEnd := data.getLsbD 1
        phase := .ready }
  | .ready => { chip with masked := fun input => data.getLsbD input }

/-- The input that is passed on, given those with a request. -/
def passes (chip : Chip) (pending : Fin 8 → Bool) : Option (Fin 8) :=
  match first fun input => chip.inService input || pending input with
  | some input => if chip.inService input then none else some input
  | none => none

/-- The inputs with a request that is not masked. -/
def pending (chip : Chip) (input : Fin 8) : Bool :=
  chip.requested input && !chip.masked input

/-- The request of an input is taken into service. -/
def take (chip : Chip) (input : Fin 8) : Chip :=
  { chip with
    requested := Function.update chip.requested input false
    inService :=
      if chip.automaticEnd then chip.inService
      else Function.update chip.inService input true }

/-- The vector of an input. -/
def vector (chip : Chip) (input : Fin 8) : BitVec 8 :=
  chip.vectorBase + BitVec.ofNat 8 input

/-- Nothing is in service. -/
def Idle (chip : Chip) : Prop :=
  ∀ input, chip.inService input = false

/-- Without anything in service, the most urgent request is passed on. -/
theorem Idle.passes {chip : Chip} (idle : chip.Idle)
    (pending : Fin 8 → Bool) :
    chip.passes pending = first pending := by
  have requests : (fun input => chip.inService input || pending input) =
      pending := by
    funext input
    rw [idle input, Bool.false_or]
  rw [Chip.passes, requests]
  cases first pending with
  | none => rfl
  | some input => simp [idle input]

theorem Idle.endMostUrgent {chip : Chip} (idle : chip.Idle) :
    chip.endMostUrgent = chip := by
  have none_ : first chip.inService = none := by
    apply List.find?_eq_none.mpr
    intro input _ busy
    exact Bool.noConfusion ((idle input).symm.trans busy)
  rw [Chip.endMostUrgent, none_]

/-- At most one input is in service. -/
def AtMostOne (chip : Chip) : Prop :=
  ∀ input other, chip.inService input = true →
    chip.inService other = true → input = other

theorem Idle.atMostOne {chip : Chip} (idle : chip.Idle) : chip.AtMostOne :=
  fun input _ busy => Bool.noConfusion ((idle input).symm.trans busy)

/-- Taking an input into service, nothing else is in service. -/
theorem Idle.atMostOne_take
    {chip : Chip} (idle : chip.Idle) (input : Fin 8) :
    (chip.take input).AtMostOne := by
  have only : ∀ other, (chip.take input).inService other = true →
      other = input := by
    intro other busy
    by_cases same : other = input
    · exact same
    · have unchanged : (chip.take input).inService other = false := by
        rw [take]
        cases chip.automaticEnd with
        | true => exact idle other
        | false => exact (Function.update_of_ne same ..).trans (idle other)
      exact Bool.noConfusion (unchanged.symm.trans busy)
  intro one other oneBusy otherBusy
  rw [only one oneBusy, only other otherBusy]

/-- Ending the only service leaves none. -/
theorem AtMostOne.idle_endMostUrgent
    {chip : Chip} (most : chip.AtMostOne) : chip.endMostUrgent.Idle := by
  intro input
  rw [endMostUrgent]
  cases found : first chip.inService with
  | none =>
      have missing := List.find?_eq_none.mp found input
        (List.mem_finRange input)
      exact Bool.eq_false_iff.mpr missing
  | some other =>
      show Function.update chip.inService other false input = false
      by_cases same : input = other
      · rw [same, Function.update_self]
      · rw [Function.update_of_ne same]
        apply Bool.eq_false_iff.mpr
        intro busy
        exact same (most input other busy (List.find?_some found))

/-- Ending a service changes nothing but what is in service. -/
theorem endMostUrgent_eq (chip : Chip) :
    chip.endMostUrgent =
      { chip with inService := chip.endMostUrgent.inService } := by
  rw [endMostUrgent]
  cases first chip.inService <;> rfl

/-! ### Requests that are not masked -/

section

variable (chip : Chip) (input : Fin 8)

theorem pending_lower :
    (chip.lower input).pending = Function.update chip.pending input false := by
  funext other
  by_cases same : other = input
  · rw [same, Function.update_self]
    simp [pending, lower]
  · rw [Function.update_of_ne same]
    simp [pending, lower, Function.update_of_ne same]

theorem pending_take :
    (chip.take input).pending = Function.update chip.pending input false :=
  chip.pending_lower input

theorem pending_raise (unmasked : chip.masked input = false) :
    (chip.raise input).pending = Function.update chip.pending input true := by
  funext other
  by_cases same : other = input
  · rw [same, Function.update_self]
    simp [pending, raise, unmasked]
  · rw [Function.update_of_ne same]
    simp [pending, raise, Function.update_of_ne same]

end

end Chip

/-! ## The cascade -/

/-- The input of the first controller that the second one is connected to. -/
def cascadeInput : Fin 8 := ⟨2, by decide⟩

/-- Two controllers. -/
structure Cascade where
  primary : Chip
  secondary : Chip

/-- An input that a device is connected to. -/
inductive Line where
  | primary (input : Fin 8)
  | secondary (input : Fin 8)
  deriving DecidableEq

namespace Line

/-- The lines of an input of the first controller, the most urgent first. -/
def behind (input : Fin 8) : List Line :=
  if input = cascadeInput then (List.finRange 8).map .secondary
  else [.primary input]

/-- All lines, the most urgent first. -/
def order : List Line :=
  (List.finRange 8).flatMap behind

/-- The most urgent of some lines. -/
def next (requests : Line → Bool) : Option Line :=
  order.find? requests

end Line

namespace Cascade

/-- The input of the second controller that is passed on. -/
def secondaryPasses (cascade : Cascade) : Option (Fin 8) :=
  cascade.secondary.passes cascade.secondary.pending

/-- The inputs of the first controller with a request that is not masked. -/
def primaryPending (cascade : Cascade) (input : Fin 8) : Bool :=
  if input = cascadeInput then
    cascade.secondaryPasses.isSome && !cascade.primary.masked cascadeInput
  else
    cascade.primary.pending input

/-- A device requests an interrupt. -/
def raise (cascade : Cascade) : Line → Cascade
  | .primary input =>
      { cascade with primary := cascade.primary.raise input }
  | .secondary input =>
      { cascade with secondary := cascade.secondary.raise input }

/-- A device takes its request back. -/
def withdraw (cascade : Cascade) : Line → Cascade
  | .primary input =>
      { cascade with primary := cascade.primary.lower input }
  | .secondary input =>
      { cascade with secondary := cascade.secondary.lower input }

/-- Take a line into service. -/
def serve (cascade : Cascade) : Line → Cascade
  | .primary input => { cascade with primary := cascade.primary.take input }
  | .secondary input =>
      { primary := cascade.primary.take cascadeInput
        secondary := cascade.secondary.take input }

/-- The vector of a line. -/
def vector (cascade : Cascade) : Line → BitVec 8
  | .primary input => cascade.primary.vector input
  | .secondary input => cascade.secondary.vector input

/-- The lowest input of a controller stands for a request that has gone. -/
def spuriousInput : Fin 8 := ⟨7, by decide⟩

/--
The processor acknowledges an interrupt and gets its vector.  A request that
has gone in the meantime is answered with the lowest input, which is not taken
into service.
-/
def acknowledge (cascade : Cascade) : Cascade × BitVec 8 :=
  match cascade.primary.passes cascade.primaryPending with
  | none => (cascade, cascade.primary.vector spuriousInput)
  | some input =>
      if input = cascadeInput then
        match cascade.secondaryPasses with
        | some other =>
            (cascade.serve (.secondary other),
              cascade.vector (.secondary other))
        | none =>
            ({ cascade with primary := cascade.primary.take cascadeInput },
              cascade.secondary.vector spuriousInput)
      else
        (cascade.serve (.primary input), cascade.vector (.primary input))

/-- An acknowledgement when the request of the second controller has gone. -/
def acknowledgeGone (cascade : Cascade) : Cascade × BitVec 8 :=
  ({ cascade with primary := cascade.primary.take cascadeInput },
    cascade.secondary.vector spuriousInput)

/-- The requests that the cascade will pass on. -/
def requests (cascade : Cascade) : Line → Bool
  | .primary input =>
      input != cascadeInput && cascade.primary.pending input
  | .secondary input =>
      cascade.secondary.pending input &&
        !cascade.primary.masked cascadeInput

/-- Nothing is in service. -/
structure Quiet (cascade : Cascade) : Prop where
  primaryIdle : cascade.primary.Idle
  secondaryIdle : cascade.secondary.Idle

/-- No input is masked. -/
structure Unmasked (cascade : Cascade) : Prop where
  primary : ∀ input, cascade.primary.masked input = false
  secondary : ∀ input, cascade.secondary.masked input = false

end Cascade

/-! ## Acknowledging -/

namespace Line

/-- The most urgent line, found through the inputs of the first controller. -/
theorem find?_flatMap_behind
    (requests : Line → Bool) (inputs : List (Fin 8)) :
    (inputs.flatMap behind).find? requests =
      (inputs.find? fun input =>
          if input = cascadeInput then
            (first fun other => requests (.secondary other)).isSome
          else
            requests (.primary input)).bind fun input =>
        if input = cascadeInput then
          (first fun other => requests (.secondary other)).map .secondary
        else
          some (.primary input) := by
  induction inputs with
  | nil => rfl
  | cons input inputs inductionHypothesis =>
      rw [List.flatMap_cons, List.find?_append, inductionHypothesis, behind,
        List.find?_cons]
      by_cases connected : input = cascadeInput
      · simp only [if_pos connected]
        have mapped : ((List.finRange 8).map Line.secondary).find? requests =
            (first fun other => requests (.secondary other)).map
              .secondary := List.find?_map ..
        rw [mapped]
        cases found : first fun other => requests (.secondary other) with
        | none =>
            rw [Option.map_none, Option.none_or]
            rfl
        | some other =>
            rw [Option.map_some, Option.some_or]
            exact (if_pos connected).symm
      · simp only [if_neg connected]
        cases wanted : requests (.primary input) with
        | false =>
            rw [List.find?_cons_of_neg (by simp [wanted]), List.find?_nil,
              Option.none_or]
        | true =>
            rw [List.find?_cons_of_pos (by simp [wanted]), Option.some_or]
            exact (if_neg connected).symm

end Line

namespace Cascade

variable {cascade : Cascade}

namespace Quiet

/-- The second controller passes on its most urgent request. -/
theorem secondaryPasses_eq (quiet : cascade.Quiet) :
    cascade.secondaryPasses = first cascade.secondary.pending :=
  quiet.secondaryIdle.passes _

/-- The first controller passes on its most urgent request. -/
theorem primaryPasses_eq (quiet : cascade.Quiet) :
    cascade.primary.passes cascade.primaryPending =
      first cascade.primaryPending :=
  quiet.primaryIdle.passes _

/-- With the second controller masked, none of its lines has a request. -/
theorem first_secondary_requests (quiet : cascade.Quiet) :
    (first fun other => cascade.requests (.secondary other)) =
      if cascade.primary.masked cascadeInput then none
      else cascade.secondaryPasses := by
  rw [quiet.secondaryPasses_eq]
  simp only [requests]
  cases masked : cascade.primary.masked cascadeInput with
  | true =>
      simp only [Bool.not_true, Bool.and_false, if_true]
      exact List.find?_eq_none.mpr fun _ _ absurd_ => Bool.noConfusion absurd_
  | false => simp

/-- The next line, as the two controllers find it. -/
theorem next_requests (quiet : cascade.Quiet) :
    Line.next cascade.requests =
      (first cascade.primaryPending).bind fun input =>
        if input = cascadeInput then
          cascade.secondaryPasses.map .secondary
        else
          some (.primary input) := by
  have pending : (fun input =>
      if input = cascadeInput then
        (first fun other => cascade.requests (.secondary other)).isSome
      else
        cascade.requests (.primary input)) = cascade.primaryPending := by
    funext input
    rw [quiet.first_secondary_requests, primaryPending]
    by_cases connected : input = cascadeInput
    · cases cascade.primary.masked cascadeInput <;> simp [connected]
    · simp [requests, connected]
  rw [Line.next, Line.order, Line.find?_flatMap_behind, pending]
  show (first cascade.primaryPending).bind _ = _
  cases found : first cascade.primaryPending with
  | none => rfl
  | some input =>
      by_cases connected : input = cascadeInput
      · have wanted := List.find?_some found
        rw [connected, primaryPending, if_pos rfl] at wanted
        simp only [Bool.and_eq_true, Bool.not_eq_true'] at wanted
        simp only [Option.bind_some, if_pos connected]
        rw [quiet.first_secondary_requests, wanted.2]
        rfl
      · simp only [Option.bind_some, if_neg connected]

/-- Acknowledging takes the most urgent line into service. -/
theorem acknowledge_some
    (quiet : cascade.Quiet) {line : Line}
    (urgent : Line.next cascade.requests = some line) :
    cascade.acknowledge = (cascade.serve line, cascade.vector line) := by
  rw [quiet.next_requests] at urgent
  obtain ⟨input, found, chosen⟩ := Option.bind_eq_some_iff.mp urgent
  rw [acknowledge, quiet.primaryPasses_eq, found]
  dsimp only
  by_cases connected : input = cascadeInput
  · rw [if_pos connected] at chosen ⊢
    obtain ⟨other, passed, rfl⟩ := Option.map_eq_some_iff.mp chosen
    rw [passed]
  · rw [if_neg connected] at chosen ⊢
    rw [← Option.some.inj chosen]

/-- Acknowledging without a request changes nothing. -/
theorem acknowledge_none
    (quiet : cascade.Quiet) (none_ : Line.next cascade.requests = none) :
    cascade.acknowledge =
      (cascade, cascade.vector (.primary spuriousInput)) := by
  rw [quiet.next_requests] at none_
  rw [acknowledge, quiet.primaryPasses_eq]
  cases found : first cascade.primaryPending with
  | none => rfl
  | some input =>
      rw [found, Option.bind_some] at none_
      by_cases connected : input = cascadeInput
      · have wanted := List.find?_some found
        rw [connected, primaryPending, if_pos rfl] at wanted
        rw [if_pos connected, Option.map_eq_none_iff] at none_
        rw [none_] at wanted
        exact Bool.noConfusion wanted
      · rw [if_neg connected] at none_
        exact absurd none_ (Option.some_ne_none _)

end Quiet

/-! ## What happens to the requests -/

/-- A change of one request of the first controller. -/
theorem requests_update_primary
    {after : Cascade} {input : Fin 8} {value : Bool}
    (apart : input ≠ cascadeInput)
    (primary : after.primary.pending =
      Function.update cascade.primary.pending input value)
    (secondary : after.secondary = cascade.secondary)
    (masked : after.primary.masked = cascade.primary.masked) :
    after.requests =
      Function.update cascade.requests (.primary input) value := by
  funext line
  cases line with
  | primary place =>
      by_cases same : place = input
      · subst same
        simp [requests, primary, apart]
      · have different : Line.primary place ≠ .primary input :=
          fun equal => same (Line.primary.inj equal)
        simp only [requests, primary, Function.update_of_ne same,
          Function.update_of_ne different]
  | secondary place =>
      have different : Line.secondary place ≠ .primary input :=
        Line.noConfusion
      simp only [requests, secondary, masked,
        Function.update_of_ne different]

/-- A change of one request of the second controller. -/
theorem requests_update_secondary
    {after : Cascade} {input : Fin 8} {value : Bool}
    (primary : ∀ place, place ≠ cascadeInput →
      after.primary.pending place = cascade.primary.pending place)
    (secondary : after.secondary.pending =
      Function.update cascade.secondary.pending input value)
    (masked : after.primary.masked = cascade.primary.masked)
    (counts : value = false ∨ cascade.primary.masked cascadeInput = false) :
    after.requests =
      Function.update cascade.requests (.secondary input) value := by
  funext line
  cases line with
  | primary place =>
      have different : Line.primary place ≠ .secondary input :=
        Line.noConfusion
      rw [Function.update_of_ne different]
      by_cases connected : place = cascadeInput
      · simp [requests, connected]
      · simp only [requests, primary place connected]
  | secondary place =>
      by_cases same : place = input
      · subst same
        cases counts with
        | inl absent => simp [requests, secondary, masked, absent]
        | inr connected => simp [requests, secondary, masked, connected]
      · have different : Line.secondary place ≠ .secondary input :=
          fun equal => same (Line.secondary.inj equal)
        simp only [requests, secondary, masked, Function.update_of_ne same,
          Function.update_of_ne different]

theorem requests_raise
    (unmasked : cascade.Unmasked) {line : Line}
    (apart : line ≠ .primary cascadeInput) :
    (cascade.raise line).requests =
      Function.update cascade.requests line true := by
  cases line with
  | primary input =>
      apply requests_update_primary
      · intro connected
        exact apart (congrArg Line.primary connected)
      · exact cascade.primary.pending_raise input (unmasked.primary input)
      · rfl
      · rfl
  | secondary input =>
      apply requests_update_secondary
      · intro place _
        rfl
      · exact cascade.secondary.pending_raise input
          (unmasked.secondary input)
      · rfl
      · exact Or.inr (unmasked.primary cascadeInput)

theorem requests_withdraw
    {line : Line} (apart : line ≠ .primary cascadeInput) :
    (cascade.withdraw line).requests =
      Function.update cascade.requests line false := by
  cases line with
  | primary input =>
      apply requests_update_primary
      · intro connected
        exact apart (congrArg Line.primary connected)
      · exact cascade.primary.pending_lower input
      · rfl
      · rfl
  | secondary input =>
      apply requests_update_secondary
      · intro place _
        rfl
      · exact cascade.secondary.pending_lower input
      · rfl
      · exact Or.inl rfl

theorem requests_serve
    {line : Line} (apart : line ≠ .primary cascadeInput) :
    (cascade.serve line).requests =
      Function.update cascade.requests line false := by
  cases line with
  | primary input =>
      apply requests_update_primary
      · intro connected
        exact apart (congrArg Line.primary connected)
      · exact cascade.primary.pending_take input
      · rfl
      · rfl
  | secondary input =>
      apply requests_update_secondary
      · intro place different
        show (cascade.primary.take cascadeInput).pending place = _
        rw [Chip.pending_take, Function.update_of_ne different]
      · exact cascade.secondary.pending_take input
      · rfl
      · exact Or.inl rfl

/-- A request that has gone was not among the requests. -/
theorem requests_acknowledgeGone :
    cascade.acknowledgeGone.1.requests = cascade.requests := by
  funext line
  cases line with
  | primary place =>
      by_cases connected : place = cascadeInput
      · simp [requests, connected]
      · show (_ && (cascade.primary.take cascadeInput).pending place) = _
        rw [Chip.pending_take, Function.update_of_ne connected]
        rfl
  | secondary place => rfl

end Cascade

end Kernull.Library.InterruptController
