import Kernull.Library.InterruptController
import Kernull.Library.LabelledRun

/-!
# The interrupt controllers

`pic_remap` and `irq_ack` of `arch/x86_64/pic.c` over a cascade of two
controllers.  Between the interrupts and their `irq_ack` devices may request
interrupts and take requests back at any time.  For the kernel the cascade is
then the set of lines with a request: the vector of an interrupt is that of the
most urgent one, no other request is lost, and after `irq_ack` nothing is held
up.
-/

namespace Kernull.Pic

open Kernull.Library.InterruptController
open Kernull.Library.LabelledRun

/-! ## Ports -/

/-- `PIC1_COMMAND`. -/
def pic1Command : BitVec 64 := 0x20

/-- `PIC1_DATA`. -/
def pic1Data : BitVec 64 := pic1Command + 1

/-- `PIC2_COMMAND`. -/
def pic2Command : BitVec 64 := 0xA0

/-- `PIC2_DATA`. -/
def pic2Data : BitVec 64 := pic2Command + 1

/-- `PIC_EOI`. -/
def picEoi : BitVec 8 := 0x20

/-- `ICW1_ICW4`. -/
def icw1Icw4 : BitVec 8 := 0x01

/-- `ICW1_INIT`. -/
def icw1Init : BitVec 8 := 0x10

/-- `ICW4_8086`. -/
def icw48086 : BitVec 8 := 0x01

/-- `outb` at the ports of the controllers. -/
def outb (cascade : Cascade) (port : BitVec 64) (data : BitVec 8) :
    Cascade :=
  if port = pic1Command then
    { cascade with primary := cascade.primary.writeCommand data }
  else if port = pic1Data then
    { cascade with primary := cascade.primary.writeData data }
  else if port = pic2Command then
    { cascade with secondary := cascade.secondary.writeCommand data }
  else if port = pic2Data then
    { cascade with secondary := cascade.secondary.writeData data }
  else
    cascade

/-- `pic_remap`. -/
def picRemap (cascade : Cascade) : Cascade :=
  let cascade := outb cascade pic1Command (icw1Init ||| icw1Icw4)
  let cascade := outb cascade pic2Command (icw1Init ||| icw1Icw4)
  let cascade := outb cascade pic1Data 0x20
  let cascade := outb cascade pic2Data 0x28
  let cascade := outb cascade pic1Data 0x04
  let cascade := outb cascade pic2Data 0x02
  let cascade := outb cascade pic1Data icw48086
  let cascade := outb cascade pic2Data icw48086
  let cascade := outb cascade pic1Data 0x00
  outb cascade pic2Data 0x00

/-- `irq_ack`. -/
def irqAck (cascade : Cascade) (irqNo : BitVec 8) : Cascade :=
  let cascade :=
    if 8 ≤ irqNo then outb cascade pic2Command picEoi else cascade
  outb cascade pic1Command picEoi

/-! ## Interrupts and their acknowledgement -/

/-- The controllers, and the vector of the interrupt being handled. -/
structure Interrupts where
  cascade : Cascade
  serving : Option (BitVec 8)

/--
What happens at the controllers.  The processor takes no interrupt while it
handles one; when the request of the second controller has gone, the interrupt
it was for has a vector nevertheless.
-/
inductive Event where
  | raise (line : Line)
  | withdraw (line : Line)
  | interrupt
  | interruptGone
  | irqAck
  deriving DecidableEq

/-- The number of a line, as `irq_ack` takes it. -/
def irqNumber : Line → BitVec 8
  | .primary input => BitVec.ofNat 8 input
  | .secondary input => 8 + BitVec.ofNat 8 input

/-- The vectors begin at 32. -/
def vectorOf (line : Line) : BitVec 8 :=
  32 + irqNumber line

/-- A device is connected to the line. -/
def HasDevice (line : Line) : Prop :=
  line ≠ .primary cascadeInput

instance (line : Line) : Decidable (HasDevice line) :=
  inferInstanceAs (Decidable (line ≠ .primary cascadeInput))

/-- One event. -/
def step (interrupts : Interrupts) : Event → Option Interrupts
  | .raise line =>
      if HasDevice line then
        some { interrupts with cascade := interrupts.cascade.raise line }
      else
        none
  | .withdraw line =>
      if HasDevice line then
        some { interrupts with cascade := interrupts.cascade.withdraw line }
      else
        none
  | .interrupt =>
      match interrupts.serving with
      | none =>
          some
            { cascade := interrupts.cascade.acknowledge.1
              serving := some interrupts.cascade.acknowledge.2 }
      | some _ => none
  | .interruptGone =>
      match interrupts.serving with
      | none =>
          some
            { cascade := interrupts.cascade.acknowledgeGone.1
              serving := some interrupts.cascade.acknowledgeGone.2 }
      | some _ => none
  | .irqAck =>
      interrupts.serving.map fun vector =>
        { cascade := irqAck interrupts.cascade (vector - 32)
          serving := none }

/-! ## Lines with a request -/

/-- The lines with a request, and the vector being handled. -/
structure PendingLines where
  pending : Line → Bool
  serving : Option (BitVec 8)

/-- What an interrupt takes out of the lines. -/
def dispatch (pending : Line → Bool) : PendingLines :=
  match Line.next pending with
  | some line =>
      { pending := Function.update pending line false
        serving := some (vectorOf line) }
  | none =>
      { pending := pending
        serving := some (vectorOf (.primary Cascade.spuriousInput)) }

/-- One event, for the set of lines with a request. -/
def pendingStep (lines : PendingLines) : Event → Option PendingLines
  | .raise line =>
      if HasDevice line then
        some { lines with pending := Function.update lines.pending line true }
      else
        none
  | .withdraw line =>
      if HasDevice line then
        some
          { lines with pending := Function.update lines.pending line false }
      else
        none
  | .interrupt =>
      match lines.serving with
      | none => some (dispatch lines.pending)
      | some _ => none
  | .interruptGone =>
      match lines.serving with
      | none =>
          some
            { lines with
              serving := some (vectorOf (.secondary Cascade.spuriousInput)) }
      | some _ => none
  | .irqAck => lines.serving.map fun _ => { lines with serving := none }

/-- What the kernel sees of the controllers. -/
def shown (interrupts : Interrupts) : PendingLines where
  pending := interrupts.cascade.requests
  serving := interrupts.serving

/-! ## The invariant -/

/-- How `pic_remap` sets the controllers up. -/
structure Remapped (cascade : Cascade) : Prop where
  unmasked : cascade.Unmasked
  primaryBase : cascade.primary.vectorBase = 0x20
  secondaryBase : cascade.secondary.vectorBase = 0x28

/-- What is in service while a vector is handled. -/
structure Served (cascade : Cascade) (vector : BitVec 8) : Prop where
  primary : cascade.primary.AtMostOne
  secondary : cascade.secondary.AtMostOne
  alone : ¬ 8 ≤ vector - 32 → cascade.secondary.Idle

/-- Between interrupts, nothing is in service. -/
def InService (cascade : Cascade) : Option (BitVec 8) → Prop
  | none => cascade.Quiet
  | some vector => Served cascade vector

/-- The invariant of all events. -/
structure Consistent (interrupts : Interrupts) : Prop where
  remapped : Remapped interrupts.cascade
  inService : InService interrupts.cascade interrupts.serving

/-- The ends of interrupt that `irq_ack` sends. -/
theorem irqAck_eq (cascade : Cascade) (irqNo : BitVec 8) :
    irqAck cascade irqNo =
      { primary := cascade.primary.endMostUrgent
        secondary :=
          if 8 ≤ irqNo then cascade.secondary.endMostUrgent
          else cascade.secondary } := by
  rw [irqAck]
  by_cases second : (8 : BitVec 8) ≤ irqNo
  · rw [if_pos second, if_pos second]
    rfl
  · rw [if_neg second, if_neg second]
    rfl

/-- The controllers behind `pic_remap`. -/
theorem picRemap_eq (cascade : Cascade) :
    picRemap cascade =
      { primary :=
          { cascade.primary with
            requested := fun _ => false
            masked := fun input => (0 : BitVec 8).getLsbD input
            vectorBase := 0x20
            cascade := 0x04
            microprocessorMode := true
            automaticEnd := false
            needsMode := true
            single := false
            phase := .ready }
        secondary :=
          { cascade.secondary with
            requested := fun _ => false
            masked := fun input => (0 : BitVec 8).getLsbD input
            vectorBase := 0x28
            cascade := 0x02
            microprocessorMode := true
            automaticEnd := false
            needsMode := true
            single := false
            phase := .ready } } :=
  rfl

theorem remapped_picRemap (cascade : Cascade) :
    Remapped (picRemap cascade) := by
  rw [picRemap_eq]
  constructor
  · constructor <;>
      exact fun input => BitVec.getLsbD_zero
  · rfl
  · rfl

/-- No request survives `pic_remap`. -/
theorem requests_picRemap (cascade : Cascade) :
    (picRemap cascade).requests = fun _ => false := by
  rw [picRemap_eq]
  funext line
  cases line <;>
    simp [Cascade.requests, Chip.pending]

/-- The vectors of the controllers. -/
theorem Remapped.vector_eq
    {cascade : Cascade} (remapped : Remapped cascade) (line : Line) :
    cascade.vector line = vectorOf line := by
  cases line with
  | primary input =>
      rw [Cascade.vector, Chip.vector, remapped.primaryBase]
      rfl
  | secondary input =>
      rw [Cascade.vector, Chip.vector, remapped.secondaryBase, vectorOf,
        irqNumber, ← BitVec.add_assoc]
      rfl

/-- Only lines of the second controller have numbers from 8 on. -/
theorem second_of_secondary (input : Fin 8) :
    8 ≤ vectorOf (.secondary input) - 32 := by
  revert input
  decide

/-! ## The steps -/

section

variable {cascade : Cascade}

/-- The service of a line, when nothing else is in service. -/
theorem served_serve (quiet : cascade.Quiet) (line : Line) :
    Served (cascade.serve line) (vectorOf line) := by
  cases line with
  | primary input =>
      exact ⟨quiet.primaryIdle.atMostOne_take input,
        quiet.secondaryIdle.atMostOne, fun _ => quiet.secondaryIdle⟩
  | secondary input =>
      exact ⟨quiet.primaryIdle.atMostOne_take cascadeInput,
        quiet.secondaryIdle.atMostOne_take input,
        fun first => absurd (second_of_secondary input) first⟩

/-- `irq_ack` ends everything that is in service. -/
theorem Served.quiet_irqAck
    {vector : BitVec 8} (served : Served cascade vector) :
    (irqAck cascade (vector - 32)).Quiet := by
  rw [irqAck_eq]
  constructor
  · exact served.primary.idle_endMostUrgent
  · by_cases second : 8 ≤ vector - 32
    · rw [if_pos second]
      exact served.secondary.idle_endMostUrgent
    · rw [if_neg second]
      exact served.alone second

/-- `irq_ack` changes nothing but what is in service. -/
theorem irqAck_inService (cascade : Cascade) (irqNo : BitVec 8) :
    ∃ first second, irqAck cascade irqNo =
      { primary := { cascade.primary with inService := first }
        secondary := { cascade.secondary with inService := second } } := by
  rw [irqAck_eq, Chip.endMostUrgent_eq cascade.primary,
    Chip.endMostUrgent_eq cascade.secondary]
  by_cases second : 8 ≤ irqNo
  · rw [if_pos second]
    exact ⟨_, _, rfl⟩
  · rw [if_neg second]
    exact ⟨_, cascade.secondary.inService, rfl⟩

theorem Remapped.irqAck
    (remapped : Remapped cascade) (irqNo : BitVec 8) :
    Remapped (irqAck cascade irqNo) := by
  obtain ⟨first, second, ended⟩ := irqAck_inService cascade irqNo
  rw [ended]
  exact ⟨⟨remapped.unmasked.primary, remapped.unmasked.secondary⟩,
    remapped.primaryBase, remapped.secondaryBase⟩

/-- `irq_ack` leaves the requests. -/
theorem requests_irqAck (irqNo : BitVec 8) :
    (irqAck cascade irqNo).requests = cascade.requests := by
  obtain ⟨first, second, ended⟩ := irqAck_inService cascade irqNo
  rw [ended]
  funext line
  cases line <;> rfl

theorem Remapped.serve (remapped : Remapped cascade) (line : Line) :
    Remapped (cascade.serve line) := by
  cases line <;>
    exact ⟨⟨remapped.unmasked.primary, remapped.unmasked.secondary⟩,
      remapped.primaryBase, remapped.secondaryBase⟩

/-- Only lines with a device are requests. -/
theorem hasDevice_of_next {line : Line}
    (urgent : Line.next cascade.requests = some line) :
    HasDevice line := by
  intro connected
  have wanted := List.find?_some urgent
  rw [connected] at wanted
  simp [Cascade.requests] at wanted

/-- An interrupt dispatches the most urgent line. -/
theorem acknowledge_dispatches
    (remapped : Remapped cascade) (quiet : cascade.Quiet) :
    Consistent ⟨cascade.acknowledge.1, some cascade.acknowledge.2⟩ ∧
      shown ⟨cascade.acknowledge.1, some cascade.acknowledge.2⟩ =
        dispatch cascade.requests := by
  cases urgent : Line.next cascade.requests with
  | none =>
      rw [quiet.acknowledge_none urgent, remapped.vector_eq, dispatch, urgent]
      constructor
      · exact ⟨remapped, quiet.primaryIdle.atMostOne,
          quiet.secondaryIdle.atMostOne, fun _ => quiet.secondaryIdle⟩
      · rfl
  | some line =>
      rw [quiet.acknowledge_some urgent, remapped.vector_eq, dispatch, urgent]
      constructor
      · exact ⟨remapped.serve line, served_serve quiet line⟩
      · rw [shown, Cascade.requests_serve (hasDevice_of_next urgent)]

theorem consistent_acknowledgeGone
    (remapped : Remapped cascade) (quiet : cascade.Quiet) :
    Consistent ⟨cascade.acknowledgeGone.1, some cascade.acknowledgeGone.2⟩ :=
  ⟨⟨⟨remapped.unmasked.primary, remapped.unmasked.secondary⟩,
      remapped.primaryBase, remapped.secondaryBase⟩,
    ⟨quiet.primaryIdle.atMostOne_take cascadeInput,
      quiet.secondaryIdle.atMostOne, fun _ => quiet.secondaryIdle⟩⟩

end

/-- Requests change nothing that is in service. -/
theorem Consistent.of_requests
    {interrupts : Interrupts} (consistent : Consistent interrupts)
    {after : Cascade}
    (primary : ∃ requested,
      after.primary = { interrupts.cascade.primary with requested })
    (secondary : ∃ requested,
      after.secondary = { interrupts.cascade.secondary with requested }) :
    Consistent { interrupts with cascade := after } := by
  obtain ⟨first, primary⟩ := primary
  obtain ⟨second, secondary⟩ := secondary
  obtain ⟨cascade, serving⟩ := interrupts
  obtain ⟨afterPrimary, afterSecondary⟩ := after
  subst primary secondary
  obtain ⟨remapped, inService⟩ := consistent
  constructor
  · exact ⟨⟨remapped.unmasked.primary, remapped.unmasked.secondary⟩,
      remapped.primaryBase, remapped.secondaryBase⟩
  · cases serving with
    | none => exact ⟨inService.primaryIdle, inService.secondaryIdle⟩
    | some vector =>
        exact ⟨inService.primary, inService.secondary, inService.alone⟩

theorem consistent_raise
    {interrupts : Interrupts} (consistent : Consistent interrupts)
    (line : Line) :
    Consistent
      { interrupts with cascade := interrupts.cascade.raise line } := by
  cases line <;>
    exact consistent.of_requests ⟨_, rfl⟩ ⟨_, rfl⟩

theorem consistent_withdraw
    {interrupts : Interrupts} (consistent : Consistent interrupts)
    (line : Line) :
    Consistent
      { interrupts with cascade := interrupts.cascade.withdraw line } := by
  cases line <;>
    exact consistent.of_requests ⟨_, rfl⟩ ⟨_, rfl⟩

/-- One event is one event for the lines, and keeps the invariant. -/
theorem step_refines
    {interrupts : Interrupts} (consistent : Consistent interrupts)
    (event : Event) :
    (step interrupts event).map shown =
        pendingStep (shown interrupts) event ∧
      ∀ next, step interrupts event = some next → Consistent next := by
  obtain ⟨cascade, serving⟩ := interrupts
  have remapped := consistent.remapped
  have inService := consistent.inService
  cases event with
  | raise line =>
      by_cases device : HasDevice line
      · simp only [step, pendingStep, if_pos device]
        constructor
        · simp only [Option.map_some, shown,
            Cascade.requests_raise remapped.unmasked device]
        · rintro next ⟨⟩
          exact consistent_raise consistent line
      · simp [step, pendingStep, if_neg device]
  | withdraw line =>
      by_cases device : HasDevice line
      · simp only [step, pendingStep, if_pos device]
        constructor
        · simp only [Option.map_some, shown,
            Cascade.requests_withdraw device]
        · rintro next ⟨⟩
          exact consistent_withdraw consistent line
      · simp [step, pendingStep, if_neg device]
  | interrupt =>
      cases serving with
      | none =>
          have taken := acknowledge_dispatches remapped inService
          constructor
          · exact congrArg some taken.2
          · rintro next ⟨⟩
            exact taken.1
      | some vector => simp [step, pendingStep, shown]
  | interruptGone =>
      cases serving with
      | none =>
          have vector : cascade.acknowledgeGone.2 =
              vectorOf (.secondary Cascade.spuriousInput) :=
            remapped.vector_eq (.secondary Cascade.spuriousInput)
          constructor
          · show some (shown ⟨cascade.acknowledgeGone.1,
              some cascade.acknowledgeGone.2⟩) = _
            rw [shown, Cascade.requests_acknowledgeGone, vector]
            rfl
          · rintro next ⟨⟩
            exact consistent_acknowledgeGone remapped inService
      | some vector => simp [step, pendingStep, shown]
  | irqAck =>
      cases serving with
      | none => simp [step, pendingStep, shown]
      | some vector =>
          constructor
          · show some (shown ⟨irqAck cascade (vector - 32), none⟩) = _
            rw [shown, requests_irqAck]
            rfl
          · rintro next ⟨⟩
            exact ⟨remapped.irqAck _, inService.quiet_irqAck⟩

/--
From `pic_remap` on, and whatever devices do, the controllers act as the set of
lines with a request: each interrupt has the vector of the most urgent line and
takes only its request, requests that go lead to one of two vectors and cost no
other request, and whenever an interrupt has been acknowledged by `irq_ack`
nothing is left in service.
-/
theorem interrupts_dispatch_pending_lines
    {cascade : Cascade} (quiet : cascade.Quiet) (events : List Event) :
    (run step ⟨picRemap cascade, none⟩ events).map shown =
        run pendingStep ⟨fun _ => false, none⟩ events ∧
      ∀ visited, Visits step ⟨picRemap cascade, none⟩ events visited →
        visited.serving = none → visited.cascade.Quiet := by
  have consistent : Consistent ⟨picRemap cascade, none⟩ :=
    ⟨remapped_picRemap cascade,
      ⟨quiet.primaryIdle, quiet.secondaryIdle⟩⟩
  have keeps (state : Interrupts) (event : Event) (next : Interrupts)
      (held : Consistent state) (stepped : step state event = some next) :
      Consistent next :=
    (step_refines held event).2 next stepped
  constructor
  · rw [run_map_of_invariant keeps
      (fun state event held => (step_refines held event).1) consistent,
      shown, requests_picRemap]
  · intro visited visits between
    have inService := (invariant_of_visits keeps consistent visits).inService
    rw [between] at inService
    exact inService

/-- A controller after power-on. -/
def resetChip : Chip where
  requested := fun _ => false
  inService := fun _ => false
  masked := fun _ => false
  vectorBase := 0
  cascade := 0
  microprocessorMode := false
  automaticEnd := false
  needsMode := false
  single := false
  phase := .ready

/-- The line of the timer. -/
def timerLine : Line := .primary 0

/-- A key is pressed while the timer interrupt is handled. -/
def keyDuringTimer : List Event :=
  [.raise timerLine, .interrupt, .raise (.primary 1), .irqAck, .interrupt,
    .irqAck]

theorem keyDuringTimer_dispatches :
    (Cascade.mk resetChip resetChip).Quiet ∧
    (run step ⟨picRemap ⟨resetChip, resetChip⟩, none⟩ keyDuringTimer).map
        shown =
      run pendingStep ⟨fun _ => false, none⟩ keyDuringTimer ∧
    ∀ visited,
      Visits step ⟨picRemap ⟨resetChip, resetChip⟩, none⟩ keyDuringTimer
          visited →
        visited.serving = none → visited.cascade.Quiet :=
  have quiet : (Cascade.mk resetChip resetChip).Quiet :=
    ⟨fun _ => rfl, fun _ => rfl⟩
  ⟨quiet, interrupts_dispatch_pending_lines quiet keyDuringTimer⟩

end Kernull.Pic
