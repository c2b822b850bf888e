import Kernull.Ps2Init

/-!
# The controller that is set up

A PS/2 controller with a keyboard at its first port, with a configuration byte,
a memory of its own, and delays of its own for every byte: what is written while
the input buffer is full is lost, and what is read before it has arrived is not
the byte that is waited for.  As long as no delay exceeds the 64 polls of the
driver, the commands of the driver are done one after the other, and `ps2_init`
leaves the controller as it means to.
-/

namespace Kernull.Ps2Hardware

open Kernull.ConsoleOutput (literal)
open Kernull.Library.PortIo
open Kernull.Ps2Controller (StatusStream inputFull outputFull wait_ready)
open Kernull.Ps2Init

/-! ## The controller -/

/-- What differs from one controller to another. -/
structure Hardware where
  /-- The answer to the self-test. -/
  selfTest : BitVec 8
  /-- What the self-test makes of the configuration byte. -/
  afterTest : BitVec 8 → BitVec 8
  /-- The bits of the status besides the two that are polled. -/
  otherBits : BitVec 8
  /-- What is read when there is nothing in the buffer. -/
  idle : BitVec 8
  /-- The polls until the input buffer is empty, after each change. -/
  inputDelay : Nat → Nat
  /-- The polls until the next byte has arrived, after each change. -/
  outputDelay : Nat → Nat

/-- The controller without its delays. -/
structure Controller where
  config : BitVec 8
  /-- The memory of the controller, without the configuration byte. -/
  ram : Nat → BitVec 8
  /-- A command that waits for its argument. -/
  expecting : Option (BitVec 8)
  /-- A byte that was in the output buffer before. -/
  stale : Option (BitVec 8)
  /-- The bytes that come, the next one first. -/
  coming : List (BitVec 8)
  /-- The answers of the keyboard to the next bytes. -/
  keyboard : List (List (BitVec 8))

namespace Controller

/-- A command. -/
def command (hardware : Hardware) (controller : Controller)
    (byte : BitVec 8) : Controller :=
  let controller := { controller with expecting := none }
  if byte = 0x20 then
    { controller with coming := controller.coming ++ [controller.config] }
  else if 0x60 ≤ byte ∧ byte < 0x80 then
    { controller with expecting := some byte }
  else if byte = 0xA7 then
    { controller with config := controller.config ||| 0x20 }
  else if byte = 0xA8 then
    { controller with config := controller.config &&& ~~~0x20#8 }
  else if byte = 0xAA then
    { controller with
      config := hardware.afterTest controller.config
      coming := controller.coming ++ [hardware.selfTest] }
  else if byte = 0xAD then
    { controller with config := controller.config ||| 0x10 }
  else if byte = 0xAE then
    { controller with config := controller.config &&& ~~~0x10#8 }
  else if byte = 0xD4 then
    { controller with expecting := some byte }
  else
    controller

/-- A byte for the keyboard. -/
def toKeyboard (controller : Controller) : Controller :=
  match controller.keyboard with
  | [] => controller
  | answer :: rest =>
      { controller with
        coming := controller.coming ++ answer
        keyboard := rest }

/-- A byte at the data port. -/
def data (controller : Controller) (byte : BitVec 8) : Controller :=
  match controller.expecting with
  | none => controller.toKeyboard
  | some command =>
      let controller := { controller with expecting := none }
      if command = 0x60 then
        { controller with config := byte }
      else if command = 0xD4 then
        controller
      else
        { controller with
          ram := Function.update controller.ram (command.toNat % 32) byte }

end Controller

/-- The controller in time. -/
structure Timed where
  controller : Controller
  /-- The polls until the input buffer is empty. -/
  busy : Nat
  /-- The polls until the next byte has arrived. -/
  late : Nat
  /-- The changes so far. -/
  changes : Nat

namespace Timed

/-- There is a byte in the output buffer. -/
def Arrived (timed : Timed) : Prop :=
  timed.controller.stale ≠ none ∨
    timed.controller.coming ≠ [] ∧ timed.late = 0

instance (timed : Timed) : Decidable timed.Arrived :=
  inferInstanceAs (Decidable (_ ∨ _ ∧ _))

/-- The status register. -/
def status (hardware : Hardware) (timed : Timed) : BitVec 8 :=
  (hardware.otherBits &&& 0xFC) |||
    ((if timed.Arrived then 0x01 else 0) |||
      (if timed.busy ≠ 0 then 0x02 else 0))

/-- A poll goes by. -/
def polled (timed : Timed) : Timed :=
  { timed with busy := timed.busy - 1, late := timed.late - 1 }

/-- The output buffer is read. -/
def taken (hardware : Hardware) (timed : Timed) : BitVec 8 × Timed :=
  match timed.controller.stale, timed.controller.coming with
  | some byte, _ =>
      (byte, { timed with
        controller := { timed.controller with stale := none } })
  | none, [] => (hardware.idle, timed)
  | none, byte :: rest =>
      if timed.late = 0 then
        (byte,
          { timed with
            controller := { timed.controller with coming := rest }
            late := hardware.outputDelay timed.changes
            changes := timed.changes + 1 })
      else
        (hardware.idle, timed)

/-- A byte is taken in, and changes the controller. -/
def accepted (hardware : Hardware) (timed : Timed)
    (controller : Controller) : Timed where
  controller := controller
  busy := hardware.inputDelay timed.changes
  late :=
    if timed.controller.coming = [] then
      hardware.outputDelay timed.changes
    else
      timed.late
  changes := timed.changes + 1

end Timed

/-- The controller behind its ports. -/
def controllerDevice (hardware : Hardware) : Device Timed where
  read port timed :=
    if port = statusReg then (timed.status hardware, timed.polled)
    else if port = dataPort then timed.taken hardware
    else (hardware.idle, timed)
  write port byte timed :=
    if timed.busy ≠ 0 then
      -- the byte is lost
      timed
    else if port = commandReg then
      timed.accepted hardware (timed.controller.command hardware byte)
    else if port = dataPort then
      timed.accepted hardware (timed.controller.data byte)
    else
      timed

/-- No delay is longer than the driver waits. -/
structure Hardware.Prompt (hardware : Hardware) : Prop where
  input : ∀ change, hardware.inputDelay change ≤ 64
  output : ∀ change, hardware.outputDelay change ≤ 64

/-- The controller that is waited for, with delays that are left. -/
structure Describes (timed : Timed) (controller : Controller) : Prop where
  same : timed.controller = controller
  busy : timed.busy ≤ 64
  late : timed.late ≤ 64

/-! ## Waits -/

section

variable {hardware : Hardware} {timed : Timed}

/-- Only the delays go down while the status is polled. -/
theorem afterReads_eq (reads : Nat) :
    afterReads (controllerDevice hardware) timed reads =
      { timed with
        busy := timed.busy - reads
        late := timed.late - reads } := by
  induction reads with
  | zero => rfl
  | succ reads inductionHypothesis =>
      rw [afterReads, inductionHypothesis]
      rfl

theorem status_eq (reads : Nat) :
    statusStream (controllerDevice hardware) timed reads =
      ({ timed with
        busy := timed.busy - reads
        late := timed.late - reads } : Timed).status hardware := by
  rw [statusStream, afterReads_eq]
  rfl

theorem inputFull_status :
    inputFull (timed.status hardware) = decide (timed.busy ≠ 0) := by
  have other : (hardware.otherBits &&& 0xFC).getLsbD 1 = false := by
    rw [BitVec.getLsbD_and]
    exact Bool.and_false _
  rw [inputFull, Timed.status, BitVec.getLsbD_or, other, Bool.false_or]
  by_cases arrived : timed.Arrived
  · by_cases busy : timed.busy ≠ 0
    · simp [arrived, busy]
    · simp [arrived, busy]
  · by_cases busy : timed.busy ≠ 0
    · simp [arrived, busy]
    · simp [arrived, busy]

theorem outputFull_status :
    outputFull (timed.status hardware) = decide timed.Arrived := by
  have other : (hardware.otherBits &&& 0xFC).getLsbD 0 = false := by
    rw [BitVec.getLsbD_and]
    exact Bool.and_false _
  rw [outputFull, Timed.status, BitVec.getLsbD_or, other, Bool.false_or]
  by_cases arrived : timed.Arrived
  · by_cases busy : timed.busy ≠ 0
    · simp [arrived, busy]
    · simp [arrived, busy]
  · by_cases busy : timed.busy ≠ 0
    · simp [arrived, busy]
    · simp [arrived, busy]

/-- A wait for the input buffer ends with the buffer empty. -/
theorem waitInputBuf_eq
    (hardware : Hardware) (bus : Bus Timed) (inTime : bus.state.busy ≤ 64) :
    ∃ result log,
      waitInputBuf (controllerDevice hardware) bus =
        (some result,
          ⟨{ bus.state with
              busy := 0
              late := bus.state.late - (bus.state.busy + 1) }, log⟩) := by
  have before : ∀ i, i < bus.state.busy →
      inputFull (statusStream (controllerDevice hardware) bus.state i) =
        true := by
    intro i bound
    rw [status_eq, inputFull_status, decide_eq_true_iff]
    change bus.state.busy - i ≠ 0
    omega
  have ready : inputFull
      (statusStream (controllerDevice hardware) bus.state bus.state.busy) =
        false := by
    rw [status_eq, inputFull_status, decide_eq_false_iff_not, not_not]
    exact Nat.sub_self _
  have waited := wait_ready inTime before ready
  have whole := wait_eq (controllerDevice hardware) inputFull bus
  simp only [waited, afterReads_eq] at whole
  have empty : bus.state.busy - (bus.state.busy + 1) = 0 := by omega
  rw [empty] at whole
  exact ⟨_, _, whole⟩

/-- A wait for the output buffer ends when the next byte has arrived. -/
theorem waitOutputBuf_eq
    (hardware : Hardware) (bus : Bus Timed) (inTime : bus.state.late ≤ 64)
    (fresh : bus.state.controller.stale = none)
    (comes : bus.state.controller.coming ≠ []) :
    ∃ result log,
      waitOutputBuf (controllerDevice hardware) bus =
        (some result,
          ⟨{ bus.state with
              busy := bus.state.busy - (bus.state.late + 1)
              late := 0 }, log⟩) := by
  have before : ∀ i, i < bus.state.late →
      (!outputFull
        (statusStream (controllerDevice hardware) bus.state i)) = true := by
    intro i bound
    rw [status_eq, outputFull_status, Bool.not_eq_true',
      decide_eq_false_iff_not]
    rintro (stale | ⟨-, arrived⟩)
    · exact stale fresh
    · change bus.state.late - i = 0 at arrived
      omega
  have ready : (!outputFull
      (statusStream (controllerDevice hardware) bus.state bus.state.late)) =
        false := by
    rw [status_eq, outputFull_status, Bool.not_eq_false',
      decide_eq_true_iff]
    exact Or.inr ⟨comes, Nat.sub_self _⟩
  have waited : Ps2Controller.wait (fun s => !outputFull s)
      (statusStream (controllerDevice hardware) bus.state) = _ :=
    wait_ready inTime before ready
  have whole := wait_eq (controllerDevice hardware)
    (fun s => !outputFull s) bus
  simp only [waited, afterReads_eq] at whole
  have arrived : bus.state.late - (bus.state.late + 1) = 0 := by omega
  rw [arrived] at whole
  exact ⟨_, _, whole⟩

end

/-! ## The driver on the controller -/

section

variable {hardware : Hardware} {controller : Controller}

/-- A byte that is taken in is done with in time. -/
theorem describes_accepted
    (prompt : hardware.Prompt) {timed : Timed} (late : timed.late ≤ 64)
    (controller : Controller) :
    Describes (timed.accepted hardware controller) controller where
  same := rfl
  busy := prompt.input timed.changes
  late := by
    change (if _ then _ else _) ≤ 64
    split_ifs
    · exact prompt.output timed.changes
    · exact late

/-- `ps2_command` is the command. -/
theorem does_ps2Command (prompt : hardware.Prompt) (byte : BitVec 8) :
    Does Describes (ps2Command (controllerDevice hardware) byte) controller ()
      (controller.command hardware byte) := by
  intro bus described
  rcases waitInputBuf_eq hardware bus described.busy with
    ⟨result, log, waited⟩
  refine ⟨_, bind_of_run waited _, ?_⟩
  rw [← described.same]
  apply describes_accepted prompt
  exact (Nat.sub_le _ _).trans described.late

/-- `ps2_write` is the byte at the data port. -/
theorem does_ps2Write (prompt : hardware.Prompt) (byte : BitVec 8) :
    Does Describes (ps2Write (controllerDevice hardware) byte) controller ()
      (controller.data byte) := by
  intro bus described
  rcases waitInputBuf_eq hardware bus described.busy with
    ⟨result, log, waited⟩
  refine ⟨_, bind_of_run waited _, ?_⟩
  rw [← described.same]
  apply describes_accepted prompt
  exact (Nat.sub_le _ _).trans described.late

/-- `ps2_data_read` is the next byte that comes. -/
theorem does_ps2DataRead
    (prompt : hardware.Prompt) {byte : BitVec 8} {rest : List (BitVec 8)}
    (fresh : controller.stale = none)
    (comes : controller.coming = byte :: rest) :
    Does Describes (ps2DataRead (controllerDevice hardware)) controller byte
      { controller with coming := rest } := by
  intro bus described
  have freshState : bus.state.controller.stale = none := by
    rw [described.same]
    exact fresh
  have comesState : bus.state.controller.coming = byte :: rest := by
    rw [described.same]
    exact comes
  rcases waitOutputBuf_eq hardware bus described.late freshState
      (by rw [comesState]; exact List.cons_ne_nil _ _) with
    ⟨result, log, waited⟩
  have taken : ∀ timed : Timed, timed.controller = controller →
      timed.late = 0 →
      (controllerDevice hardware).read dataPort timed =
        (byte,
          { timed with
            controller := { controller with coming := rest }
            late := hardware.outputDelay timed.changes
            changes := timed.changes + 1 }) := by
    intro timed same arrived
    change timed.taken hardware = _
    rw [Timed.taken]
    simp only [same, fresh, comes, if_pos arrived]
  refine ⟨_, (bind_of_run waited _).trans
    (inb_of_read (taken _ described.same rfl)), rfl, ?_, ?_⟩
  · exact (Nat.sub_le _ _).trans described.busy
  · exact prompt.output bus.state.changes

/-- The flush reads a byte that was in the buffer before. -/
theorem does_flush (none_ : controller.coming = []) :
    Does Describes (inb (controllerDevice hardware) dataPort) controller
      (controller.stale.getD hardware.idle)
      { controller with stale := none } := by
  intro bus described
  have taken : ∀ timed : Timed, timed.controller = controller →
      (controllerDevice hardware).read dataPort timed =
        (controller.stale.getD hardware.idle,
          { timed with controller := { controller with stale := none } }) := by
    rintro ⟨⟨config, ram, expecting, stale, coming, keyboard⟩, busy, late,
      changes⟩ rfl
    cases stale with
    | some byte => rfl
    | none =>
        cases coming with
        | nil => rfl
        | cons byte rest => exact nomatch none_
  exact ⟨_, inb_of_read (taken bus.state described.same), rfl,
    described.busy, described.late⟩

/-- A command does not touch the byte that was in the buffer. -/
@[simp]
theorem command_stale (byte : BitVec 8) :
    (controller.command hardware byte).stale = controller.stale := by
  rw [Controller.command]
  split_ifs <;> rfl

/-- `ps2_command_arg` is a command and a byte. -/
theorem does_ps2CommandArg (prompt : hardware.Prompt)
    (command arg : BitVec 8) :
    Does Describes (ps2CommandArg (controllerDevice hardware) command arg)
      controller () ((controller.command hardware command).data arg) := by
  rw [ps2CommandArg_eq]
  exact (does_ps2Command prompt command).bind (does_ps2Write prompt arg)

/-- A command to which one byte comes back. -/
theorem does_ps2CommandResp
    (prompt : hardware.Prompt) {command byte : BitVec 8}
    {rest : List (BitVec 8)} (fresh : controller.stale = none)
    (comes : (controller.command hardware command).coming = byte :: rest) :
    Does Describes (ps2CommandResp (controllerDevice hardware) command)
      controller byte
      { controller.command hardware command with coming := rest } := by
  rw [ps2CommandResp_eq]
  apply (does_ps2Command prompt command).bind
  apply does_ps2DataRead prompt _ comes
  rw [command_stale]
  exact fresh

/-! ## The steps of `ps2_init` -/

/-- A name at a place of the memory. -/
def storeName (ram : Nat → BitVec 8) (place : Nat) :
    List (BitVec 8) → Nat → BitVec 8
  | [] => ram
  | character :: rest =>
      storeName (Function.update ram place character) (place + 1) rest

/-- One character is written. -/
theorem command_data_ram
    {command character : BitVec 8} (least : 0x60 < command.toNat)
    (most : command.toNat < 0x80) :
    (controller.command hardware command).data character =
      { controller with
        expecting := none
        ram := Function.update controller.ram (command.toNat % 32)
          character } := by
  have notRead : command ≠ 0x20 := by
    rintro rfl
    exact absurd least (by decide)
  have notConfig : command ≠ 0x60 := by
    rintro rfl
    exact absurd least (by decide)
  have notPort2 : command ≠ 0xD4 := by
    rintro rfl
    exact absurd most (by decide)
  have range : 0x60 ≤ command ∧ command < 0x80 := by
    rw [BitVec.le_def, BitVec.lt_def]
    exact ⟨Nat.le_of_lt least, most⟩
  have expects : controller.command hardware command =
      { controller with expecting := some command } := by
    rw [Controller.command]
    simp only [if_neg notRead, if_pos range]
  rw [expects]
  simp only [Controller.data, if_neg notConfig, if_neg notPort2]

theorem does_writeName
    (prompt : hardware.Prompt) {command : BitVec 8} {name : List (BitVec 8)}
    (ready : controller.expecting = none) (least : 0x60 < command.toNat)
    (most : command.toNat + name.length < 0x80) :
    Does Describes (writeName (controllerDevice hardware) command name)
      controller ()
      { controller with
        ram := storeName controller.ram (command.toNat % 32) name } := by
  induction name generalizing command controller with
  | nil => exact Does.pure ()
  | cons character rest inductionHypothesis =>
      rw [List.length_cons] at most
      have written : Does Describes
          (ps2CommandArg (controllerDevice hardware) command character)
          controller () ((controller.command hardware command).data
            character) := does_ps2CommandArg prompt command character
      have next : (command + 1).toNat = command.toNat + 1 := by
        bv_omega
      have place : (command + 1).toNat % 32 = command.toNat % 32 + 1 := by
        omega
      rw [command_data_ram least (by omega)] at written
      apply written.bind
      rw [storeName, ← place, ready]
      let stored : Controller :=
        { controller with
          expecting := none
          ram := Function.update controller.ram (command.toNat % 32)
            character }
      have idle : stored.expecting = none := rfl
      exact inductionHypothesis idle (by omega) (by omega)

/-- A byte for the keyboard, and its answer. -/
theorem data_answered
    {answer : List (BitVec 8)} {rest : List (List (BitVec 8))}
    (ready : controller.expecting = none) (none_ : controller.coming = [])
    (answers : controller.keyboard = answer :: rest) (byte : BitVec 8) :
    controller.data byte =
      { controller with coming := answer, keyboard := rest } := by
  rw [Controller.data]
  simp only [ready, Controller.toKeyboard, answers, none_, List.nil_append]

/-- A reset, and the first byte of the answer. -/
theorem does_reset
    (prompt : hardware.Prompt) {resp : BitVec 8} {more : List (BitVec 8)}
    {rest : List (List (BitVec 8))} (ready : controller.expecting = none)
    (fresh : controller.stale = none) (none_ : controller.coming = [])
    (answers : controller.keyboard = (resp :: more) :: rest) :
    Does Describes
      (ps2Port1Write (controllerDevice hardware) 0xFF >>= fun _ =>
        ps2DataRead (controllerDevice hardware)) controller resp
      { controller with coming := more, keyboard := rest } := by
  let answered : Controller :=
    { controller with coming := resp :: more, keyboard := rest }
  have written : Does Describes
      (ps2Write (controllerDevice hardware) 0xFF) controller ()
      (controller.data 0xFF) := does_ps2Write prompt 0xFF
  rw [data_answered ready none_ answers] at written
  have freshAnswered : answered.stale = none := fresh
  exact written.bind (does_ps2DataRead prompt freshAnswered rfl)

/-- The keyboard answers to the resets. -/
theorem does_resetLoop
    (prompt : hardware.Prompt) {resends rounds : Nat} {resp : BitVec 8}
    {more : List (BitVec 8)} {rest : List (List (BitVec 8))}
    (ready : controller.expecting = none) (fresh : controller.stale = none)
    (none_ : controller.coming = [])
    (answers : controller.keyboard =
      List.replicate resends [0xFE] ++ (resp :: more) :: rest)
    (accepted : resp ≠ 0xFE) (enough : resends < rounds) :
    Does Describes (resetLoop (controllerDevice hardware) rounds) controller
      resp { controller with coming := more, keyboard := rest } := by
  induction resends generalizing controller rounds with
  | zero =>
      cases rounds with
      | zero => exact absurd enough (Nat.not_lt_zero _)
      | succ rounds =>
          have reset := does_reset prompt ready fresh none_ answers
          rw [resetLoop, ← bind_assoc]
          apply reset.bind
          rw [if_neg accepted]
          exact Does.pure resp
  | succ resends inductionHypothesis =>
      cases rounds with
      | zero => exact absurd enough (Nat.not_lt_zero _)
      | succ rounds =>
          have reset := does_reset prompt ready fresh none_ answers
          rw [resetLoop, ← bind_assoc]
          apply reset.bind
          rw [if_pos rfl]
          exact inductionHypothesis ready fresh rfl rfl
            (Nat.lt_of_succ_lt_succ enough)

/-! ## The whole of `ps2_init` -/

/-- Port 1 and its interrupt are on, port 2 and the translation are off. -/
structure Configured (before after : BitVec 8) : Prop where
  port1Interrupt : after.getLsbD 0 = true
  port2Interrupt : after.getLsbD 1 = false
  port1ClockOff : after.getLsbD 4 = false
  port2ClockOff : after.getLsbD 5 = true
  port1Translation : after.getLsbD 6 = false
  others : ∀ bit, bit = 2 ∨ bit = 3 ∨ bit = 7 →
    after.getLsbD bit = before.getLsbD bit

/-- The configuration byte that is written. -/
def writtenConfig (config : BitVec 8) : BitVec 8 :=
  newConfig (config ||| 0x10 ||| 0x20)

theorem configured_writtenConfig (config : BitVec 8) :
    Configured config (writtenConfig config &&& ~~~0x10#8) := by
  constructor <;> simp [writtenConfig, newConfig]

/-- What `ps2_init` makes of a controller that passes the self-test. -/
def Controller.setUp (hardware : Hardware) (controller : Controller)
    (rest : List (List (BitVec 8))) : Controller where
  config :=
    hardware.afterTest (writtenConfig controller.config) &&& ~~~0x10#8
  ram := storeName controller.ram 1 (literal "nuid64")
  expecting := none
  stale := none
  coming := []
  keyboard := rest

/-- The controller after the self-test. -/
def Controller.tested (hardware : Hardware) (controller : Controller) :
    Controller :=
  { controller with
    config := hardware.afterTest (writtenConfig controller.config)
    expecting := none
    stale := none }

/-- The steps up to the self-test, and its answer. -/
def untilResponse (device : Device Timed) : Driver Timed (BitVec 8) := do
  ps2Command device 0xAD
  ps2Command device 0xA7
  let _ ← inb device dataPort
  let config ← ps2CommandResp device 0x20
  ps2CommandArg device 0x60 (newConfig config)
  ps2CommandResp device 0xAA

theorem does_untilResponse
    (prompt : hardware.Prompt) (none_ : controller.coming = []) :
    Does Describes (untilResponse (controllerDevice hardware)) controller
      hardware.selfTest (controller.tested hardware) := by
  obtain ⟨config, ram, expecting, stale, coming, keyboard⟩ := controller
  obtain rfl : coming = [] := none_
  let controller : Controller :=
    ⟨config, ram, expecting, stale, [], keyboard⟩
  let disabled : Controller :=
    { controller with
      config := controller.config ||| 0x10 ||| 0x20
      expecting := none }
  let flushed : Controller := { disabled with stale := none }
  let configured : Controller :=
    { flushed with config := writtenConfig controller.config }
  have port1 : Does Describes (ps2Command (controllerDevice hardware) 0xAD)
      controller () (controller.command hardware 0xAD) :=
    does_ps2Command prompt 0xAD
  have port2 : Does Describes (ps2Command (controllerDevice hardware) 0xA7)
      (controller.command hardware 0xAD) () disabled :=
    does_ps2Command prompt 0xA7
  have flush : Does Describes (inb (controllerDevice hardware) dataPort)
      disabled (controller.stale.getD hardware.idle) flushed :=
    does_flush rfl
  have read : Does Describes
      (ps2CommandResp (controllerDevice hardware) 0x20) flushed
      disabled.config flushed :=
    does_ps2CommandResp prompt rfl rfl
  have write : Does Describes
      (ps2CommandArg (controllerDevice hardware) 0x60
        (newConfig disabled.config)) flushed () configured :=
    does_ps2CommandArg prompt 0x60 (newConfig disabled.config)
  have test : Does Describes
      (ps2CommandResp (controllerDevice hardware) 0xAA) configured
      hardware.selfTest (controller.tested hardware) :=
    does_ps2CommandResp prompt rfl rfl
  apply port1.bind
  apply port2.bind
  apply flush.bind
  apply read.bind
  apply write.bind
  exact test

/-- The steps behind the self-test. -/
theorem ps2Init_eq (device : Device Timed) (rounds : Nat) :
    ps2Init device rounds = (untilResponse device >>= fun response =>
      if response ≠ 0x55 then
        pure ⟨[literal "ps2: controller self-test failed\n"], false⟩
      else do
        writeName device 0x61 (literal "nuid64")
        ps2Command device 0xAE
        let resp ← resetLoop device rounds
        if resp ≠ 0xFA then
          pure ⟨[literal "ps2: failed to reset device at port 1"], true⟩
        else
          let resp ← ps2DataRead device
          if resp ≠ 0xAA then
            pure ⟨[literal "ps2: failed to reset device at port 1"], true⟩
          else
            pure ⟨[], true⟩) := by
  simp only [ps2Init, untilResponse, bind_assoc]

/-- A controller that fails its self-test is left as the test leaves it. -/
theorem does_ps2Init_failing
    (prompt : hardware.Prompt) (fails : hardware.selfTest ≠ 0x55)
    (none_ : controller.coming = []) (rounds : Nat) :
    Does Describes (ps2Init (controllerDevice hardware) rounds) controller
      ⟨[literal "ps2: controller self-test failed\n"], false⟩
      (controller.tested hardware) := by
  rw [ps2Init_eq]
  apply (does_untilResponse prompt none_).bind
  rw [if_pos fails]
  exact Does.pure _

/-- One that passes it, with a keyboard that accepts the reset. -/
theorem does_ps2Init_passing
    (prompt : hardware.Prompt) (passes : hardware.selfTest = 0x55)
    (none_ : controller.coming = []) {resends rounds : Nat}
    {rest : List (List (BitVec 8))}
    (answers : controller.keyboard =
      List.replicate resends [0xFE] ++ [0xFA, 0xAA] :: rest)
    (enough : resends < rounds) :
    Does Describes (ps2Init (controllerDevice hardware) rounds) controller
      ⟨[], true⟩ (controller.setUp hardware rest) := by
  let named : Controller :=
    { controller.tested hardware with
      ram := storeName controller.ram 1 (literal "nuid64") }
  let enabled : Controller :=
    { named with config := named.config &&& ~~~0x10#8 }
  let accepted : Controller :=
    { enabled with coming := [0xAA], keyboard := rest }
  have name : Does Describes
      (writeName (controllerDevice hardware) 0x61 (literal "nuid64"))
      (controller.tested hardware) () named := by
    apply does_writeName prompt rfl
    · decide
    · decide +kernel
  have enable : Does Describes (ps2Command (controllerDevice hardware) 0xAE)
      named () enabled := does_ps2Command prompt 0xAE
  have reset : Does Describes (resetLoop (controllerDevice hardware) rounds)
      enabled 0xFA accepted :=
    does_resetLoop prompt rfl rfl none_ answers (by decide) enough
  have last : Does Describes (ps2DataRead (controllerDevice hardware))
      accepted 0xAA (controller.setUp hardware rest) :=
    does_ps2DataRead prompt rfl rfl
  rw [ps2Init_eq]
  apply (does_untilResponse prompt none_).bind
  rw [if_neg (not_not.mpr passes)]
  apply name.bind
  apply enable.bind
  apply reset.bind
  rw [if_neg (not_not.mpr rfl)]
  apply last.bind
  rw [if_neg (not_not.mpr rfl)]
  exact Does.pure _

end

/-- Behind a self-test that fails, port 1 is still off. -/
theorem not_configured_writtenConfig (before config : BitVec 8) :
    ¬ Configured before (writtenConfig config) := by
  intro configured
  have off := configured.port1ClockOff
  simp [writtenConfig, newConfig] at off

/--
On every controller whose delays do not exceed the polls, with a keyboard that
accepts the reset after having asked for it again some times, `ps2_init` ends
with the controller set up when the self-test is passed, and as the test leaves
it otherwise.  When the self-test does not change the configuration byte, it is
as it should be exactly when the test is passed.
-/
theorem ps2Init_sets_up
    {hardware : Hardware} (prompt : hardware.Prompt) {timed : Timed}
    (busy : timed.busy ≤ 64) (late : timed.late ≤ 64)
    (none_ : timed.controller.coming = []) {resends rounds : Nat}
    {rest : List (List (BitVec 8))}
    (answers : timed.controller.keyboard =
      List.replicate resends [0xFE] ++ [0xFA, 0xAA] :: rest)
    (enough : resends < rounds) :
    ∃ outcome last,
      ps2Init (controllerDevice hardware) rounds ⟨timed, []⟩ =
        (some outcome, last) ∧
      outcome.handlerSet = decide (hardware.selfTest = 0x55) ∧
      last.state.controller =
        (if hardware.selfTest = 0x55 then
          timed.controller.setUp hardware rest
        else
          timed.controller.tested hardware) ∧
      ((∀ config, hardware.afterTest config = config) →
        (Configured timed.controller.config last.state.controller.config ↔
          hardware.selfTest = 0x55)) := by
  have start : Describes timed timed.controller := ⟨rfl, busy, late⟩
  by_cases passes : hardware.selfTest = 0x55
  · rcases does_ps2Init_passing prompt passes none_ answers enough
        ⟨timed, []⟩ start with ⟨last, runs, described⟩
    refine ⟨_, last, runs, (decide_eq_true passes).symm, ?_, ?_⟩
    · rw [if_pos passes]
      exact described.same
    · intro unchanged
      apply iff_of_true _ passes
      rw [described.same, Controller.setUp, unchanged]
      exact configured_writtenConfig timed.controller.config
  · rcases does_ps2Init_failing prompt passes none_ rounds ⟨timed, []⟩ start
      with ⟨last, runs, described⟩
    refine ⟨_, last, runs, (decide_eq_false passes).symm, ?_, ?_⟩
    · rw [if_neg passes]
      exact described.same
    · intro unchanged
      apply iff_of_false _ passes
      rw [described.same, Controller.tested, unchanged]
      exact not_configured_writtenConfig _ _

/-- A controller with a byte in its buffer and delays of all lengths. -/
def someHardware : Hardware where
  selfTest := 0x55
  afterTest := fun config => config
  otherBits := 0x14
  idle := 0
  inputDelay := fun change => change % 65
  outputDelay := fun change => 64 - change % 65

def someTimed : Timed where
  controller :=
    { config := 0x47
      ram := fun _ => 0
      expecting := none
      stale := some 0x1C
      coming := []
      keyboard := [[0xFE], [0xFA, 0xAA]] }
  busy := 3
  late := 0
  changes := 0

theorem someHardware_prompt : someHardware.Prompt where
  input change := by
    change change % 65 ≤ 64
    omega
  output change := Nat.sub_le 64 _

theorem ps2Init_sets_up_someHardware :
    ∃ outcome last,
      ps2Init (controllerDevice someHardware) 2 ⟨someTimed, []⟩ =
        (some outcome, last) ∧
      outcome.handlerSet = true ∧
      last.state.controller = someTimed.controller.setUp someHardware [] ∧
      Configured someTimed.controller.config
        last.state.controller.config := by
  have answers : someTimed.controller.keyboard =
      List.replicate 1 [0xFE] ++ [0xFA, 0xAA] :: [] := rfl
  obtain ⟨outcome, last, runs, set, controller, configured⟩ :=
    ps2Init_sets_up someHardware_prompt (by decide) (by decide) rfl answers
      (show 1 < 2 by decide)
  exact ⟨outcome, last, runs, set, controller,
    (configured fun _ => rfl).mpr rfl⟩

end Kernull.Ps2Hardware
