import Kernull.Ps2QueueContents

/-!
# Bytes that acknowledge nothing

`keyboard_handler` reports a byte other than the expected `ACK` and goes on as
if it were one.  Of all the bytes a keyboard sends while a command is pending,
the exchange only tells `RESEND` from the rest.
-/

namespace Kernull.Ps2Acknowledgement

open Kernull.Ps2CommandQueue
open Kernull.Ps2CommandRuns
open Kernull.Ps2QueueContents
open Kernull.Library.LabelledRun

/-- The bytes written to port 1. -/
def portBytes (link : CommandLink) : List (BitVec 8) :=
  link.wire.map PortWrite.byte

/-- The same bytes are written and the same commands are left. -/
structure SameExchange (link other : CommandLink) : Prop where
  bytes : portBytes link = portBytes other
  commands : queuedCommands link = queuedCommands other

/--
A byte that neither acknowledges the command waited for nor asks for it again.
-/
structure Unacknowledged (link : CommandLink) (data : BitVec 8) : Prop where
  not_ack : data ≠ Ps2CommandQueue.ack
  not_resend : data ≠ resend
  not_echo : link.currentCommand.com = ps2KbdComEcho →
    data ≠ ps2KbdComEcho

/--
From the point where the byte is inserted to the end of the run, the exchange
is the one without it.
-/
def Unnoticed (build : Build) (before after : List Step)
    (data answer : BitVec 8) : Prop :=
  ∀ front back plain disturbed, after = front ++ back →
    run (atomicStep build) initialDriver (before ++ front) = some plain →
    run (atomicStep build) initialDriver
        (before ++ .interrupt data answer :: front) = some disturbed →
      SameExchange plain.toCommandLink disturbed.toCommandLink

/-! ## The driver without its console -/

/-- The driver as if nothing had been printed. -/
def muted (driver : Driver) : Driver :=
  { driver with console := [] }

section

variable (build : Build) (driver : Driver)

/-- A store does not depend on what has been printed. -/
theorem storeScanCode_muted (data : BitVec 8) :
    (muted driver).storeScanCode build data =
      (driver.storeScanCode build data).map muted := by
  by_cases room : driver.decoder.scanCodePtr < Ps2Decoder.scanCodeBufSize
  · rw [Driver.storeScanCode, Driver.storeScanCode, if_pos room]
    exact if_pos room
  · have stray := build.stray_console driver.decoder.scanCodePtr data driver
      []
    rw [Driver.storeScanCode, Driver.storeScanCode, if_neg room,
      Option.map_map]
    refine (if_neg room).trans ?_
    simp only [muted, stray, Option.map_map]
    rfl

theorem handleData_muted (data : BitVec 8) :
    ((muted driver).handleData build data).map muted =
      (driver.handleData build data).map muted := by
  rw [Driver.handleData, Driver.handleData, storeScanCode_muted,
    Option.bind_map, Option.map_bind, Option.map_bind]
  congr 1
  funext stored
  simp only [Function.comp_apply, Option.map_map]
  rfl

theorem warnUnlessAck_muted (data : BitVec 8) :
    muted (driver.warnUnlessAck data) = muted driver := by
  simp only [Driver.warnUnlessAck]
  split_ifs <;> rfl

theorem handleComReply_muted (data : BitVec 8) :
    muted ((muted driver).handleComReply data) =
      muted (driver.handleComReply data) := by
  have current : (muted driver).currentCommand = driver.currentCommand := rfl
  simp only [Driver.handleComReply, current]
  split_ifs <;> rfl

theorem handleArgReply_muted (data answer : BitVec 8) :
    muted ((muted driver).handleArgReply data answer) =
      muted (driver.handleArgReply data answer) := by
  have current : (muted driver).currentCommand = driver.currentCommand := rfl
  simp only [Driver.handleArgReply, current, Driver.noteScanCodeSet]
  split_ifs <;> rfl

/-- In the answer to a pending command the warning is only printed. -/
theorem keyboardHandler_busy
    (busy : driver.driverState ≠ stateReady) (data answer : BitVec 8) :
    (driver.keyboardHandler build data answer).map muted =
      if driver.driverState = stateWaitingComAck then
        some (muted (driver.handleComReply data))
      else if driver.driverState = stateWaitingArgAck then
        some (muted (driver.handleArgReply data answer))
      else
        none := by
  have warned := driver.warnUnlessAck_toCommandLink data
  have silent := warnUnlessAck_muted driver data
  simp only [Driver.keyboardHandler, if_neg busy, warned]
  split_ifs
  · rw [Option.map_some, ← handleComReply_muted, silent,
      handleComReply_muted]
  · rw [Option.map_some, ← handleArgReply_muted, silent,
      handleArgReply_muted]
  · rfl

/-- No step depends on what has been printed. -/
theorem atomicStep_muted (label : Step) :
    (atomicStep build driver label).map muted =
      (atomicStep build (muted driver) label).map muted := by
  cases label with
  | command command arg => rfl
  | interrupt data answer =>
      by_cases ready : driver.driverState = stateReady
      · have mutedReady : (muted driver).driverState = stateReady := ready
        simp only [atomicStep, Driver.keyboardHandler, if_pos ready,
          if_pos mutedReady]
        exact (handleData_muted build driver data).symm
      · have mutedBusy : (muted driver).driverState ≠ stateReady := ready
        simp only [atomicStep]
        rw [keyboardHandler_busy build driver ready,
          keyboardHandler_busy build (muted driver) mutedBusy,
          handleComReply_muted, handleArgReply_muted]
        rfl

theorem run_muted (labels : List Step) :
    (run (atomicStep build) driver labels).map muted =
      run (fun shown label => (atomicStep build shown label).map muted)
        (muted driver) labels :=
  run_map (atomicStep_muted build) driver labels

end

/-! ## The byte inserted -/

/-- Any byte but `RESEND` is taken for an acknowledgement. -/
theorem keyboardHandler_acts_as_ack
    (build : Build) {driver : Driver}
    (busy : driver.driverState ≠ stateReady)
    {data : BitVec 8} (notResend : data ≠ resend) (answer : BitVec 8) :
    (driver.keyboardHandler build data answer).map muted =
      (driver.keyboardHandler build Ps2CommandQueue.ack answer).map
        muted := by
  have ackNotResend : Ps2CommandQueue.ack ≠ resend := by decide
  rw [keyboardHandler_busy build driver busy,
    keyboardHandler_busy build driver busy]
  simp only [Driver.handleComReply, Driver.handleArgReply,
    if_neg notResend, if_neg ackNotResend]

/-- The driver waits for an answer when a command is pending. -/
theorem busy_of_settled {link : CommandLink} (settled : Settled link)
    (waiting : 0 < link.pendingCommands) : link.driverState ≠ stateReady :=
  fun ready => absurd (settled.ready_iff.mp ready)
    (Nat.pos_iff_ne_zero.mp waiting)

/-- While a command is pending, such a byte changes the exchange. -/
theorem not_sameExchange_reply {link next : CommandLink}
    (settled : Settled link) (waiting : 0 < link.pendingCommands)
    {data : BitVec 8} (notResend : data ≠ resend)
    (replied : link.reply data = some next) :
    ¬ SameExchange link next := by
  intro same
  have busy := busy_of_settled settled waiting
  have retires :=
    queuedCommands_handleNextCommand settled.toQueued waiting
  have kept : queuedCommands link ≠ (queuedCommands link).tail := by
    intro unchanged
    have length := congrArg List.length unchanged
    rw [List.length_tail, length_queuedCommands] at length
    omega
  rw [CommandLink.reply, if_neg busy] at replied
  split_ifs at replied with command argument
  · -- the argument goes out
    obtain rfl := Option.some.inj replied
    have length := congrArg List.length same.bytes
    simp [portBytes, CommandLink.ps2Port1Write] at length
  · obtain rfl := Option.some.inj replied
    exact kept (same.commands.trans retires)
  · obtain rfl := Option.some.inj replied
    exact kept (same.commands.trans retires)

/--
In every build and for every run that stores nothing behind `scan_code_buf`
and has a command pending at its end, a byte inserted there that acknowledges
nothing does not go unnoticed: for any rest of the run the queue, the state and
the port are what an `ACK` in its place makes of them.
-/
theorem unacknowledged_byte_acts_as_ack
    {build : Build} {before : List Step} {driver : Driver}
    (inside :
      Guarded (atomicStep build) StaysInBuffer initialDriver before)
    (reached : run (atomicStep build) initialDriver before = some driver)
    (waiting : 0 < driver.pendingCommands)
    {data : BitVec 8}
    (unacknowledged : Unacknowledged driver.toCommandLink data)
    (answer : BitVec 8) (after : List Step) :
    ¬ Unnoticed build before after data answer ∧
      (run (atomicStep build) initialDriver
          (before ++ .interrupt data answer :: after)).map
          Driver.toCommandLink =
        (run (atomicStep build) initialDriver
          (before ++ .interrupt Ps2CommandQueue.ack answer :: after)).map
          Driver.toCommandLink := by
  have notResend := unacknowledged.not_resend
  have settled := settled_of_run inside reached
  have busy := busy_of_settled settled waiting
  constructor
  · intro unnoticed
    have notReady : driver.InBuffer := fun ready => absurd ready busy
    obtain ⟨next, handled, _⟩ :=
      settled_keyboardHandler build settled notReady data answer
    have replied : driver.toCommandLink.reply data =
        some next.toCommandLink := by
      rw [← Driver.keyboardHandler_toCommandLink build notReady data answer,
        handled, Option.map_some]
    have disturbed : run (atomicStep build) initialDriver
        (before ++ [.interrupt data answer]) = some next := by
      rw [run_append, reached, Option.bind_some, run_cons]
      exact congrArg (Option.bind · some) handled
    have plain : run (atomicStep build) initialDriver (before ++ []) =
        some driver := by
      rw [List.append_nil, reached]
    exact not_sameExchange_reply settled waiting notResend replied
      (unnoticed [] after driver next rfl plain disturbed)
  · have exchange (labels : List Step) :
        (run (atomicStep build) initialDriver labels).map
            Driver.toCommandLink =
          ((run (atomicStep build) initialDriver labels).map muted).map
            Driver.toCommandLink := by
      rw [Option.map_map]
      rfl
    have same : (atomicStep build driver (.interrupt data answer)).map
          muted =
        (atomicStep build driver
          (.interrupt Ps2CommandQueue.ack answer)).map muted :=
      keyboardHandler_acts_as_ack build busy notResend answer
    rw [atomicStep_muted build driver, atomicStep_muted build driver] at same
    rw [exchange, exchange, run_append, run_append, reached,
      Option.bind_some, Option.bind_some, run_muted, run_muted, run_cons,
      run_cons, same]

/-- The scan code of a key retires the command that enables the keyboard. -/
theorem key_press_acts_as_ack :
    ¬ Unnoticed stateBehindBuffer [.command 0xF4 commandNoArg]
        [.interrupt 0xFA 0] 0x1C 0 ∧
      (run (atomicStep stateBehindBuffer) initialDriver
          [.command 0xF4 commandNoArg, .interrupt 0x1C 0,
            .interrupt 0xFA 0]).map Driver.toCommandLink =
        (run (atomicStep stateBehindBuffer) initialDriver
          [.command 0xF4 commandNoArg, .interrupt 0xFA 0,
            .interrupt 0xFA 0]).map Driver.toCommandLink :=
  unacknowledged_byte_acts_as_ack (by decide) rfl (by decide)
    ⟨by decide, by decide, by decide⟩ 0 [.interrupt 0xFA 0]

/--
While the driver waits for the keyboard to acknowledge the choice of scan code
set 2, the scan code of a key makes it send the argument.
-/
theorem argument_sent_after_key_press :
    ¬ ∀ build before after driver data answer,
      run (atomicStep build) initialDriver before = some driver →
      0 < driver.pendingCommands →
      Unacknowledged driver.toCommandLink data →
        Unnoticed build before after data answer := by
  intro always
  have unnoticed := always stateBehindBuffer
    [.command ps2KbdComSetScanSet 2] [] _ 0x1C 0
    rfl (by decide) ⟨by decide, by decide, by decide⟩
  have same := unnoticed [] [] _ _ rfl rfl rfl
  exact absurd same.bytes (by decide)

end Kernull.Ps2Acknowledgement
