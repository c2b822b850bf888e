import Kernull.Library.RingQueue
import Kernull.Ps2Decoder

/-!
# The keyboard command queue

The command ring buffer and the driver state machine of
`kernel/ps2_keyboard.c`: `queue_add`, `queue_discard`, `ps2_kbd_command_arg`,
`current_command`, `handle_next_command` and `keyboard_handler`.

Next to the static variables, a `CommandLink` records history: the entries
`queue_add` accepted, how many of them `queue_discard` retired, and the bytes
passed to `ps2_port1_write`, each with the place it was written from.  No
function of the driver reads the history.
-/

namespace Kernull.Ps2CommandQueue

open Kernull.Input
open Kernull.Library.RingQueue

/-! ## Constants -/

/-- `PS2_KBD_COM_ECHO`. -/
def ps2KbdComEcho : BitVec 8 := 0xEE

/-- `PS2_KBD_COM_SET_SCAN_SET`. -/
def ps2KbdComSetScanSet : BitVec 8 := 0xF0

/-- `COMMAND_NO_ARG`. -/
def commandNoArg : BitVec 8 := 0xFF

/-- `COMMAND_QUEUE_SIZE`. -/
def commandQueueSize : Nat := 8

/-- `STATE_READY`. -/
def stateReady : BitVec 8 := 0

/-- `STATE_WAITING_COM_ACK`. -/
def stateWaitingComAck : BitVec 8 := 1

/-- `STATE_WAITING_ARG_ACK`. -/
def stateWaitingArgAck : BitVec 8 := 2

/-- `ACK`. -/
def ack : BitVec 8 := 0xFA

/-- `RESEND`. -/
def resend : BitVec 8 := 0xFE

/-- `SCAN_CODE_SET_1`. -/
def scanCodeSet1 : BitVec 8 := 0x43

/-- `SCAN_CODE_SET_2`. -/
def scanCodeSet2 : BitVec 8 := 0x41

/-- `SCAN_CODE_SET_3`. -/
def scanCodeSet3 : BitVec 8 := 0x3f

/-! ## State -/

/-- `struct ps2_kbd_command`. -/
structure Ps2KbdCommand where
  com : BitVec 8
  arg : BitVec 8
  deriving DecidableEq

/-- Why a byte is passed to `ps2_port1_write`. -/
inductive WriteKind where
  | command
  | argument
  | answerToResend
  deriving DecidableEq

/-- One call of `ps2_port1_write`. -/
structure PortWrite where
  kind : WriteKind
  byte : BitVec 8
  deriving DecidableEq

/--
The variables of the command queue and the driver state, with the history of
accepted entries, retired entries and written bytes.
-/
structure CommandLink where
  commandQueue : Nat → Ps2KbdCommand
  nextCommandIdx : Nat
  pendingCommands : Nat
  driverState : BitVec 8
  accepted : List Ps2KbdCommand
  retired : Nat
  wire : List PortWrite

/-- What the driver passes to `printk`. -/
inductive Message where
  | expectedAck (forArg : Bool) (command : Ps2KbdCommand) (data : BitVec 8)
  | echo
  | strangeScanCodeSet (data : BitVec 8)
  | key (character : Char)
  deriving DecidableEq

/-- The keyboard driver, with the static variables of `handle_data`. -/
structure Driver extends CommandLink where
  kbdScanCodeSet : BitVec 8
  decoder : Ps2Decoder.Decoder
  console : List Message

/-- The initialisers of the static variables. -/
def initialDriver : Driver where
  commandQueue := fun _ => ⟨0, 0⟩
  nextCommandIdx := 0
  pendingCommands := 0
  driverState := stateReady
  accepted := []
  retired := 0
  wire := []
  kbdScanCodeSet := 1
  decoder := Ps2Decoder.initialDecoder
  console := []

/--
What C leaves to the build.  A lookup past the end of a keycode table reads
some byte behind the table.  A store through `scan_code_ptr` past the end of
`scan_code_buf` goes into whatever lies there, variables of the driver
included; `stray` is what it makes of the driver, and `none` when the run ends
with it.  What has been printed is in no variable.
-/
structure Build where
  behindTable : Bool → BitVec 8 → BitVec 8
  stray : Nat → BitVec 8 → Driver → Option Driver
  stray_console : ∀ offset data driver messages,
    stray offset data { driver with console := messages } =
      (stray offset data driver).map fun next =>
        { next with console := messages }

/-- The build with no stores behind `scan_code_buf`: runs end with them. -/
def Build.confined (build : Build) : Build where
  behindTable := build.behindTable
  stray _ _ _ := none
  stray_console _ _ _ _ := rfl

/-- What a lookup in a keycode table reads. -/
def Build.lookup (build : Build) (extended : Bool) (data : BitVec 8) :
    Option (BitVec 8) :=
  some ((Ps2Decoder.lookupKeycode extended data).getD
    (build.behindTable extended data))

/-! ## Operations on the queue -/

namespace CommandLink

/-- `ps2_port1_write`. -/
def ps2Port1Write (link : CommandLink) (kind : WriteKind)
    (byte : BitVec 8) : CommandLink :=
  { link with wire := link.wire ++ [⟨kind, byte⟩] }

/-- `queue_add`. -/
def queueAdd (link : CommandLink) (command arg : BitVec 8) : CommandLink :=
  if link.pendingCommands < commandQueueSize then
    { link with
      commandQueue :=
        Function.update link.commandQueue link.nextCommandIdx ⟨command, arg⟩
      nextCommandIdx := (link.nextCommandIdx + 1) % commandQueueSize
      pendingCommands := link.pendingCommands + 1
      accepted := link.accepted ++ [⟨command, arg⟩] }
  else
    link

/-- `queue_discard`. -/
def queueDiscard (link : CommandLink) : CommandLink :=
  if 0 < link.pendingCommands then
    { link with
      pendingCommands := link.pendingCommands - 1
      retired := link.retired + 1 }
  else
    link

/-- `current_command`. -/
def currentCommand (link : CommandLink) : Ps2KbdCommand :=
  if 0 < link.pendingCommands then
    link.commandQueue
      ((link.nextCommandIdx + commandQueueSize - link.pendingCommands) %
        commandQueueSize)
  else
    ⟨0, 0⟩

/-- Set the state and write the command byte it waits for. -/
def announce (link : CommandLink) (command : BitVec 8) : CommandLink :=
  { link with driverState := stateWaitingComAck }.ps2Port1Write
    .command command

/-- `handle_next_command`. -/
def handleNextCommand (link : CommandLink) : CommandLink :=
  if 0 < link.queueDiscard.pendingCommands then
    link.queueDiscard.announce link.queueDiscard.currentCommand.com
  else
    { link.queueDiscard with driverState := stateReady }

/-- The statement `if (pending_commands == 1)` of `ps2_kbd_command_arg`. -/
def announceIfFirst (link : CommandLink) (command : BitVec 8) :
    CommandLink :=
  if link.pendingCommands = 1 then link.announce command else link

/-- The last statement of `ps2_kbd_command_arg`: ask for the scan set. -/
def queryScanSet (link : CommandLink) (command arg : BitVec 8) :
    CommandLink :=
  if command = ps2KbdComSetScanSet ∧ arg ≠ 0 then
    link.queueAdd ps2KbdComSetScanSet 0
  else
    link

/--
`ps2_kbd_command_arg`.  Disabling and enabling port 1 are commands to the
controller, not bytes for the keyboard.
-/
def ps2KbdCommandArg (link : CommandLink) (command arg : BitVec 8) :
    CommandLink :=
  if link.pendingCommands < commandQueueSize then
    ((link.queueAdd command arg).announceIfFirst command).queryScanSet
      command arg
  else
    link

/-- `ps2_kbd_command`. -/
def ps2KbdCommand (link : CommandLink) (command : BitVec 8) : CommandLink :=
  link.ps2KbdCommandArg command commandNoArg

end CommandLink

/-! ## The interrupt handler -/

namespace Driver

/-- `printk` with one of the driver's messages. -/
def printk (driver : Driver) (message : Message) : Driver :=
  { driver with console := driver.console ++ [message] }

/-- Replace the queue and the state by what an operation on them leaves. -/
def onLink (driver : Driver) (operation : CommandLink → CommandLink) :
    Driver :=
  { driver with toCommandLink := operation driver.toCommandLink }

/-- `*scan_code_ptr = data; ++scan_code_ptr; --expect`. -/
def storeScanCode (build : Build) (driver : Driver) (data : BitVec 8) :
    Option Driver :=
  if driver.decoder.scanCodePtr < Ps2Decoder.scanCodeBufSize then
    some { driver with decoder := driver.decoder.store data }
  else
    (build.stray driver.decoder.scanCodePtr data driver).map fun driver =>
      { driver with
        decoder :=
          { driver.decoder with
            scanCodePtr := driver.decoder.scanCodePtr + 1
            expect := driver.decoder.expect - 1 } }

/-- `handle_data`. -/
def handleData (build : Build) (driver : Driver) (data : BitVec 8) :
    Option Driver :=
  (driver.storeScanCode build data).bind fun driver =>
    (driver.decoder.decode build.lookup data).map fun (decoder, events) =>
      { driver with
        decoder := decoder
        console := driver.console ++
          (events.filterMap Ps2Decoder.printed).map Message.key }

/-- The answer to the question for the current scan code set. -/
def noteScanCodeSet (driver : Driver) (data : BitVec 8) : Driver :=
  if data = scanCodeSet1 then { driver with kbdScanCodeSet := 1 }
  else if data = scanCodeSet2 then { driver with kbdScanCodeSet := 2 }
  else if data = scanCodeSet3 then { driver with kbdScanCodeSet := 3 }
  else driver.printk (.strangeScanCodeSet data)

/-- The warning about a reply other than `ACK`. -/
def warnUnlessAck (driver : Driver) (data : BitVec 8) : Driver :=
  let command := driver.currentCommand
  if data ≠ ack ∧ command.com ≠ ps2KbdComEcho then
    driver.printk
      (.expectedAck (driver.driverState == stateWaitingArgAck) command data)
  else
    driver

/-- The branch `driver_state == STATE_WAITING_COM_ACK`. -/
def handleComReply (driver : Driver) (data : BitVec 8) : Driver :=
  let command := driver.currentCommand
  if data = resend then
    driver.onLink fun link => link.ps2Port1Write .answerToResend command.com
  else if command.arg ≠ commandNoArg then
    driver.onLink fun link =>
      { link with driverState := stateWaitingArgAck }.ps2Port1Write
        .argument command.arg
  else
    let driver :=
      if command.com = ps2KbdComEcho then driver.printk .echo else driver
    driver.onLink CommandLink.handleNextCommand

/--
The branch `driver_state == STATE_WAITING_ARG_ACK`; `answer` is what
`ps2_data_read` returns.
-/
def handleArgReply (driver : Driver) (data answer : BitVec 8) : Driver :=
  let command := driver.currentCommand
  if data = resend then
    driver.onLink fun link => link.ps2Port1Write .answerToResend command.arg
  else
    let driver :=
      if command.com = ps2KbdComSetScanSet ∧ command.arg = 0 then
        driver.noteScanCodeSet answer
      else
        driver
    driver.onLink CommandLink.handleNextCommand

/--
`keyboard_handler`; `answer` is what `ps2_data_read` returns inside it.  The
result is `none` in the branch that aborts on a corrupted state.
-/
def keyboardHandler (build : Build) (driver : Driver)
    (data answer : BitVec 8) : Option Driver :=
  if driver.driverState = stateReady then
    driver.handleData build data
  else
    let driver := driver.warnUnlessAck data
    if driver.driverState = stateWaitingComAck then
      some (driver.handleComReply data)
    else if driver.driverState = stateWaitingArgAck then
      some (driver.handleArgReply data answer)
    else
      none

/-- `ps2_kbd_get_scan_code_set`. -/
def ps2KbdGetScanCodeSet (driver : Driver) : BitVec 8 :=
  driver.kbdScanCodeSet

end Driver

/-! ## The fields that `queue_add` leaves and changes -/

namespace CommandLink

@[simp]
theorem queueAdd_driverState
    (link : CommandLink) (command arg : BitVec 8) :
    (link.queueAdd command arg).driverState = link.driverState := by
  rw [queueAdd]
  split_ifs <;> rfl

@[simp]
theorem queueAdd_retired (link : CommandLink) (command arg : BitVec 8) :
    (link.queueAdd command arg).retired = link.retired := by
  rw [queueAdd]
  split_ifs <;> rfl

@[simp]
theorem queueAdd_wire (link : CommandLink) (command arg : BitVec 8) :
    (link.queueAdd command arg).wire = link.wire := by
  rw [queueAdd]
  split_ifs <;> rfl

theorem queueAdd_pendingCommands {link : CommandLink}
    (room : link.pendingCommands < commandQueueSize)
    (command arg : BitVec 8) :
    (link.queueAdd command arg).pendingCommands =
      link.pendingCommands + 1 := by
  rw [queueAdd, if_pos room]

theorem queueAdd_accepted {link : CommandLink}
    (room : link.pendingCommands < commandQueueSize)
    (command arg : BitVec 8) :
    (link.queueAdd command arg).accepted =
      link.accepted ++ [⟨command, arg⟩] := by
  rw [queueAdd, if_pos room]

theorem queueAdd_of_full {link : CommandLink}
    (full : ¬ link.pendingCommands < commandQueueSize)
    (command arg : BitVec 8) :
    link.queueAdd command arg = link :=
  if_neg full

end CommandLink

/-! ## Atomic steps -/

/-- A call of `ps2_kbd_command_arg` or a keyboard interrupt. -/
inductive Step where
  | command (command arg : BitVec 8)
  | interrupt (data answer : BitVec 8)

/--
A build that puts `driver_state` thirteen bytes behind the start of
`scan_code_buf`, with no other variable of the driver in reach.
-/
def stateBehindBuffer : Build where
  behindTable _ _ := 0
  stray offset data driver :=
    some (if offset = 13 then { driver with driverState := data } else driver)
  stray_console offset data driver messages := by
    by_cases atState : offset = 13
    · simp [atState]
    · simp [atState]

/-- Calls and interrupts as atomic steps. -/
def atomicStep (build : Build) (driver : Driver) : Step → Option Driver
  | .command command arg =>
      some (driver.onLink fun link => link.ps2KbdCommandArg command arg)
  | .interrupt data answer => driver.keyboardHandler build data answer

/--
An interrupt that finds the driver ready stores its byte inside
`scan_code_buf`.
-/
def Driver.InBuffer (driver : Driver) : Prop :=
  driver.driverState = stateReady →
    driver.decoder.scanCodePtr < Ps2Decoder.scanCodeBufSize

instance (driver : Driver) : Decidable driver.InBuffer :=
  inferInstanceAs (Decidable (driver.driverState = stateReady →
    driver.decoder.scanCodePtr < Ps2Decoder.scanCodeBufSize))

/-- The steps that store nothing behind `scan_code_buf`. -/
def StaysInBuffer (driver : Driver) : Step → Prop
  | .command _ _ => True
  | .interrupt _ _ => driver.InBuffer

instance (driver : Driver) : (label : Step) →
    Decidable (StaysInBuffer driver label)
  | .command _ _ => inferInstanceAs (Decidable True)
  | .interrupt _ _ => inferInstanceAs (Decidable driver.InBuffer)

/-! ## What the handler does to the queue -/

namespace Driver

@[simp]
theorem printk_toCommandLink (driver : Driver) (message : Message) :
    (driver.printk message).toCommandLink = driver.toCommandLink :=
  rfl

@[simp]
theorem onLink_toCommandLink
    (driver : Driver) (operation : CommandLink → CommandLink) :
    (driver.onLink operation).toCommandLink =
      operation driver.toCommandLink :=
  rfl

/-- A byte stored in the buffer is decoded as `handle_data` decodes it. -/
theorem handleData_of_decoded
    (build : Build) {driver : Driver} {data : BitVec 8}
    {decoder : Ps2Decoder.Decoder} {events : List InputEvent}
    (decoded : Ps2Decoder.handleData driver.decoder data =
      some (decoder, events)) :
    driver.handleData build data =
      some { driver with
        decoder := decoder
        console := driver.console ++
          (events.filterMap Ps2Decoder.printed).map Message.key } := by
  rw [Ps2Decoder.handleData] at decoded
  split_ifs at decoded with room
  have sameKeys (extended : Bool) (code keycode : BitVec 8)
      (found : Ps2Decoder.lookupKeycode extended code = some keycode) :
      build.lookup extended code = some keycode := by
    rw [Build.lookup, found]
    rfl
  rw [handleData, storeScanCode, if_pos room, Option.bind_some]
  simp only [Ps2Decoder.Decoder.decode_of_extends sameKeys decoded,
    Option.map_some]

/-- A byte stored in the buffer does not concern the commands. -/
theorem handleData_toCommandLink
    (build : Build) {driver : Driver}
    (room : driver.decoder.scanCodePtr < Ps2Decoder.scanCodeBufSize)
    (data : BitVec 8) :
    (driver.handleData build data).map Driver.toCommandLink =
      some driver.toCommandLink := by
  have found := (driver.decoder.store data).isSome_decode
    (show ∀ extended data, (build.lookup extended data).isSome from
      fun _ _ => rfl) data
  obtain ⟨result, decoded⟩ := Option.isSome_iff_exists.mp found
  rw [handleData, storeScanCode, if_pos room, Option.bind_some]
  simp only [decoded, Option.map_some]

@[simp]
theorem noteScanCodeSet_toCommandLink
    (driver : Driver) (data : BitVec 8) :
    (driver.noteScanCodeSet data).toCommandLink =
      driver.toCommandLink := by
  rw [noteScanCodeSet]
  split_ifs <;> rfl

@[simp]
theorem warnUnlessAck_toCommandLink (driver : Driver) (data : BitVec 8) :
    (driver.warnUnlessAck data).toCommandLink = driver.toCommandLink := by
  simp only [warnUnlessAck]
  split_ifs <;> rfl

theorem handleComReply_toCommandLink
    (driver : Driver) (data : BitVec 8) :
    (driver.handleComReply data).toCommandLink =
      if data = resend then
        driver.toCommandLink.ps2Port1Write .answerToResend
          driver.currentCommand.com
      else if driver.currentCommand.arg ≠ commandNoArg then
        { driver.toCommandLink with
          driverState := stateWaitingArgAck }.ps2Port1Write
            .argument driver.currentCommand.arg
      else
        driver.toCommandLink.handleNextCommand := by
  simp only [handleComReply]
  split_ifs <;> rfl

theorem handleArgReply_toCommandLink
    (driver : Driver) (data answer : BitVec 8) :
    (driver.handleArgReply data answer).toCommandLink =
      if data = resend then
        driver.toCommandLink.ps2Port1Write .answerToResend
          driver.currentCommand.arg
      else
        driver.toCommandLink.handleNextCommand := by
  simp only [handleArgReply]
  split_ifs <;> simp

end Driver

/-- An interrupt without what only the console and the decoder notice. -/
def CommandLink.reply (link : CommandLink) (data : BitVec 8) :
    Option CommandLink :=
  if link.driverState = stateReady then
    some link
  else if link.driverState = stateWaitingComAck then
    some <|
      if data = resend then
        link.ps2Port1Write .answerToResend link.currentCommand.com
      else if link.currentCommand.arg ≠ commandNoArg then
        { link with driverState := stateWaitingArgAck }.ps2Port1Write
          .argument link.currentCommand.arg
      else
        link.handleNextCommand
  else if link.driverState = stateWaitingArgAck then
    some <|
      if data = resend then
        link.ps2Port1Write .answerToResend link.currentCommand.arg
      else
        link.handleNextCommand
  else
    none

theorem Driver.keyboardHandler_toCommandLink
    (build : Build) {driver : Driver} (inside : driver.InBuffer)
    (data answer : BitVec 8) :
    (driver.keyboardHandler build data answer).map Driver.toCommandLink =
      driver.toCommandLink.reply data := by
  have warned := driver.warnUnlessAck_toCommandLink data
  simp only [keyboardHandler, CommandLink.reply, warned]
  by_cases ready : driver.driverState = stateReady
  · rw [if_pos ready, if_pos ready,
      handleData_toCommandLink build (inside ready)]
  rw [if_neg ready, if_neg ready]
  by_cases command : driver.driverState = stateWaitingComAck
  · rw [if_pos command, if_pos command, Option.map_some,
      handleComReply_toCommandLink, warned]
  rw [if_neg command, if_neg command]
  by_cases arg : driver.driverState = stateWaitingArgAck
  · rw [if_pos arg, if_pos arg, Option.map_some,
      handleArgReply_toCommandLink, warned]
  · rw [if_neg arg, if_neg arg, Option.map_none]

/-- Inside the buffer it does not matter what stores behind it do. -/
theorem Driver.keyboardHandler_confined
    (build : Build) {driver : Driver} (inside : driver.InBuffer)
    (data answer : BitVec 8) :
    driver.keyboardHandler build data answer =
      driver.keyboardHandler build.confined data answer := by
  by_cases ready : driver.driverState = stateReady
  · have room := inside ready
    simp only [keyboardHandler, if_pos ready, handleData, storeScanCode,
      if_pos room]
    rfl
  · simp only [keyboardHandler, if_neg ready]

end Kernull.Ps2CommandQueue
