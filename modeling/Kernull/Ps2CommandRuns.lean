import Kernull.Ps2CommandQueue
import Kernull.Library.LabelledRun

/-!
# Runs of the keyboard command queue

With calls and interrupts as atomic steps, the command ring is a bounded
first-in first-out queue, the driver is ready exactly when it is empty, and
the bytes written for the first time are those of the accepted entries, in
order, up to the one the driver waits for.  All of this holds as long as
`handle_data` stores its bytes inside `scan_code_buf`; nothing bounds
`scan_code_ptr`, and a byte stored behind the buffer can change the driver's
state.
-/

namespace Kernull.Ps2CommandRuns

open Kernull.Ps2CommandQueue
open Kernull.Library.RingQueue
open Kernull.Library.LabelledRun

/-! ## Abstract queue and wire -/

/-- The ring of the driver. -/
def ring (link : CommandLink) : Library.RingQueue.Ring Ps2KbdCommand where
  slots := link.commandQueue
  next := link.nextCommandIdx
  pending := link.pendingCommands

/-- The accepted entries that are not yet retired, oldest first. -/
def waiting (link : CommandLink) : List Ps2KbdCommand :=
  link.accepted.drop link.retired

/-- The writes an entry causes, apart from answers to `RESEND`. -/
def entryWrites (entry : Ps2KbdCommand) : List PortWrite :=
  ⟨.command, entry.com⟩ ::
    if entry.arg = commandNoArg then [] else [⟨.argument, entry.arg⟩]

/-- The writes already made for the entry the driver waits for. -/
def begunWrites (link : CommandLink) : List PortWrite :=
  if link.driverState = stateReady then []
  else if link.driverState = stateWaitingComAck then
    [⟨.command, link.currentCommand.com⟩]
  else
    [⟨.command, link.currentCommand.com⟩,
      ⟨.argument, link.currentCommand.arg⟩]

/-- The writes that do not answer a `RESEND`. -/
def firstWrites (wire : List PortWrite) : List PortWrite :=
  wire.filter fun write => write.kind ≠ .answerToResend

@[simp]
theorem firstWrites_append (front back : List PortWrite) :
    firstWrites (front ++ back) = firstWrites front ++ firstWrites back :=
  List.filter_append ..

/-- Every answer to a `RESEND` repeats the byte written before it. -/
def RepeatsPrevious (wire : List PortWrite) : Prop :=
  ∀ front write back, wire = front ++ write :: back →
    write.kind = .answerToResend →
      ∃ previous, front.getLast? = some previous ∧
        previous.byte = write.byte

theorem repeatsPrevious_nil : RepeatsPrevious [] := by
  intro front write back split _
  simp at split

theorem RepeatsPrevious.append
    {wire : List PortWrite} (repeats : RepeatsPrevious wire)
    {last : PortWrite}
    (repeated : last.kind = .answerToResend →
      ∃ previous, wire.getLast? = some previous ∧
        previous.byte = last.byte) :
    RepeatsPrevious (wire ++ [last]) := by
  intro front write back split isAnswer
  rcases List.eq_nil_or_concat back with rfl | ⟨back, final, rfl⟩
  · obtain ⟨rfl, same⟩ := List.append_inj' split rfl
    obtain rfl := List.singleton_inj.mp same
    exact repeated isAnswer
  · have shorter : wire ++ [last] = (front ++ write :: back) ++ [final] := by
      simpa using split
    exact repeats front write back (List.append_inj' shorter rfl).1 isAnswer

/-! ## The invariant between steps -/

/-- The counters, the ring and the history agree. -/
structure Queued (link : CommandLink) : Prop where
  wellFormed : WellFormed commandQueueSize (ring link)
  contents : (ring link).contents commandQueueSize = waiting link
  retired_le : link.retired ≤ link.accepted.length

/-- The invariant that holds between steps. -/
structure Settled (link : CommandLink) : Prop extends Queued link where
  ready_iff : link.driverState = stateReady ↔ link.pendingCommands = 0
  state_cases : link.driverState = stateReady ∨
    link.driverState = stateWaitingComAck ∨
    link.driverState = stateWaitingArgAck ∧
      link.currentCommand.arg ≠ commandNoArg
  writes : firstWrites link.wire =
    (link.accepted.take link.retired).flatMap entryWrites ++
      begunWrites link
  last : ∀ write, (begunWrites link).getLast? = some write →
    ∃ previous, link.wire.getLast? = some previous ∧
      previous.byte = write.byte
  repeats : RepeatsPrevious link.wire

/--
The invariant between `queue_add` and the test of `ps2_kbd_command_arg` when
the queue was empty: the only entry has not been written.
-/
structure Unannounced (link : CommandLink) (command : BitVec 8) : Prop
    extends Queued link where
  ready : link.driverState = stateReady
  pending : link.pendingCommands = 1
  current : link.currentCommand.com = command
  writes : firstWrites link.wire =
    (link.accepted.take link.retired).flatMap entryWrites
  repeats : RepeatsPrevious link.wire

namespace Queued

variable {link : CommandLink}

theorem pending_eq (queued : Queued link) :
    link.pendingCommands = link.accepted.length - link.retired := by
  have length := congrArg List.length queued.contents
  simpa [ring, waiting] using length

/-- `current_command()` is the oldest entry. -/
theorem accepted_retired (queued : Queued link)
    (nonempty : 0 < link.pendingCommands) :
    link.accepted[link.retired]? = some link.currentCommand := by
  have head : ((ring link).contents commandQueueSize).head? =
      some link.currentCommand := by
    rw [head?_contents nonempty, CommandLink.currentCommand,
      if_pos nonempty]
    rfl
  rw [queued.contents, waiting, List.head?_drop] at head
  exact head

/-- Accepting an entry. -/
theorem queueAdd (queued : Queued link) (command arg : BitVec 8) :
    Queued (link.queueAdd command arg) := by
  have retired := queued.retired_le
  rw [CommandLink.queueAdd]
  split_ifs with room
  · exact {
      wellFormed := queued.wellFormed.push room ⟨command, arg⟩
      contents := by
        have pushed :=
          queued.wellFormed.contents_push room ⟨command, arg⟩
        rw [queued.contents] at pushed
        exact pushed.trans (List.drop_append_of_le_length retired).symm
      retired_le := by simpa using Nat.le_succ_of_le retired }
  · exact queued

/-- Accepting an entry does not change the oldest one. -/
theorem currentCommand_queueAdd (queued : Queued link)
    (nonempty : 0 < link.pendingCommands) (command arg : BitVec 8) :
    (link.queueAdd command arg).currentCommand = link.currentCommand := by
  by_cases room : link.pendingCommands < commandQueueSize
  case neg => rw [CommandLink.queueAdd_of_full room]
  have oldest := queued.accepted_retired nonempty
  have inside : link.retired < link.accepted.length := by
    have counted := queued.pending_eq
    omega
  have same := (queued.queueAdd command arg).accepted_retired
    (by rw [CommandLink.queueAdd_pendingCommands room]; omega)
  rw [CommandLink.queueAdd_accepted room, CommandLink.queueAdd_retired,
    List.getElem?_append_left inside, oldest] at same
  exact (Option.some.inj same).symm

/-- Retiring the oldest entry. -/
theorem queueDiscard (queued : Queued link)
    (nonempty : 0 < link.pendingCommands) :
    Queued link.queueDiscard := by
  have counted := queued.pending_eq
  rw [CommandLink.queueDiscard, if_pos nonempty]
  exact {
    wellFormed := queued.wellFormed.discard
    contents := by
      have dropped := queued.wellFormed.contents_discard nonempty
      rw [queued.contents, waiting, List.tail_drop] at dropped
      exact dropped
    retired_le := by
      simp only
      omega }

end Queued

theorem settled_initialDriver : Settled initialDriver.toCommandLink where
  wellFormed := ⟨by decide, by decide⟩
  contents := rfl
  retired_le := Nat.le_refl 0
  ready_iff := iff_of_true rfl rfl
  state_cases := Or.inl rfl
  writes := rfl
  last := by
    intro write begun
    exact absurd begun (by simp [begunWrites, initialDriver])
  repeats := repeatsPrevious_nil

/-! ## Calls -/

namespace Settled

variable {link : CommandLink}

/-- Behind a waiting entry, accepting an entry changes nothing else. -/
theorem queueAdd (settled : Settled link)
    (nonempty : 0 < link.pendingCommands) (command arg : BitVec 8) :
    Settled (link.queueAdd command arg) := by
  by_cases room : link.pendingCommands < commandQueueSize
  case neg => rwa [CommandLink.queueAdd_of_full room]
  have current :=
    settled.toQueued.currentCommand_queueAdd nonempty command arg
  have begun : begunWrites (link.queueAdd command arg) =
      begunWrites link := by
    simp only [begunWrites, CommandLink.queueAdd_driverState, current]
  refine ⟨settled.toQueued.queueAdd command arg, ?_, ?_, ?_, ?_, ?_⟩
  · rw [CommandLink.queueAdd_driverState, settled.ready_iff,
      CommandLink.queueAdd_pendingCommands room]
    omega
  · rw [CommandLink.queueAdd_driverState, current]
    exact settled.state_cases
  · rw [begun, CommandLink.queueAdd_wire, settled.writes,
      CommandLink.queueAdd_accepted room, CommandLink.queueAdd_retired,
      List.take_append_of_le_length settled.retired_le]
  · rw [begun, CommandLink.queueAdd_wire]
    exact settled.last
  · rw [CommandLink.queueAdd_wire]
    exact settled.repeats

/-- Accepting an entry into an empty queue. -/
theorem unannounced (settled : Settled link)
    (empty : link.pendingCommands = 0) (command arg : BitVec 8) :
    Unannounced (link.queueAdd command arg) command := by
  have queued := settled.toQueued.queueAdd command arg
  have ready := settled.ready_iff.mpr empty
  have room : link.pendingCommands < commandQueueSize := by
    rw [empty]
    decide
  have pending : (link.queueAdd command arg).pendingCommands = 1 := by
    rw [CommandLink.queueAdd_pendingCommands room, empty]
  have all : link.retired = link.accepted.length := by
    have counted := settled.toQueued.pending_eq
    have retired := settled.retired_le
    omega
  refine ⟨queued, ?_, pending, ?_, ?_, ?_⟩
  · rw [CommandLink.queueAdd_driverState, ready]
  · have oldest := queued.accepted_retired (by omega)
    rw [CommandLink.queueAdd_accepted room, CommandLink.queueAdd_retired,
      all, List.getElem?_concat_length] at oldest
    rw [← Option.some.inj oldest]
  · have written := settled.writes
    rw [begunWrites, if_pos ready, List.append_nil] at written
    rw [CommandLink.queueAdd_wire, written,
      CommandLink.queueAdd_accepted room, CommandLink.queueAdd_retired,
      List.take_append_of_le_length settled.retired_le]
  · rw [CommandLink.queueAdd_wire]
    exact settled.repeats

end Settled

/-- Writing the command byte of an entry that was not written. -/
theorem settled_announce
    {link : CommandLink} {command : BitVec 8} (queued : Queued link)
    (nonempty : 0 < link.pendingCommands)
    (current : link.currentCommand.com = command)
    (writes : firstWrites link.wire =
      (link.accepted.take link.retired).flatMap entryWrites)
    (repeats : RepeatsPrevious link.wire) :
    Settled (link.announce command) := by
  have begun : begunWrites (link.announce command) =
      [⟨.command, command⟩] := by
    rw [← current]
    rfl
  refine ⟨⟨queued.wellFormed, queued.contents, queued.retired_le⟩,
    ?_, ?_, ?_, ?_, ?_⟩
  · exact iff_of_false (show stateWaitingComAck ≠ stateReady by decide)
      (Nat.pos_iff_ne_zero.mp nonempty)
  · exact Or.inr (Or.inl rfl)
  · rw [begun]
    show firstWrites (link.wire ++ [⟨.command, command⟩]) = _
    rw [firstWrites_append, writes]
    rfl
  · rw [begun]
    intro write last
    refine ⟨⟨.command, command⟩, List.getLast?_concat .., ?_⟩
    obtain rfl := Option.some.inj last
    rfl
  · exact repeats.append fun isAnswer => WriteKind.noConfusion isAnswer

theorem Unannounced.announce
    {link : CommandLink} {command : BitVec 8}
    (unannounced : Unannounced link command) :
    Settled (link.announce command) :=
  settled_announce unannounced.toQueued
    (by rw [unannounced.pending]; decide) unannounced.current
    unannounced.writes unannounced.repeats

namespace Settled

variable {link : CommandLink}

/-- The follow-up query is only ever queued behind another entry. -/
theorem queryScanSet (settled : Settled link)
    (command arg : BitVec 8)
    (behind : command = ps2KbdComSetScanSet ∧ arg ≠ 0 →
      0 < link.pendingCommands) :
    Settled (link.queryScanSet command arg) := by
  rw [CommandLink.queryScanSet]
  split_ifs with queries
  · exact settled.queueAdd (behind queries) _ _
  · exact settled

/-- An uninterrupted call. -/
theorem ps2KbdCommandArg (settled : Settled link)
    (command arg : BitVec 8) :
    Settled (link.ps2KbdCommandArg command arg) := by
  rw [CommandLink.ps2KbdCommandArg]
  split_ifs with room
  case neg => exact settled
  rcases Nat.eq_zero_or_pos link.pendingCommands with empty | nonempty
  · have unannounced := settled.unannounced empty command arg
    rw [CommandLink.announceIfFirst, if_pos unannounced.pending]
    refine unannounced.announce.queryScanSet command arg fun _ => ?_
    show 0 < (link.queueAdd command arg).pendingCommands
    rw [unannounced.pending]
    decide
  · have added := settled.queueAdd nonempty command arg
    have pending :=
      CommandLink.queueAdd_pendingCommands room command arg
    rw [CommandLink.announceIfFirst, if_neg (by omega)]
    exact added.queryScanSet command arg fun _ => by omega

/-! ## Interrupts -/

/-- An answer to `RESEND` repeats the last byte written. -/
theorem answerToResend (settled : Settled link) {last : PortWrite}
    (begun : (begunWrites link).getLast? = some last) :
    Settled (link.ps2Port1Write .answerToResend last.byte) := by
  obtain ⟨previous, written, same⟩ := settled.last last begun
  refine ⟨⟨settled.wellFormed, settled.contents, settled.retired_le⟩,
    settled.ready_iff, settled.state_cases, ?_, ?_, ?_⟩
  · show firstWrites (link.wire ++ [⟨.answerToResend, last.byte⟩]) = _
    rw [firstWrites_append, settled.writes]
    exact List.append_nil _
  · intro write begunLast
    refine ⟨⟨.answerToResend, last.byte⟩, List.getLast?_concat .., ?_⟩
    obtain rfl := Option.some.inj (begun.symm.trans begunLast)
    rfl
  · exact settled.repeats.append fun _ => ⟨previous, written, same⟩

/-- The argument follows the acknowledged command byte. -/
theorem writeArgument (settled : Settled link)
    (state : link.driverState = stateWaitingComAck)
    (argument : link.currentCommand.arg ≠ commandNoArg) :
    Settled ({ link with driverState := stateWaitingArgAck }.ps2Port1Write
      .argument link.currentCommand.arg) := by
  have busy : link.pendingCommands ≠ 0 := by
    rw [Ne, ← settled.ready_iff, state]
    decide
  have begun : begunWrites link =
      [⟨.command, link.currentCommand.com⟩] := by
    rw [begunWrites, state]
    rfl
  have written := settled.writes
  rw [begun] at written
  refine ⟨⟨settled.wellFormed, settled.contents, settled.retired_le⟩,
    ?_, ?_, ?_, ?_, ?_⟩
  · exact iff_of_false (show stateWaitingArgAck ≠ stateReady by decide) busy
  · exact Or.inr (Or.inr ⟨rfl, argument⟩)
  · show firstWrites
      (link.wire ++ [⟨.argument, link.currentCommand.arg⟩]) = _
    rw [firstWrites_append, written, List.append_assoc]
    rfl
  · intro write last
    refine ⟨⟨.argument, link.currentCommand.arg⟩,
      List.getLast?_concat .., ?_⟩
    obtain rfl := Option.some.inj last
    rfl
  · exact settled.repeats.append fun isAnswer =>
      WriteKind.noConfusion isAnswer

/-- Once all bytes of the oldest entry are out, the next one is written. -/
theorem handleNextCommand (settled : Settled link)
    (nonempty : 0 < link.pendingCommands)
    (begun : begunWrites link = entryWrites link.currentCommand) :
    Settled link.handleNextCommand := by
  have queued := settled.toQueued.queueDiscard nonempty
  have oldest := settled.toQueued.accepted_retired nonempty
  have discarded : link.queueDiscard = { link with
      pendingCommands := link.pendingCommands - 1
      retired := link.retired + 1 } := by
    rw [CommandLink.queueDiscard, if_pos nonempty]
  have writes : firstWrites link.queueDiscard.wire =
      (link.queueDiscard.accepted.take
        link.queueDiscard.retired).flatMap entryWrites := by
    rw [discarded]
    show firstWrites link.wire =
      (link.accepted.take (link.retired + 1)).flatMap entryWrites
    rw [settled.writes, begun, List.take_add_one, oldest]
    simp
  have repeats : RepeatsPrevious link.queueDiscard.wire := by
    rw [discarded]
    exact settled.repeats
  rw [CommandLink.handleNextCommand]
  split_ifs with more
  · exact settled_announce queued more rfl writes repeats
  · refine ⟨⟨queued.wellFormed, queued.contents, queued.retired_le⟩,
      ?_, Or.inl rfl, ?_, ?_, repeats⟩
    · exact iff_of_true rfl (Nat.eq_zero_of_not_pos more)
    · exact writes.trans (List.append_nil _).symm
    · intro write last
      exact absurd last (by simp [begunWrites])

/-- What an interrupt does to the queue keeps the invariant. -/
theorem reply (settled : Settled link) (data : BitVec 8) :
    ∃ next, link.reply data = some next ∧ Settled next := by
  rw [CommandLink.reply]
  by_cases ready : link.driverState = stateReady
  · rw [if_pos ready]
    exact ⟨link, rfl, settled⟩
  have nonempty : 0 < link.pendingCommands :=
    Nat.pos_of_ne_zero fun empty => ready (settled.ready_iff.mpr empty)
  rw [if_neg ready]
  rcases settled.state_cases with state | state | ⟨state, argument⟩
  · exact absurd state ready
  · rw [if_pos state]
    refine ⟨_, rfl, ?_⟩
    have begun : begunWrites link =
        [⟨.command, link.currentCommand.com⟩] := by
      rw [begunWrites, if_neg ready, if_pos state]
    split_ifs with isResend hasArgument
    · exact settled.answerToResend (by rw [begun]; rfl)
    · exact settled.writeArgument state hasArgument
    · apply settled.handleNextCommand nonempty
      rw [begun, entryWrites, if_pos (not_not.mp hasArgument)]
  · have notCom : link.driverState ≠ stateWaitingComAck := by
      rw [state]
      decide
    rw [if_neg notCom, if_pos state]
    refine ⟨_, rfl, ?_⟩
    have begun : begunWrites link =
        [⟨.command, link.currentCommand.com⟩,
          ⟨.argument, link.currentCommand.arg⟩] := by
      rw [begunWrites, if_neg ready, if_neg notCom]
    split_ifs with isResend
    · exact settled.answerToResend (by rw [begun]; rfl)
    · apply settled.handleNextCommand nonempty
      rw [begun, entryWrites, if_neg argument]

end Settled

/--
No interrupt inside the buffer finds the state corrupted, and all keep the
invariant.
-/
theorem settled_keyboardHandler
    (build : Build) {driver : Driver}
    (settled : Settled driver.toCommandLink) (inside : driver.InBuffer)
    (data answer : BitVec 8) :
    ∃ next, driver.keyboardHandler build data answer = some next ∧
      Settled next.toCommandLink := by
  obtain ⟨link, replied, held⟩ := settled.reply data
  rw [← Driver.keyboardHandler_toCommandLink build inside data answer]
    at replied
  obtain ⟨next, handled, rfl⟩ := Option.map_eq_some_iff.mp replied
  exact ⟨next, handled, held⟩

theorem settled_of_keyboardHandler
    {build : Build} {driver next : Driver}
    (settled : Settled driver.toCommandLink) (inside : driver.InBuffer)
    {data answer : BitVec 8}
    (handled : driver.keyboardHandler build data answer = some next) :
    Settled next.toCommandLink := by
  obtain ⟨_, expected, held⟩ :=
    settled_keyboardHandler build settled inside data answer
  obtain rfl := Option.some.inj (handled.symm.trans expected)
  exact held

/-! ## Runs of atomic steps -/

theorem settled_atomicStep
    (build : Build) {driver : Driver}
    (settled : Settled driver.toCommandLink) {label : Step}
    (inside : StaysInBuffer driver label) :
    ∃ next, atomicStep build driver label = some next ∧
      Settled next.toCommandLink := by
  cases label with
  | command command arg =>
      exact ⟨_, rfl, settled.ps2KbdCommandArg command arg⟩
  | interrupt data answer =>
      exact settled_keyboardHandler build settled inside data answer

/-- Every run inside the buffer goes through and ends settled. -/
theorem settled_run
    {build : Build} {labels : List Step}
    (inside :
      Guarded (atomicStep build) StaysInBuffer initialDriver labels) :
    ∃ final, run (atomicStep build) initialDriver labels = some final ∧
      Settled final.toCommandLink :=
  exists_run_of_guarded
    (fun _ _ settled inside => settled_atomicStep build settled inside)
    settled_initialDriver inside

/-- Every state reached inside the buffer is settled. -/
theorem settled_of_run
    {build : Build} {labels : List Step} {driver : Driver}
    (inside :
      Guarded (atomicStep build) StaysInBuffer initialDriver labels)
    (reached : run (atomicStep build) initialDriver labels = some driver) :
    Settled driver.toCommandLink := by
  obtain ⟨_, expected, settled⟩ := settled_run inside
  obtain rfl := Option.some.inj (reached.symm.trans expected)
  exact settled

/-- The ring as the queue of accepted entries that are not yet retired. -/
structure RefinesFifo (link : CommandLink) : Prop where
  pending_le : link.pendingCommands ≤ 8
  next_le : link.nextCommandIdx ≤ 7
  retired_le : link.retired ≤ link.accepted.length
  contents : (ring link).contents commandQueueSize =
    link.accepted.drop link.retired
  current : 0 < link.pendingCommands →
    (link.accepted.drop link.retired).head? = some link.currentCommand
  ready_iff : link.driverState = stateReady ↔ link.pendingCommands = 0

/--
In every build and for every sequence of calls and interrupts that stores
nothing behind `scan_code_buf`, no interrupt reaches the branch for a
corrupted state, the ring holds the accepted and not yet retired commands in
acceptance order, and the driver is ready exactly when it is empty.
-/
theorem command_queue_refines_fifo
    (build : Build) {labels : List Step}
    (inside :
      Guarded (atomicStep build) StaysInBuffer initialDriver labels) :
    ∃ final, run (atomicStep build) initialDriver labels = some final ∧
      RefinesFifo final.toCommandLink := by
  obtain ⟨final, reached, settled⟩ := settled_run inside
  refine ⟨final, reached, ?_⟩
  exact {
    pending_le := settled.wellFormed.pending_le
    next_le := Nat.le_of_lt_succ settled.wellFormed.next_lt
    retired_le := settled.retired_le
    contents := settled.contents
    current := fun nonempty => by
      rw [List.head?_drop]
      exact settled.toQueued.accepted_retired nonempty
    ready_iff := settled.ready_iff }

/--
The commands of `kmain` with the answers of the keyboard, a key pressed before
them, and an arrow key pressed before the command that follows.
-/
def commandsAmongKeys : List Step :=
  [.interrupt 0x1C 0, .command ps2KbdComEcho commandNoArg,
    .command ps2KbdComSetScanSet 2, .interrupt 0xEE 0, .interrupt resend 0,
    .interrupt ack 0, .interrupt ack 0, .interrupt ack 0x41,
    .interrupt ack 0x41, .interrupt 0xE0 0, .interrupt 0x75 0,
    .command 0xF4 commandNoArg]

theorem commandsAmongKeys_refines_fifo :
    ∃ final,
      run (atomicStep stateBehindBuffer) initialDriver commandsAmongKeys =
        some final ∧
      RefinesFifo final.toCommandLink :=
  command_queue_refines_fifo stateBehindBuffer (by decide +kernel)

/--
The keyboard sends fourteen prefixes `E0`; the last is stored in
`driver_state`, and the byte after it reaches the branch for a corrupted
state.
-/
theorem corrupted_state_after_prefixes :
    ¬ ∀ build labels, ∃ final,
      run (atomicStep build) initialDriver labels = some final ∧
        RefinesFifo final.toCommandLink := by
  intro always
  obtain ⟨final, reached, _⟩ := always stateBehindBuffer
    (List.replicate 15 (.interrupt 0xE0 0))
  have aborted : (run (atomicStep stateBehindBuffer) initialDriver
      (List.replicate 15 (.interrupt 0xE0 0))).isNone = true := by
    decide +kernel
  rw [reached] at aborted
  exact Bool.false_ne_true aborted

/-- The bytes of an entry: its command, then its argument if it has one. -/
def entryBytes (entry : Ps2KbdCommand) : List (BitVec 8) :=
  entry.com :: if entry.arg = commandNoArg then [] else [entry.arg]

theorem map_byte_entryWrites (entries : List Ps2KbdCommand) :
    (entries.flatMap entryWrites).map PortWrite.byte =
      entries.flatMap entryBytes := by
  rw [List.map_flatMap]
  congr 1
  funext entry
  rw [entryWrites, entryBytes]
  split_ifs <;> rfl

/-- What has been written of the oldest entry is the front of its bytes. -/
theorem Settled.begunWrites_prefix
    {link : CommandLink} (settled : Settled link) :
    begunWrites link <+: entryWrites link.currentCommand := by
  rw [begunWrites, entryWrites]
  rcases settled.state_cases with state | state | ⟨state, argument⟩
  · rw [if_pos state]
    exact List.nil_prefix
  · rw [state, if_neg (by decide), if_pos rfl]
    exact List.prefix_append [_] _
  · have notReady : stateWaitingArgAck ≠ stateReady := by decide
    have notFirst : stateWaitingArgAck ≠ stateWaitingComAck := by decide
    simp [state, argument, notReady, notFirst]

/-- The bytes on the wire, apart from answers to `RESEND`, are in order. -/
structure InOrder (link : CommandLink) : Prop where
  is_prefix : (firstWrites link.wire).map PortWrite.byte <+:
    link.accepted.flatMap entryBytes
  complete : link.pendingCommands = 0 →
    (firstWrites link.wire).map PortWrite.byte =
      link.accepted.flatMap entryBytes
  repeats : RepeatsPrevious link.wire

theorem Settled.inOrder {link : CommandLink} (settled : Settled link) :
    InOrder link := by
  have counted := settled.toQueued.pending_eq
  have complete (empty : link.pendingCommands = 0) :
      (firstWrites link.wire).map PortWrite.byte =
        link.accepted.flatMap entryBytes := by
    have all : link.accepted.take link.retired = link.accepted :=
      List.take_of_length_le (by omega)
    rw [settled.writes, begunWrites,
      if_pos (settled.ready_iff.mpr empty), List.append_nil, all,
      map_byte_entryWrites]
  refine ⟨?_, complete, settled.repeats⟩
  rcases Nat.eq_zero_or_pos link.pendingCommands with empty | nonempty
  · exact complete empty ▸ List.prefix_rfl
  · have oldest := settled.toQueued.accepted_retired nonempty
    have begun := settled.begunWrites_prefix
    have split : link.accepted.flatMap entryWrites =
        (link.accepted.take link.retired).flatMap entryWrites ++
          (entryWrites link.currentCommand ++
            (link.accepted.drop (link.retired + 1)).flatMap
              entryWrites) := by
      conv_lhs => rw [← List.take_append_drop link.retired link.accepted]
      rw [List.flatMap_append, List.drop_eq_getElem?_toList_append, oldest]
      simp
    rw [← map_byte_entryWrites, settled.writes, split]
    refine List.IsPrefix.map _ ((List.prefix_append_right_inj _).mpr ?_)
    exact begun.trans (List.prefix_append _ _)

/--
In every build and for every sequence of calls and interrupts that stores
nothing behind `scan_code_buf`, the bytes written, apart from answers to
`RESEND`, are a prefix of the bytes of the accepted entries in acceptance
order, all of them once the queue is empty, and each answer to `RESEND`
repeats the byte before it.
-/
theorem bytes_on_wire_in_order
    (build : Build) {labels : List Step}
    (inside :
      Guarded (atomicStep build) StaysInBuffer initialDriver labels) :
    ∃ final, run (atomicStep build) initialDriver labels = some final ∧
      InOrder final.toCommandLink := by
  obtain ⟨final, reached, settled⟩ := settled_run inside
  exact ⟨final, reached, settled.inOrder⟩

theorem commandsAmongKeys_in_order :
    ∃ final,
      run (atomicStep stateBehindBuffer) initialDriver commandsAmongKeys =
        some final ∧
      InOrder final.toCommandLink :=
  bytes_on_wire_in_order stateBehindBuffer (by decide +kernel)

/--
Behind thirteen prefixes, `01` is stored in `driver_state`: the driver waits
for the answer to a command although none is queued, and the next byte makes
it write an argument.
-/
theorem argument_written_without_command :
    ¬ ∀ build labels, ∃ final,
      run (atomicStep build) initialDriver labels = some final ∧
        InOrder final.toCommandLink := by
  intro always
  obtain ⟨final, reached, inOrder⟩ := always stateBehindBuffer
    (List.replicate 13 (.interrupt 0xE0 0) ++
      [.interrupt 0x01 0, .interrupt 0x1C 0])
  have observed : (run (atomicStep stateBehindBuffer) initialDriver
      (List.replicate 13 (.interrupt 0xE0 0) ++
        [.interrupt 0x01 0, .interrupt 0x1C 0])).map
        (fun driver => (driver.wire, driver.accepted)) =
      some ([⟨.argument, 0⟩], []) := by
    decide +kernel
  rw [reached, Option.map_some] at observed
  obtain ⟨written, accepted⟩ := Prod.mk.inj (Option.some.inj observed)
  have front := inOrder.is_prefix
  rw [written, accepted] at front
  exact absurd front (by decide)

end Kernull.Ps2CommandRuns
