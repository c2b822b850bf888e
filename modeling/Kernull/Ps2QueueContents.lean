import Kernull.Ps2CommandRuns

/-!
# The commands in the queue

The ring of the driver as the list of its commands, oldest first.  A call
appends what it asks for, as far as there is room; a byte from the keyboard
leaves the list as it is or retires its head.
-/

namespace Kernull.Ps2QueueContents

open Kernull.Ps2CommandQueue
open Kernull.Ps2CommandRuns
open Kernull.Library.LabelledRun
open Kernull.Library.RingQueue

/-- The commands in the ring, oldest first. -/
def queuedCommands (link : CommandLink) : List Ps2KbdCommand :=
  (ring link).contents commandQueueSize

@[simp]
theorem length_queuedCommands (link : CommandLink) :
    (queuedCommands link).length = link.pendingCommands :=
  Ring.length_contents commandQueueSize (ring link)

@[simp]
theorem queuedCommands_announce (link : CommandLink) (command : BitVec 8) :
    queuedCommands (link.announce command) = queuedCommands link :=
  rfl

@[simp]
theorem queuedCommands_announceIfFirst
    (link : CommandLink) (command : BitVec 8) :
    queuedCommands (link.announceIfFirst command) =
      queuedCommands link := by
  rw [CommandLink.announceIfFirst]
  split_ifs <;> rfl

/-! ## Calls -/

/-- What a call of `ps2_kbd_command_arg` asks to be queued. -/
def requested (command arg : BitVec 8) : List Ps2KbdCommand :=
  ⟨command, arg⟩ ::
    if command = ps2KbdComSetScanSet ∧ arg ≠ 0 then
      [⟨ps2KbdComSetScanSet, 0⟩]
    else []

/-- Cutting the front to a length does not change what is left of the whole. -/
theorem take_take_append {Entry : Type} (size : Nat)
    (front back : List Entry) :
    (front.take size ++ back).take size = (front ++ back).take size := by
  rcases Nat.le_total front.length size with fits | cut
  · rw [List.take_of_length_le fits]
  · have filled : (front.take size).length = size :=
      List.length_take_of_le cut
    rw [List.take_append_of_le_length cut, List.take_left' filled]

section

variable {link : CommandLink}

/-- `queue_add` appends when there is room. -/
theorem queuedCommands_queueAdd (queued : Queued link)
    (command arg : BitVec 8) :
    queuedCommands (link.queueAdd command arg) =
      (queuedCommands link ++ [Ps2KbdCommand.mk command arg]).take
        commandQueueSize := by
  by_cases room : link.pendingCommands < commandQueueSize
  · have pushed := queued.wellFormed.contents_push room ⟨command, arg⟩
    rw [List.take_of_length_le]
    · rw [CommandLink.queueAdd, if_pos room]
      exact pushed
    · rw [List.length_append, length_queuedCommands]
      exact room
  · have full : (queuedCommands link).length = commandQueueSize := by
      have bound := queued.wellFormed.pending_le
      rw [length_queuedCommands]
      exact Nat.le_antisymm bound (Nat.not_lt.mp room)
    rw [CommandLink.queueAdd_of_full room, List.take_left' full]

/-- Announcing a command leaves the ring as it is. -/
theorem queued_announceIfFirst (queued : Queued link)
    (command : BitVec 8) : Queued (link.announceIfFirst command) := by
  rw [CommandLink.announceIfFirst]
  split_ifs
  · exact ⟨queued.wellFormed, queued.contents, queued.retired_le⟩
  · exact queued

theorem queuedCommands_queryScanSet (queued : Queued link)
    (command arg : BitVec 8) :
    queuedCommands (link.queryScanSet command arg) =
      (queuedCommands link ++ (requested command arg).tail).take
        commandQueueSize := by
  rw [CommandLink.queryScanSet, requested, List.tail_cons]
  split_ifs with queries
  · exact queuedCommands_queueAdd queued ps2KbdComSetScanSet 0
  · rw [List.append_nil, List.take_of_length_le]
    rw [length_queuedCommands]
    exact queued.wellFormed.pending_le

/-- A call appends what it asks for, as far as there is room. -/
theorem queuedCommands_ps2KbdCommandArg (queued : Queued link)
    (command arg : BitVec 8) :
    queuedCommands (link.ps2KbdCommandArg command arg) =
      (queuedCommands link ++ requested command arg).take
        commandQueueSize := by
  rw [CommandLink.ps2KbdCommandArg]
  split_ifs with room
  · have announced := queued_announceIfFirst
      (queued.queueAdd command arg) command
    have split : queuedCommands link ++ requested command arg =
        (queuedCommands link ++ [Ps2KbdCommand.mk command arg]) ++
          (requested command arg).tail := by
      rw [List.append_assoc]
      rfl
    rw [queuedCommands_queryScanSet announced,
      queuedCommands_announceIfFirst,
      queuedCommands_queueAdd queued, take_take_append, split]
  · have full : (queuedCommands link).length = commandQueueSize := by
      have bound := queued.wellFormed.pending_le
      rw [length_queuedCommands]
      exact Nat.le_antisymm bound (Nat.not_lt.mp room)
    rw [List.take_left' full]

/-! ## Bytes from the keyboard -/

/-- `handle_next_command` retires the oldest command. -/
theorem queuedCommands_handleNextCommand (queued : Queued link)
    (nonempty : 0 < link.pendingCommands) :
    queuedCommands link.handleNextCommand = (queuedCommands link).tail := by
  have discarded : queuedCommands link.queueDiscard =
      (queuedCommands link).tail := by
    rw [CommandLink.queueDiscard, if_pos nonempty]
    exact queued.wellFormed.contents_discard nonempty
  rw [CommandLink.handleNextCommand]
  split_ifs
  · rw [queuedCommands_announce, discarded]
  · exact discarded

/-- A byte from the keyboard retires the oldest command or none. -/
theorem queuedCommands_reply (settled : Settled link)
    {data : BitVec 8} {next : CommandLink}
    (replied : link.reply data = some next) :
    queuedCommands next = queuedCommands link ∨
      queuedCommands next = (queuedCommands link).tail := by
  rw [CommandLink.reply] at replied
  by_cases ready : link.driverState = stateReady
  · rw [if_pos ready] at replied
    obtain rfl := Option.some.inj replied
    exact Or.inl rfl
  have nonempty : 0 < link.pendingCommands :=
    Nat.pos_of_ne_zero fun empty => ready (settled.ready_iff.mpr empty)
  have retires :=
    queuedCommands_handleNextCommand settled.toQueued nonempty
  rw [if_neg ready] at replied
  split_ifs at replied
  all_goals
    obtain rfl := Option.some.inj replied
    first
      | exact Or.inl rfl
      | exact Or.inr retires

end

end Kernull.Ps2QueueContents
