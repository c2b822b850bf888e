import Kernull.Ps2QueueContents

/-!
# The question behind each change of the scan code set

`ps2_kbd_command_arg` queues a question for the scan code set behind each
command that sets it, but looks for the room of one entry only.  With seven
commands queued the command is accepted and its question is dropped.  The runs
are those in which `handle_data` stores its bytes inside `scan_code_buf`.
-/

namespace Kernull.Ps2ScanSetQuery

open Kernull.Ps2CommandQueue
open Kernull.Ps2CommandRuns
open Kernull.Ps2QueueContents
open Kernull.Library.LabelledRun

/-- A command that sets the scan code set. -/
def SetsScanSet (entry : Ps2KbdCommand) : Prop :=
  entry.com = ps2KbdComSetScanSet ∧ entry.arg ≠ 0

instance (entry : Ps2KbdCommand) : Decidable (SetsScanSet entry) :=
  inferInstanceAs
    (Decidable (entry.com = ps2KbdComSetScanSet ∧ entry.arg ≠ 0))

/-- The command that asks for the scan code set. -/
def scanSetQuery : Ps2KbdCommand :=
  ⟨ps2KbdComSetScanSet, 0⟩

/--
A call that sets the scan code set queues its command and the question, one
behind the other, or changes nothing.
-/
def AllOrNothing (link : CommandLink) (arg : BitVec 8) : Prop :=
  queuedCommands (link.ps2KbdCommandArg ps2KbdComSetScanSet arg) =
      queuedCommands link ++ [⟨ps2KbdComSetScanSet, arg⟩, scanSetQuery] ∨
    link.ps2KbdCommandArg ps2KbdComSetScanSet arg = link

/-- Each command that sets the scan code set is followed by the question. -/
def QueriesFollow : List Ps2KbdCommand → Prop
  | [] => True
  | entry :: rest =>
      (SetsScanSet entry → rest.head? = some scanSetQuery) ∧
        QueriesFollow rest

/-- The queue does not have exactly one slot left for two entries. -/
def HasRoomForQuery (driver : Driver) : Step → Prop
  | .command command arg =>
      SetsScanSet ⟨command, arg⟩ → driver.pendingCommands ≠ 7
  | .interrupt _ _ => True

instance (driver : Driver) : (label : Step) →
    Decidable (HasRoomForQuery driver label)
  | .command command arg =>
      inferInstanceAs (Decidable
        (SetsScanSet ⟨command, arg⟩ → driver.pendingCommands ≠ 7))
  | .interrupt _ _ => inferInstanceAs (Decidable True)

/-! ## Lists of commands -/

theorem QueriesFollow.tail {entries : List Ps2KbdCommand}
    (follow : QueriesFollow entries) : QueriesFollow entries.tail := by
  cases entries with
  | nil => exact follow
  | cons entry rest => exact follow.2

/-- No question of the front is left to the back. -/
theorem QueriesFollow.append {front back : List Ps2KbdCommand}
    (followFront : QueriesFollow front)
    (followBack : QueriesFollow back) : QueriesFollow (front ++ back) := by
  induction front with
  | nil => exact followBack
  | cons entry rest inductionHypothesis =>
      rw [List.cons_append]
      constructor
      · intro sets
        have query := followFront.1 sets
        rw [List.head?_append, query]
        rfl
      · exact inductionHypothesis followFront.2

/-- The youngest command has no question behind it. -/
theorem not_queriesFollow_concat {entry : Ps2KbdCommand}
    (sets : SetsScanSet entry) (front : List Ps2KbdCommand) :
    ¬ QueriesFollow (front ++ [entry]) := by
  intro follow
  induction front with
  | nil => exact nomatch follow.1 sets
  | cons _ rest inductionHypothesis => exact inductionHypothesis follow.2

theorem requested_of_sets {command arg : BitVec 8}
    (sets : SetsScanSet ⟨command, arg⟩) :
    requested command arg = [⟨command, arg⟩, scanSetQuery] := by
  rw [requested]
  exact congrArg (List.cons _) (if_pos sets)

theorem requested_of_not_sets {command arg : BitVec 8}
    (sets : ¬ SetsScanSet ⟨command, arg⟩) :
    requested command arg = [⟨command, arg⟩] := by
  rw [requested]
  exact congrArg (List.cons _) (if_neg sets)

/-- Whole requests keep each question behind its command. -/
theorem queriesFollow_requested (command arg : BitVec 8) :
    QueriesFollow (requested command arg) := by
  by_cases sets : SetsScanSet ⟨command, arg⟩
  · rw [requested_of_sets sets]
    constructor
    · intro _
      rfl
    · constructor
      · intro setsAgain
        exact absurd rfl setsAgain.2
      · trivial
  · rw [requested_of_not_sets sets]
    constructor
    · intro setsAfterAll
      exact absurd setsAfterAll sets
    · trivial

/-! ## One call -/

section

variable {link : CommandLink}

/-- With seven commands queued the question is dropped. -/
theorem queuedCommands_without_query (queued : Queued link)
    (seven : link.pendingCommands = 7) {command arg : BitVec 8}
    (sets : SetsScanSet ⟨command, arg⟩) :
    queuedCommands (link.ps2KbdCommandArg command arg) =
      queuedCommands link ++ [⟨command, arg⟩] := by
  have filled : (queuedCommands link ++
      [Ps2KbdCommand.mk command arg]).length = commandQueueSize := by
    rw [List.length_append, length_queuedCommands, seven]
    rfl
  rw [queuedCommands_ps2KbdCommandArg queued, requested_of_sets sets,
    List.append_cons]
  exact List.take_left' filled

/-- With any other number queued the request is taken whole or not at all. -/
theorem whole_or_unchanged (queued : Queued link) {command arg : BitVec 8}
    (room : SetsScanSet ⟨command, arg⟩ → link.pendingCommands ≠ 7) :
    queuedCommands (link.ps2KbdCommandArg command arg) =
        queuedCommands link ++ requested command arg ∨
      link.ps2KbdCommandArg command arg = link := by
  by_cases free : link.pendingCommands < commandQueueSize
  · left
    rw [queuedCommands_ps2KbdCommandArg queued, List.take_of_length_le]
    rw [List.length_append, length_queuedCommands]
    rw [commandQueueSize] at free ⊢
    by_cases sets : SetsScanSet ⟨command, arg⟩
    · have notSeven := room sets
      rw [requested_of_sets sets, List.length_cons, List.length_singleton]
      omega
    · rw [requested_of_not_sets sets, List.length_singleton]
      exact free
  · right
    rw [CommandLink.ps2KbdCommandArg, if_neg free]

theorem allOrNothing_iff (queued : Queued link)
    {arg : BitVec 8} (nonzero : arg ≠ 0) :
    AllOrNothing link arg ↔ link.pendingCommands ≠ 7 := by
  have sets : SetsScanSet ⟨ps2KbdComSetScanSet, arg⟩ := ⟨rfl, nonzero⟩
  constructor
  · intro all seven
    have added := queuedCommands_without_query queued seven sets
    rcases all with both | unchanged
    · rw [added] at both
      have same := List.append_cancel_left both
      exact absurd same (by simp)
    · rw [unchanged] at added
      exact absurd added (by simp)
  · intro room
    rcases whole_or_unchanged queued fun _ => room with whole | unchanged
    · left
      rw [whole, requested_of_sets sets]
    · right
      exact unchanged

theorem queriesFollow_ps2KbdCommandArg (queued : Queued link)
    (follow : QueriesFollow (queuedCommands link))
    {command arg : BitVec 8}
    (room : SetsScanSet ⟨command, arg⟩ → link.pendingCommands ≠ 7) :
    QueriesFollow
      (queuedCommands (link.ps2KbdCommandArg command arg)) := by
  rcases whole_or_unchanged queued room with whole | unchanged
  · rw [whole]
    exact follow.append (queriesFollow_requested command arg)
  · rw [unchanged]
    exact follow

end

/-! ## Runs -/

/-- The invariant of the queue, with each question behind its command. -/
structure Queried (driver : Driver) : Prop where
  settled : Settled driver.toCommandLink
  follow : QueriesFollow (queuedCommands driver.toCommandLink)

theorem queried_initialDriver : Queried initialDriver where
  settled := settled_initialDriver
  follow := trivial

/-- A step that leaves room for the question keeps the invariant. -/
theorem queried_atomicStep
    {build : Build} {driver next : Driver} (queried : Queried driver)
    {label : Step} (inside : StaysInBuffer driver label)
    (room : HasRoomForQuery driver label)
    (stepped : atomicStep build driver label = some next) :
    Queried next := by
  cases label with
  | command command arg =>
      obtain rfl := Option.some.inj stepped
      constructor
      · exact queried.settled.ps2KbdCommandArg command arg
      · exact queriesFollow_ps2KbdCommandArg queried.settled.toQueued
          queried.follow room
  | interrupt data answer =>
      have replied : driver.toCommandLink.reply data =
          some next.toCommandLink := by
        rw [← Driver.keyboardHandler_toCommandLink build inside data answer]
        exact congrArg (Option.map _) stepped
      constructor
      · exact settled_of_keyboardHandler queried.settled inside stepped
      · rcases queuedCommands_reply queried.settled replied with
          same | retired
        · rw [same]
          exact queried.follow
        · rw [retired]
          exact queried.follow.tail

/-- A step that keeps the invariant left room for the question. -/
theorem hasRoomForQuery_of_queried
    {build : Build} {driver : Driver} (queried : Queried driver)
    {label : Step}
    (after : ∀ next, atomicStep build driver label = some next →
      Queried next) :
    HasRoomForQuery driver label := by
  cases label with
  | command command arg =>
      intro sets seven
      have follow := (after _ rfl).follow
      have added := queuedCommands_without_query queried.settled.toQueued
        seven sets
      rw [Driver.onLink_toCommandLink, added] at follow
      exact not_queriesFollow_concat sets _ follow
  | interrupt _ _ => trivial

/--
In every build and for every run that stores nothing behind `scan_code_buf`, a
call that sets the scan code set from the state reached is all or nothing
exactly when that state does not have seven commands queued, and in each state
visited every queued command that sets the scan code set is followed by its
question exactly when no such call of the run was made with seven commands
queued.
-/
theorem scan_set_all_or_nothing_iff
    (build : Build) {labels : List Step}
    (inside :
      Guarded (atomicStep build) StaysInBuffer initialDriver labels) :
    ∃ driver, run (atomicStep build) initialDriver labels = some driver ∧
      (∀ arg, arg ≠ 0 →
        (AllOrNothing driver.toCommandLink arg ↔
          driver.pendingCommands ≠ 7)) ∧
      ((∀ visited,
          Visits (atomicStep build) initialDriver labels visited →
            QueriesFollow (queuedCommands visited.toCommandLink)) ↔
        Guarded (atomicStep build) HasRoomForQuery initialDriver
          labels) := by
  obtain ⟨driver, reached, settled⟩ := settled_run inside
  refine ⟨driver, reached, ?_, ?_⟩
  · intro arg nonzero
    exact allOrNothing_iff settled.toQueued nonzero
  constructor
  · intro follow
    apply guarded_of_invariant
      (fun _ _ queried after => hasRoomForQuery_of_queried queried after)
    intro visited visits
    have followed := follow visited visits
    obtain ⟨before, after, split, arrived⟩ := visits
    rw [split] at inside
    exact ⟨settled_of_run inside.of_append arrived, followed⟩
  · intro guarded visited visits
    have queried : Queried visited :=
      invariant_of_guarded
        (fun _ _ _ queried met stepped =>
          queried_atomicStep queried met.1 met.2 stepped)
        queried_initialDriver (inside.and guarded) visits
    exact queried.follow

/-- Six commands, a choice of the scan code set, and two answers. -/
def answeredChoice : List Step :=
  List.replicate 6 (.command 0xF4 commandNoArg) ++
    [.command ps2KbdComSetScanSet 2, .interrupt ack 0, .interrupt 0x1C 0]

/-- Six commands are left, the last of them the question. -/
theorem answeredChoice_all_or_nothing :
    ∃ driver,
      run (atomicStep stateBehindBuffer) initialDriver answeredChoice =
        some driver ∧
      (∀ arg, arg ≠ 0 → AllOrNothing driver.toCommandLink arg) ∧
      ∀ visited,
        Visits (atomicStep stateBehindBuffer) initialDriver answeredChoice
            visited →
          QueriesFollow (queuedCommands visited.toCommandLink) := by
  have inside : Guarded (atomicStep stateBehindBuffer) StaysInBuffer
      initialDriver answeredChoice := by
    decide +kernel
  have room : Guarded (atomicStep stateBehindBuffer) HasRoomForQuery
      initialDriver answeredChoice := by
    decide +kernel
  have observed : (run (atomicStep stateBehindBuffer) initialDriver
      answeredChoice).map (fun driver => driver.pendingCommands) =
        some 6 := by
    decide +kernel
  obtain ⟨driver, reached, all, follow⟩ :=
    scan_set_all_or_nothing_iff stateBehindBuffer inside
  rw [reached, Option.map_some] at observed
  have six := Option.some.inj observed
  refine ⟨driver, reached, fun arg nonzero => ?_, follow.mpr room⟩
  exact (all arg nonzero).mpr (by omega)

/-- Behind seven commands, scan code set 2 is chosen and not asked for. -/
theorem question_dropped_behind_seven_commands :
    ¬ ∀ build labels driver,
      run (atomicStep build) initialDriver labels = some driver →
        (∀ arg, arg ≠ 0 → AllOrNothing driver.toCommandLink arg) ∧
          QueriesFollow (queuedCommands driver.toCommandLink) := by
  intro always
  have observed : ((run (atomicStep stateBehindBuffer) initialDriver
      (List.replicate 7 (.command 0xF4 commandNoArg))).map
      fun driver => driver.pendingCommands) = some 7 := by
    decide +kernel
  have inside : Guarded (atomicStep stateBehindBuffer) StaysInBuffer
      initialDriver (List.replicate 7 (.command 0xF4 commandNoArg)) := by
    decide +kernel
  obtain ⟨driver, reached, seven⟩ := Option.map_eq_some_iff.mp observed
  have queued := (settled_of_run inside reached).toQueued
  have nonzero : (2 : BitVec 8) ≠ 0 := by decide
  have all := (always _ _ driver reached).1 2 nonzero
  exact (allOrNothing_iff queued nonzero).mp all seven

end Kernull.Ps2ScanSetQuery
