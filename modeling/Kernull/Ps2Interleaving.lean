import Kernull.Ps2CommandRuns

/-!
# Calls interleaved with interrupts

`ps2_kbd_command_arg` taken apart at its statement boundaries, with whole runs
of the interrupt handler in between.  The test `pending_commands == 1` stands
for "the queue was empty"; an interrupt between `queue_add` and the test can
make it true of a command the handler has already written, and an interrupt
before the follow-up query can empty the queue the query is added to.  In the
runs where neither happens, and where `handle_data` stores its bytes inside
`scan_code_buf`, every command byte is written exactly once and the driver is
ready exactly when the queue is empty.
-/

namespace Kernull.Ps2Interleaving

open Kernull.Ps2CommandQueue
open Kernull.Ps2CommandRuns
open Kernull.Library.LabelledRun

/-- How far the current call of `ps2_kbd_command_arg` has come. -/
inductive CallPhase where
  | idle
  | adding (command arg : BitVec 8)
  | testing (command arg : BitVec 8)
  | announcing (command arg : BitVec 8)
  | querying (command arg : BitVec 8)
  deriving DecidableEq

/-- The driver and the call in progress. -/
structure System where
  driver : Driver
  phase : CallPhase

/-- Nothing is in progress initially. -/
def initialSystem : System where
  driver := initialDriver
  phase := .idle

/-- A new call, the next statement of the call, or an interrupt. -/
inductive Event where
  | call (command arg : BitVec 8)
  | statement
  | interrupt (data answer : BitVec 8)

/-- The next statement of the call in progress. -/
def statementStep (system : System) : Option System :=
  let driver := system.driver
  match system.phase with
  | .idle => none
  | .adding command arg =>
      some ⟨driver.onLink fun link => link.queueAdd command arg,
        .testing command arg⟩
  | .testing command arg =>
      if driver.pendingCommands = 1 then
        some ⟨driver, .announcing command arg⟩
      else
        some ⟨driver, .querying command arg⟩
  | .announcing command arg =>
      some ⟨driver.onLink fun link => link.announce command,
        .querying command arg⟩
  | .querying command arg =>
      some ⟨driver.onLink fun link => link.queryScanSet command arg, .idle⟩

/-- A call begins with its check for room and is made by one caller. -/
def interleavedStep (build : Build) (system : System) :
    Event → Option System
  | .call command arg =>
      if system.phase = .idle then
        if system.driver.pendingCommands < commandQueueSize then
          some { system with phase := .adding command arg }
        else
          some system
      else
        none
  | .statement => statementStep system
  | .interrupt data answer =>
      (system.driver.keyboardHandler build data answer).map fun driver =>
        { system with driver }

/-- Without interrupts, the statements of a call are the call. -/
theorem run_call_uninterrupted
    (build : Build) (driver : Driver) (command arg : BitVec 8)
    (room : driver.pendingCommands < commandQueueSize) :
    ∃ statements,
      run (interleavedStep build) ⟨driver, .idle⟩
          (.call command arg :: List.replicate statements .statement) =
        some ⟨driver.onLink fun link => link.ps2KbdCommandArg command arg,
          .idle⟩ := by
  by_cases first : (driver.toCommandLink.queueAdd command
    arg).pendingCommands = 1
  · refine ⟨4, ?_⟩
    simp [run, interleavedStep, statementStep, room, first,
      CommandLink.ps2KbdCommandArg, CommandLink.announceIfFirst,
      Driver.onLink, List.replicate]
  · refine ⟨3, ?_⟩
    simp [run, interleavedStep, statementStep, room, first,
      CommandLink.ps2KbdCommandArg, CommandLink.announceIfFirst,
      Driver.onLink, List.replicate]

/-! ## The property at the end of a call -/

/-- The command bytes written, apart from answers to `RESEND`. -/
def commandBytes (wire : List PortWrite) : List (BitVec 8) :=
  (wire.filter fun write => write.kind = .command).map PortWrite.byte

/--
The command bytes of the entries that were retired and of the one the driver
waits for have been written once each and in order, no others have, and the
driver is ready exactly when the queue is empty.
-/
structure CallEnded (link : CommandLink) : Prop where
  written_once : commandBytes link.wire =
    (link.accepted.take
      (link.retired + min 1 link.pendingCommands)).map Ps2KbdCommand.com
  ready_iff : link.driverState = stateReady ↔ link.pendingCommands = 0

/--
What the statements of a call and the interrupts need of the state they start
in: the test finds a single command pending only if none was waited for when
it was queued, the follow-up query is added behind another entry, and an
interrupt that finds the driver ready stores its byte inside `scan_code_buf`.
-/
def Undisturbed (system : System) : Event → Prop
  | .statement =>
      match system.phase with
      | .testing _ _ =>
          system.driver.pendingCommands = 1 →
            system.driver.driverState = stateReady
      | .querying command arg =>
          command = ps2KbdComSetScanSet ∧ arg ≠ 0 →
            0 < system.driver.pendingCommands
      | _ => True
  | .interrupt _ _ => system.driver.InBuffer
  | .call _ _ => True

instance : (system : System) → (event : Event) →
    Decidable (Undisturbed system event)
  | ⟨driver, .testing _ _⟩, .statement =>
      inferInstanceAs (Decidable
        (driver.pendingCommands = 1 → driver.driverState = stateReady))
  | ⟨driver, .querying command arg⟩, .statement =>
      inferInstanceAs (Decidable
        (command = ps2KbdComSetScanSet ∧ arg ≠ 0 →
          0 < driver.pendingCommands))
  | ⟨_, .idle⟩, .statement
  | ⟨_, .adding _ _⟩, .statement
  | ⟨_, .announcing _ _⟩, .statement => inferInstanceAs (Decidable True)
  | system, .interrupt _ _ =>
      inferInstanceAs (Decidable system.driver.InBuffer)
  | _, .call _ _ => inferInstanceAs (Decidable True)

/-! ## The invariant of undisturbed runs -/

/-- What holds of the queue at each point of a call. -/
def Interleaved (system : System) : Prop :=
  let link := system.driver.toCommandLink
  match system.phase with
  | .idle | .adding _ _ | .querying _ _ => Settled link
  | .testing command _ => Settled link ∨ Unannounced link command
  | .announcing command _ => Unannounced link command

theorem commandBytes_entryWrites (entry : Ps2KbdCommand) :
    commandBytes (entryWrites entry) = [entry.com] := by
  rw [entryWrites]
  split_ifs <;> rfl

@[simp]
theorem commandBytes_append (front back : List PortWrite) :
    commandBytes (front ++ back) =
      commandBytes front ++ commandBytes back := by
  simp [commandBytes]

theorem commandBytes_flatMap (entries : List Ps2KbdCommand) :
    commandBytes (entries.flatMap entryWrites) =
      entries.map Ps2KbdCommand.com := by
  induction entries with
  | nil => rfl
  | cons entry rest inductionHypothesis =>
      rw [List.flatMap_cons, commandBytes_append, commandBytes_entryWrites,
        inductionHypothesis]
      rfl

/-- Answers to `RESEND` are no command bytes. -/
theorem commandBytes_firstWrites (wire : List PortWrite) :
    commandBytes (firstWrites wire) = commandBytes wire := by
  rw [commandBytes, firstWrites, List.filter_filter]
  congr 2
  funext write
  cases write.kind <;> rfl

/-- A settled queue has the property. -/
theorem callEnded_of_settled {link : CommandLink}
    (settled : Settled link) : CallEnded link := by
  refine ⟨?_, settled.ready_iff⟩
  rw [← commandBytes_firstWrites, settled.writes, commandBytes_append,
    commandBytes_flatMap, begunWrites]
  rcases Nat.eq_zero_or_pos link.pendingCommands with empty | nonempty
  · rw [if_pos (settled.ready_iff.mpr empty), empty]
    simp [commandBytes]
  · have oldest := settled.toQueued.accepted_retired nonempty
    have busy : link.driverState ≠ stateReady := fun ready => by
      have empty := settled.ready_iff.mp ready
      omega
    rw [if_neg busy, Nat.min_eq_left nonempty, List.take_add_one, oldest]
    split_ifs <;> simp [commandBytes]

/-- While the entry is unwritten the handler only decodes key presses. -/
theorem unannounced_keyboardHandler
    {build : Build} {driver next : Driver} {command : BitVec 8}
    (unannounced : Unannounced driver.toCommandLink command)
    (inside : driver.InBuffer) {data answer : BitVec 8}
    (handled : driver.keyboardHandler build data answer = some next) :
    Unannounced next.toCommandLink command := by
  have replied := driver.keyboardHandler_toCommandLink build inside data
    answer
  rw [handled, CommandLink.reply, if_pos unannounced.ready] at replied
  exact Option.some.inj replied ▸ unannounced

theorem interleaved_interrupt
    {build : Build} {system next : System} (held : Interleaved system)
    (inside : system.driver.InBuffer) {data answer : BitVec 8}
    (stepped : interleavedStep build system (.interrupt data answer) =
      some next) :
    Interleaved next := by
  obtain ⟨driver, phase⟩ := system
  obtain ⟨handledDriver, handled, rfl⟩ := Option.map_eq_some_iff.mp stepped
  cases phase with
  | idle => exact settled_of_keyboardHandler held inside handled
  | adding _ _ => exact settled_of_keyboardHandler held inside handled
  | querying _ _ => exact settled_of_keyboardHandler held inside handled
  | announcing _ _ =>
      exact unannounced_keyboardHandler held inside handled
  | testing _ _ =>
      rcases held with settled | unannounced
      · exact Or.inl (settled_of_keyboardHandler settled inside handled)
      · exact Or.inr
          (unannounced_keyboardHandler unannounced inside handled)

theorem interleaved_statement
    {system next : System} (held : Interleaved system)
    (undisturbed : Undisturbed system .statement)
    (stepped : statementStep system = some next) :
    Interleaved next := by
  obtain ⟨driver, phase⟩ := system
  cases phase with
  | idle => exact absurd stepped (by simp [statementStep])
  | adding command arg =>
      obtain rfl := Option.some.inj stepped
      have settled : Settled driver.toCommandLink := held
      rcases Nat.eq_zero_or_pos driver.pendingCommands with
        empty | nonempty
      · exact Or.inr (settled.unannounced empty command arg)
      · exact Or.inl (settled.queueAdd nonempty command arg)
  | testing command arg =>
      simp only [statementStep] at stepped
      split_ifs at stepped with single
      · obtain rfl := Option.some.inj stepped
        rcases held with settled | unannounced
        · -- the handler has left one entry, which it wrote itself
          have empty := settled.ready_iff.mp (undisturbed single)
          exact absurd (single.symm.trans empty) (by decide)
        · exact unannounced
      · obtain rfl := Option.some.inj stepped
        rcases held with settled | unannounced
        · exact settled
        · exact absurd unannounced.pending single
  | announcing command arg =>
      obtain rfl := Option.some.inj stepped
      exact Unannounced.announce held
  | querying command arg =>
      obtain rfl := Option.some.inj stepped
      exact Settled.queryScanSet held command arg undisturbed

theorem interleaved_step
    {build : Build} {system next : System} (held : Interleaved system)
    {event : Event} (undisturbed : Undisturbed system event)
    (stepped : interleavedStep build system event = some next) :
    Interleaved next := by
  cases event with
  | interrupt data answer =>
      exact interleaved_interrupt held undisturbed stepped
  | statement => exact interleaved_statement held undisturbed stepped
  | call command arg =>
      obtain ⟨driver, phase⟩ := system
      simp only [interleavedStep] at stepped
      split_ifs at stepped with idle room
      · obtain rfl := Option.some.inj stepped
        subst idle
        exact held
      · obtain rfl := Option.some.inj stepped
        exact held

/--
In every build and every run whose statements and interrupts are undisturbed,
each state reached at the end of a call has all its command bytes written
exactly once and is ready exactly when the queue is empty.
-/
theorem commands_written_once_when_undisturbed
    {build : Build} {events : List Event} {visited : System}
    (undisturbed :
      Guarded (interleavedStep build) Undisturbed initialSystem events)
    (visits : Visits (interleavedStep build) initialSystem events visited)
    (ended : visited.phase = .idle) :
    CallEnded visited.driver.toCommandLink := by
  have held : Interleaved visited :=
    invariant_of_guarded
      (fun _ _ _ held guarded stepped =>
        interleaved_step held guarded stepped)
      (show Interleaved initialSystem from settled_initialDriver)
      undisturbed visits
  rw [Interleaved, ended] at held
  exact callEnded_of_settled held

/-- The keyboard answers before the call has queued its follow-up query. -/
def answeredInTime : List Event :=
  [.call ps2KbdComEcho commandNoArg, .statement, .statement, .statement,
    .statement, .call ps2KbdComSetScanSet 2, .statement, .statement,
    .statement, .interrupt 0xEE 0]

/-- The commands `kmain` queues, with a late answer to the first. -/
theorem commands_written_once_with_late_answer :
    ∃ visited,
      Visits (interleavedStep stateBehindBuffer) initialSystem
        answeredInTime visited ∧
      visited.phase = .idle ∧
      CallEnded visited.driver.toCommandLink := by
  have observed : ((run (interleavedStep stateBehindBuffer) initialSystem
      answeredInTime).map System.phase) = some .idle := by
    decide +kernel
  obtain ⟨visited, reached, ended⟩ := Option.map_eq_some_iff.mp observed
  have visits : Visits (interleavedStep stateBehindBuffer) initialSystem
      answeredInTime visited :=
    ⟨answeredInTime, [], (List.append_nil _).symm, reached⟩
  exact ⟨visited, visits, ended,
    commands_written_once_when_undisturbed (by decide +kernel) visits ended⟩

/--
The answer to the first command of `kmain` arrives between `queue_add` and
the test for the second, and the second command byte is written twice.
-/
theorem command_written_twice_after_early_answer :
    ¬ ∀ build events visited,
      Visits (interleavedStep build) initialSystem events visited →
        visited.phase = .idle → CallEnded visited.driver.toCommandLink := by
  intro always
  have observed : ((run (interleavedStep stateBehindBuffer) initialSystem
      [.call ps2KbdComEcho commandNoArg, .statement, .statement, .statement,
        .statement, .call ps2KbdComSetScanSet 2, .statement,
        .interrupt 0xEE 0, .statement, .statement, .statement]).map
      fun final => (final.phase, commandBytes final.driver.wire,
        (final.driver.accepted.take (final.driver.retired +
          min 1 final.driver.pendingCommands)).map Ps2KbdCommand.com)) =
      some (.idle, [0xEE, 0xF0, 0xF0], [0xEE, 0xF0]) := by
    decide +kernel
  obtain ⟨final, reached, values⟩ := Option.map_eq_some_iff.mp observed
  simp only [Prod.mk.injEq] at values
  obtain ⟨ended, written, expected⟩ := values
  have once := (always _ _ final
    ⟨_, [], (List.append_nil _).symm, reached⟩ ended).written_once
  rw [written, expected] at once
  exact absurd once (by decide)

end Kernull.Ps2Interleaving
