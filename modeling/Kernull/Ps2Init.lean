import Kernull.Library.PortIo
import Kernull.ConsoleOutput
import Kernull.Ps2Controller

/-!
# Setting up the PS/2 controller

The functions of `kernel/ps2_8042.c` that talk to the controller, and
`ps2_init`, over any device behind the two ports.  Whatever the device answers,
and also while it asks for the same byte again and again, no byte is written
without a wait just before it.
-/

namespace Kernull.Ps2Init

open Kernull.ConsoleOutput (literal)
open Kernull.Library.PortIo
open Kernull.Mm
open Kernull.Ps2Controller (StatusStream inputFull outputFull)

/-- `DATA_PORT`. -/
def dataPort : BitVec 64 := 0x60

/-- `COMMAND_REG`. -/
def commandReg : BitVec 64 := 0x64

/-- `STATUS_REG`. -/
def statusReg : BitVec 64 := 0x64

/-! ## The functions -/

section

variable {State : Type} (device : Device State)

/-- `while (waiting && timeout-- > 0) s.full = inb(STATUS_REG);` -/
def pollLoop (waiting : BitVec 8 → Bool) :
    Nat → BitVec 8 → Driver State Nat
  | 0, s => pure (if waiting s then sub64 0 1 else 0)
  | timeout + 1, s =>
      if waiting s then do
        let s ← inb device statusReg
        pollLoop waiting timeout s
      else
        pure (timeout + 1)

/-- The common body of the two waits. -/
def wait (waiting : BitVec 8 → Bool) : Driver State (BitVec 8) := do
  let s ← inb device statusReg
  let timeout ← pollLoop device waiting 64 s
  pure (if timeout = 0 then 1 else 0)

/-- `wait_input_buf`. -/
def waitInputBuf : Driver State (BitVec 8) :=
  wait device inputFull

/-- `wait_output_buf`. -/
def waitOutputBuf : Driver State (BitVec 8) :=
  wait device fun s => !outputFull s

/-- `ps2_data_read`. -/
def ps2DataRead : Driver State (BitVec 8) := do
  let _ ← waitOutputBuf device
  inb device dataPort

/-- `ps2_write`. -/
def ps2Write (data : BitVec 8) : Driver State Unit := do
  let _ ← waitInputBuf device
  outb device dataPort data

/-- `ps2_command`. -/
def ps2Command (command : BitVec 8) : Driver State Unit := do
  let _ ← waitInputBuf device
  outb device commandReg command

/-- `ps2_command_arg`. -/
def ps2CommandArg (command arg : BitVec 8) : Driver State Unit := do
  let _ ← waitInputBuf device
  outb device commandReg command
  ps2Write device arg

/-- `ps2_command_resp`. -/
def ps2CommandResp (command : BitVec 8) : Driver State (BitVec 8) := do
  let _ ← waitInputBuf device
  outb device commandReg command
  ps2DataRead device

/-- `ps2_port1_write`. -/
def ps2Port1Write (data : BitVec 8) : Driver State Unit :=
  ps2Write device data

/-- `ps2_port1_disable`. -/
def ps2Port1Disable : Driver State Unit :=
  ps2Command device 0xAD

/-- `ps2_port1_enable`. -/
def ps2Port1Enable : Driver State Unit :=
  ps2Command device 0xAE

/-- `ps2_port2_write`. -/
def ps2Port2Write (data : BitVec 8) : Driver State Unit := do
  ps2Command device 0xD4
  ps2Write device data

/-- `ps2_port2_disable`. -/
def ps2Port2Disable : Driver State Unit :=
  ps2Command device 0xA7

/-- `ps2_port2_enable`. -/
def ps2Port2Enable : Driver State Unit :=
  ps2Command device 0xA8

/-- The bits that `ps2_init` sets in the configuration byte. -/
def newConfig (config : BitVec 8) : BitVec 8 :=
  -- port1_interrupt, port2_interrupt, port1_translation
  ((config ||| 0x01#8) &&& ~~~0x02#8) &&& ~~~0x40#8

/-- The loop that writes a name to the memory of the controller. -/
def writeName (command : BitVec 8) : List (BitVec 8) → Driver State Unit
  | [] => pure ()
  | character :: rest => do
      ps2CommandArg device command character
      writeName (command + 1) rest

/-- The loop that resets the keyboard until it does not ask again. -/
def resetLoop : Nat → Driver State (BitVec 8)
  | 0 => givenUp
  | rounds + 1 => do
      ps2Port1Write device 0xFF
      let resp ← ps2DataRead device
      if resp = 0xFE then
        resetLoop rounds
      else
        pure resp

/-- What has been printed, and whether the handler has been registered. -/
structure Outcome where
  printed : List (List (BitVec 8))
  handlerSet : Bool
deriving DecidableEq

/-- `ps2_init`, with at most so many resets. -/
def ps2Init (rounds : Nat) : Driver State Outcome := do
  -- disable devices
  ps2Command device 0xAD
  ps2Command device 0xA7
  -- flush output buffer
  let _ ← inb device dataPort
  -- set config byte
  let config ← ps2CommandResp device 0x20
  ps2CommandArg device 0x60 (newConfig config)
  -- controller self-test
  let response ← ps2CommandResp device 0xAA
  if response ≠ 0x55 then
    pure ⟨[literal "ps2: controller self-test failed\n"], false⟩
  else
    writeName device 0x61 (literal "nuid64")
    -- enable devices
    ps2Command device 0xAE
    -- reset devices
    let resp ← resetLoop device rounds
    if resp ≠ 0xFA then
      pure ⟨[literal "ps2: failed to reset device at port 1"], true⟩
    else
      let resp ← ps2DataRead device
      if resp ≠ 0xAA then
        pure ⟨[literal "ps2: failed to reset device at port 1"], true⟩
      else
        pure ⟨[], true⟩

end

/-- A command with an argument is a command and a write. -/
theorem ps2CommandArg_eq {State : Type} (device : Device State)
    (command arg : BitVec 8) :
    ps2CommandArg device command arg =
      (ps2Command device command >>= fun _ => ps2Write device arg) := by
  rw [ps2Command, bind_assoc]
  rfl

/-- A command with a response is a command and a read. -/
theorem ps2CommandResp_eq {State : Type} (device : Device State)
    (command : BitVec 8) :
    ps2CommandResp device command =
      (ps2Command device command >>= fun _ => ps2DataRead device) := by
  rw [ps2Command, bind_assoc]
  rfl

/-! ## No write without a wait -/

/--
The log ends with a wait: one status after the other is read as long as there
is something to wait for, 65 of them at most.
-/
def PolledFor (waiting : BitVec 8 → Bool) (log : List Access) : Prop :=
  ∃ (earlier : List Access) (polls : List (BitVec 8)) (last : BitVec 8),
    log = earlier ++ polls.map (.read statusReg) ++
      [.read statusReg last] ∧
    (∀ s ∈ polls, waiting s = true) ∧
    (waiting last = false ∨ polls.length = 64)

/-- Every write follows on a wait for the input buffer. -/
def Patient : List Access → Prop :=
  EveryWrite (PolledFor inputFull)

/-- A wait in progress, with its counter and the last status. -/
def Polling (waiting : BitVec 8 → Bool) (timeout : Nat) (s : BitVec 8)
    (log : List Access) : Prop :=
  ∃ (earlier : List Access) (polls : List (BitVec 8)),
    log = earlier ++ polls.map (.read statusReg) ++ [.read statusReg s] ∧
    (∀ s ∈ polls, waiting s = true) ∧ polls.length + timeout = 64

/-- From a patient log, the program leaves a patient log. -/
def Keeps {State Result : Type} (program : Driver State Result) : Prop :=
  Meets Patient Patient program fun _ => Patient

section

variable {State Result Next : Type} {device : Device State}
  {waiting : BitVec 8 → Bool}

/-- One more status is read. -/
theorem Polling.next
    {timeout : Nat} {s : BitVec 8} {log : List Access}
    (polling : Polling waiting (timeout + 1) s log)
    (waits : waiting s = true) (next : BitVec 8) :
    Polling waiting timeout next (log ++ [.read statusReg next]) := by
  rcases polling with ⟨earlier, polls, rfl, still, counted⟩
  refine ⟨earlier, polls ++ [s], ?_, ?_, ?_⟩
  · rw [List.map_append, List.append_assoc earlier]
    rfl
  · intro poll member
    rcases List.mem_append.mp member with before | here
    · exact still poll before
    · rw [List.mem_singleton.mp here]
      exact waits
  · rw [List.length_append, List.length_singleton]
    omega

theorem pollLoop_meets (timeout : Nat) (s : BitVec 8) :
    Meets Patient (fun log => Patient log ∧ Polling waiting timeout s log)
      (pollLoop device waiting timeout s)
      (fun _ log => Patient log ∧ PolledFor waiting log) := by
  induction timeout generalizing s with
  | zero =>
      apply Meets.pure
      rintro log ⟨patient, earlier, polls, same, still, counted⟩
      exact ⟨patient, earlier, polls, s, same, still, Or.inr counted⟩
  | succ timeout inductionHypothesis =>
      rw [pollLoop]
      by_cases waits : waiting s = true
      · rw [if_pos waits]
        apply Meets.bind _ inductionHypothesis
        apply Meets.inb
        rintro log byte ⟨patient, polling⟩
        exact ⟨patient.read statusReg byte, polling.next waits byte⟩
      · rw [if_neg waits]
        apply Meets.pure
        rintro log ⟨patient, earlier, polls, same, still, -⟩
        have ready := Bool.eq_false_iff.mpr waits
        exact ⟨patient, earlier, polls, s, same, still, Or.inl ready⟩

/-- A wait ends with a wait, whatever it waits for. -/
theorem wait_meets :
    Meets Patient Patient (wait device waiting)
      (fun _ log => Patient log ∧ PolledFor waiting log) := by
  have first : Meets Patient Patient (inb device statusReg)
      (fun s log => Patient log ∧ Polling waiting 64 s log) := by
    apply Meets.inb
    intro log s patient
    refine ⟨patient.read statusReg s, log, [], ?_, nofun, rfl⟩
    rw [List.map_nil, List.append_nil]
  apply first.bind
  intro s
  apply (pollLoop_meets 64 s).bind
  exact fun _ => Meets.pure fun _ waited => waited

/-! ## Programs that keep a log patient -/

namespace Keeps

theorem pure (result : Result) :
    Keeps (Pure.pure result : Driver State Result) :=
  Meets.pure fun _ patient => patient

theorem givenUp : Keeps (givenUp : Driver State Result) :=
  Meets.givenUp fun _ patient => patient

theorem bind
    {first : Driver State Result} {next : Result → Driver State Next}
    (here : Keeps first) (later : ∀ result, Keeps (next result)) :
    Keeps (first >>= next) :=
  Meets.bind here later

theorem inb (port : BitVec 64) : Keeps (inb device port) :=
  Meets.inb device port fun _ byte patient => patient.read port byte

/-- A wait for the input buffer, and then a write. -/
theorem waitedWrite (port : BitVec 64) (byte : BitVec 8) :
    Keeps (waitInputBuf device >>= fun _ => outb device port byte) := by
  apply Meets.bind wait_meets
  intro _
  apply Meets.outb
  rintro log ⟨patient, polled⟩
  exact patient.write polled port byte

theorem ps2DataRead : Keeps (ps2DataRead device) := by
  apply Keeps.bind _ fun _ => Keeps.inb dataPort
  exact wait_meets.weaken (fun _ patient => patient)
    (fun _ _ waited => waited.1)

theorem ps2Write (data : BitVec 8) : Keeps (ps2Write device data) :=
  waitedWrite dataPort data

theorem ps2Command (command : BitVec 8) : Keeps (ps2Command device command) :=
  waitedWrite commandReg command

theorem ps2CommandArg (command arg : BitVec 8) :
    Keeps (ps2CommandArg device command arg) := by
  rw [ps2CommandArg_eq]
  exact bind (ps2Command command) fun _ => ps2Write arg

theorem ps2CommandResp (command : BitVec 8) :
    Keeps (ps2CommandResp device command) := by
  rw [ps2CommandResp_eq]
  exact bind (ps2Command command) fun _ => ps2DataRead

theorem ps2Port2Write (data : BitVec 8) : Keeps (ps2Port2Write device data) :=
  bind (ps2Command 0xD4) fun _ => ps2Write data

theorem writeName (command : BitVec 8) (name : List (BitVec 8)) :
    Keeps (writeName device command name) := by
  induction name generalizing command with
  | nil => exact pure ()
  | cons character rest inductionHypothesis =>
      apply bind (ps2CommandArg command character)
      exact fun _ => inductionHypothesis (command + 1)

theorem resetLoop (rounds : Nat) : Keeps (resetLoop device rounds) := by
  induction rounds with
  | zero => exact givenUp
  | succ rounds inductionHypothesis =>
      apply bind (ps2Write 0xFF)
      intro _
      apply bind ps2DataRead
      intro resp
      by_cases again : resp = 0xFE
      · rw [if_pos again]
        exact inductionHypothesis
      · rw [if_neg again]
        exact pure resp

theorem ps2Init (rounds : Nat) : Keeps (ps2Init device rounds) := by
  apply bind (ps2Command 0xAD)
  intro _
  apply bind (ps2Command 0xA7)
  intro _
  apply bind (inb dataPort)
  intro _
  apply bind (ps2CommandResp 0x20)
  intro config
  apply bind (ps2CommandArg 0x60 (newConfig config))
  intro _
  apply bind (ps2CommandResp 0xAA)
  intro response
  by_cases failed : response ≠ 0x55
  · rw [if_pos failed]
    exact pure _
  rw [if_neg failed]
  apply bind (writeName 0x61 (literal "nuid64"))
  intro _
  apply bind (ps2Command 0xAE)
  intro _
  apply bind (resetLoop rounds)
  intro resp
  by_cases refused : resp ≠ 0xFA
  · rw [if_pos refused]
    exact pure _
  rw [if_neg refused]
  apply bind ps2DataRead
  intro resp
  by_cases broken : resp ≠ 0xAA
  · rw [if_pos broken]
    exact pure _
  · rw [if_neg broken]
    exact pure _

end Keeps

/--
Whatever the controller answers, and however often the reset is repeated,
`ps2_init` writes no byte without a wait just before it.
-/
theorem ps2Init_patient (device : Device State) (rounds : Nat)
    (state : State) :
    EveryWrite (PolledFor inputFull)
      (ps2Init device rounds ⟨state, []⟩).2.log := by
  have keeps : Keeps (ps2Init device rounds) := Keeps.ps2Init rounds
  have kept := keeps ⟨state, []⟩ EveryWrite.nil
  cases run : ps2Init device rounds ⟨state, []⟩ with
  | mk outcome last =>
      rw [run] at kept
      cases outcome with
      | some outcome => exact kept
      | none => exact kept

/-! ## The conversation with the controller -/

/-- What passes over the ports apart from the polling. -/
def traffic : List Access → List Access :=
  withoutReads statusReg

section

variable {always : List Access → Prop} {before : List Access}

/-- Polling is no part of the conversation. -/
theorem pollLoop_traffic (timeout : Nat) (s : BitVec 8) :
    Meets always (fun log => traffic log = before)
      (pollLoop device waiting timeout s)
      (fun _ log => traffic log = before) := by
  induction timeout generalizing s with
  | zero => exact Meets.pure fun _ same => same
  | succ timeout inductionHypothesis =>
      rw [pollLoop]
      by_cases waits : waiting s = true
      · rw [if_pos waits]
        apply Meets.bind _ inductionHypothesis
        apply Meets.inb
        intro log byte same
        rw [traffic, withoutReads_read_self]
        exact same
      · rw [if_neg waits]
        exact Meets.pure fun _ same => same

theorem wait_traffic :
    Meets always (fun log => traffic log = before) (wait device waiting)
      (fun _ log => traffic log = before) := by
  have first : Meets always (fun log => traffic log = before)
      (inb device statusReg) (fun _ log => traffic log = before) := by
    apply Meets.inb
    intro log byte same
    rw [traffic, withoutReads_read_self]
    exact same
  apply first.bind
  intro s
  apply (pollLoop_traffic 64 s).bind
  exact fun _ => Meets.pure fun _ same => same

/-- A byte read from the data port. -/
theorem inb_traffic :
    Meets always (fun log => traffic log = before) (inb device dataPort)
      (fun byte log => traffic log = before ++ [.read dataPort byte]) := by
  apply Meets.inb
  intro log byte same
  rw [traffic, withoutReads_read log (by decide), ← same]
  rfl

/-- A wait and a write. -/
theorem waitedWrite_traffic (port : BitVec 64) (byte : BitVec 8) :
    Meets always (fun log => traffic log = before)
      (waitInputBuf device >>= fun _ => outb device port byte)
      (fun _ log => traffic log = before ++ [.write port byte]) := by
  apply wait_traffic.bind
  intro _
  apply Meets.outb
  intro log same
  rw [traffic, withoutReads_write, ← same]
  rfl

theorem ps2CommandArg_traffic (command arg : BitVec 8) :
    Meets always (fun log => traffic log = before)
      (ps2CommandArg device command arg)
      (fun _ log => traffic log =
        before ++ [.write commandReg command] ++ [.write dataPort arg]) := by
  rw [ps2CommandArg_eq]
  apply (waitedWrite_traffic commandReg command).bind
  exact fun _ => waitedWrite_traffic dataPort arg

theorem ps2DataRead_traffic :
    Meets always (fun log => traffic log = before) (ps2DataRead device)
      (fun byte log => traffic log = before ++ [.read dataPort byte]) :=
  wait_traffic.bind fun _ => inb_traffic

theorem ps2CommandResp_traffic (command : BitVec 8) :
    Meets always (fun log => traffic log = before)
      (ps2CommandResp device command)
      (fun byte log => traffic log =
        before ++ [.write commandReg command] ++ [.read dataPort byte]) := by
  rw [ps2CommandResp_eq]
  apply (waitedWrite_traffic commandReg command).bind
  exact fun _ => ps2DataRead_traffic

/-- The commands that write a name. -/
def nameWrites (command : BitVec 8) : List (BitVec 8) → List Access
  | [] => []
  | character :: rest =>
      .write commandReg command :: .write dataPort character ::
        nameWrites (command + 1) rest

theorem writeName_traffic (command : BitVec 8) (name : List (BitVec 8)) :
    Meets always (fun log => traffic log = before)
      (writeName device command name)
      (fun _ log => traffic log = before ++ nameWrites command name) := by
  induction name generalizing command before with
  | nil =>
      apply Meets.pure
      intro log same
      rw [same]
      exact (List.append_nil before).symm
  | cons character rest inductionHypothesis =>
      apply (ps2CommandArg_traffic command character).bind
      intro _
      apply (inductionHypothesis (command + 1)).weaken (fun _ same => same)
      intro _ log same
      rw [same, nameWrites, List.append_assoc, List.append_assoc]
      rfl

/-- A reset of the keyboard and its answer. -/
def reset (answer : BitVec 8) : List Access :=
  [.write dataPort 0xFF, .read dataPort answer]

/-- So many resets that the keyboard asks for again. -/
def asksAgain (tries : Nat) : List Access :=
  (List.replicate tries (reset 0xFE)).flatten

theorem asksAgain_succ (tries : Nat) :
    asksAgain (tries + 1) = asksAgain tries ++ reset 0xFE := by
  rw [asksAgain, asksAgain, List.replicate_succ', List.flatten_append,
    List.flatten_singleton]

/--
The loop ends at the first answer that does not ask again, and is given up when
every reset has been asked for again.
-/
theorem resetLoop_traffic (rounds tried : Nat) :
    Meets (fun log => traffic log = before ++ asksAgain (tried + rounds))
      (fun log => traffic log = before ++ asksAgain tried)
      (resetLoop device rounds)
      (fun answer log => answer ≠ 0xFE ∧ ∃ tries,
        traffic log = before ++ asksAgain tries ++ reset answer) := by
  induction rounds generalizing tried with
  | zero => exact Meets.givenUp fun _ same => same
  | succ rounds inductionHypothesis =>
      have asked := inductionHypothesis (tried + 1)
      rw [Nat.add_assoc, Nat.add_comm 1 rounds] at asked
      apply (waitedWrite_traffic dataPort 0xFF).bind
      intro _
      apply ps2DataRead_traffic.bind
      intro answer
      by_cases again : answer = 0xFE
      · rw [if_pos again]
        apply asked.weaken _ fun _ _ ends => ends
        intro log same
        rw [same, again, asksAgain_succ]
        simp only [reset, List.append_assoc]
        rfl
      · rw [if_neg again]
        apply Meets.pure
        intro log same
        refine ⟨again, tried, ?_⟩
        rw [same]
        simp only [reset, List.append_assoc]
        rfl

end

/-- What passes up to the answer to the self-test. -/
def untilTest (stale config response : BitVec 8) : List Access :=
  [.write commandReg 0xAD, .write commandReg 0xA7, .read dataPort stale,
    .write commandReg 0x20, .read dataPort config,
    .write commandReg 0x60, .write dataPort (newConfig config),
    .write commandReg 0xAA, .read dataPort response]

/-- What passes when the self-test is passed, up to the resets. -/
def untilReset (stale config : BitVec 8) : List Access :=
  untilTest stale config 0x55 ++ nameWrites 0x61 (literal "nuid64") ++
    [.write commandReg 0xAE]

/-- What `ps2_init` has done when it returns, by what it was answered. -/
inductive Conversation : Outcome → List Access → Prop
  | testFailed (stale config response : BitVec 8)
      (failed : response ≠ 0x55) :
      Conversation
        ⟨[literal "ps2: controller self-test failed\n"], false⟩
        (untilTest stale config response)
  | refused (stale config answer : BitVec 8) (tries : Nat)
      (again : answer ≠ 0xFE) (accepted : answer ≠ 0xFA) :
      Conversation
        ⟨[literal "ps2: failed to reset device at port 1"], true⟩
        (untilReset stale config ++ asksAgain tries ++ reset answer)
  | broken (stale config result : BitVec 8) (tries : Nat)
      (working : result ≠ 0xAA) :
      Conversation
        ⟨[literal "ps2: failed to reset device at port 1"], true⟩
        (untilReset stale config ++ asksAgain tries ++ reset 0xFA ++
          [.read dataPort result])
  | ready (stale config : BitVec 8) (tries : Nat) :
      Conversation ⟨[], true⟩
        (untilReset stale config ++ asksAgain tries ++ reset 0xFA ++
          [.read dataPort 0xAA])

/-- What `ps2_init` has done when every one of its resets is asked for again. -/
def AskedAgain (rounds : Nat) (log : List Access) : Prop :=
  ∃ stale config,
    traffic log = untilReset stale config ++ asksAgain rounds

/-- The resets, behind what leads up to them. -/
theorem resets_meets (stale config : BitVec 8) (rounds : Nat) :
    Meets (AskedAgain rounds)
      (fun log => traffic log = untilReset stale config)
      (resetLoop device rounds)
      (fun answer log => answer ≠ 0xFE ∧ ∃ tries, traffic log =
        untilReset stale config ++ asksAgain tries ++ reset answer) := by
  apply ((resetLoop_traffic rounds 0).relax _).weaken
  · intro log same
    rw [same]
    exact (List.append_nil _).symm
  · exact fun _ _ ends => ends
  · intro log stopped
    rw [Nat.zero_add] at stopped
    exact ⟨stale, config, stopped⟩

theorem ps2Init_meets (rounds : Nat) :
    Meets (AskedAgain rounds) (fun log => traffic log = [])
      (ps2Init device rounds)
      (fun outcome log => Conversation outcome (traffic log)) := by
  apply (waitedWrite_traffic commandReg 0xAD).bind
  intro _
  apply (waitedWrite_traffic commandReg 0xA7).bind
  intro _
  apply inb_traffic.bind
  intro stale
  apply (ps2CommandResp_traffic 0x20).bind
  intro config
  apply (ps2CommandArg_traffic 0x60 (newConfig config)).bind
  intro _
  apply (ps2CommandResp_traffic 0xAA).bind
  intro response
  by_cases failed : response ≠ 0x55
  · rw [if_pos failed]
    apply Meets.pure
    intro log same
    rw [same]
    exact .testFailed stale config response failed
  rw [if_neg failed]
  obtain rfl : response = 0x55 := not_not.mp failed
  apply (writeName_traffic 0x61 (literal "nuid64")).bind
  intro _
  apply (waitedWrite_traffic commandReg 0xAE).bind
  intro _
  apply (resets_meets stale config rounds).bind
  intro answer
  by_cases refused : answer ≠ 0xFA
  · rw [if_pos refused]
    apply Meets.pure
    rintro log ⟨again, tries, same⟩
    rw [same]
    exact .refused stale config answer tries again refused
  rw [if_neg refused]
  obtain rfl : answer = 0xFA := not_not.mp refused
  have read : Meets (AskedAgain rounds)
      (fun log => ∃ tries, traffic log =
        untilReset stale config ++ asksAgain tries ++ reset 0xFA)
      (ps2DataRead device)
      (fun result log => ∃ tries, traffic log =
        untilReset stale config ++ asksAgain tries ++ reset 0xFA ++
          [.read dataPort result]) :=
    Meets.choose fun _ => ps2DataRead_traffic
  apply (read.weaken (fun _ done => done.2) (fun _ _ ends => ends)).bind
  intro result
  by_cases broken : result ≠ 0xAA
  · rw [if_pos broken]
    apply Meets.pure
    rintro log ⟨tries, same⟩
    rw [same]
    exact .broken stale config result tries broken
  · rw [if_neg broken]
    obtain rfl : result = 0xAA := not_not.mp broken
    apply Meets.pure
    rintro log ⟨tries, same⟩
    rw [same]
    exact .ready stale config tries

/--
Whatever the controller answers, what passes over the ports is one of four
conversations, and the outcome goes with it: after any answer to the self-test
but 0x55 nothing is written; after 0x55 the name, the enabling of the port and
the resets follow, up to the first answer that does not ask again.  A keyboard
that always asks again gets nothing but resets.
-/
theorem ps2Init_converses (device : Device State) (rounds : Nat)
    (state : State) :
    match ps2Init device rounds ⟨state, []⟩ with
    | (some outcome, last) => Conversation outcome (traffic last.log)
    | (none, last) => AskedAgain rounds last.log := by
  have whole : Meets _ _ (ps2Init device rounds) _ := ps2Init_meets rounds
  have meets := whole ⟨state, []⟩ rfl
  cases run : ps2Init device rounds ⟨state, []⟩ with
  | mk outcome last =>
      rw [run] at meets
      cases outcome with
      | some outcome => exact meets
      | none => exact meets

/-! ## Waits as functions of the statuses -/

/-- The device after so many reads of the status. -/
def afterReads (device : Device State) (state : State) : Nat → State
  | 0 => state
  | reads + 1 => (device.read statusReg (afterReads device state reads)).2

/-- The statuses that the device returns, one after the other. -/
def statusStream (device : Device State) (state : State) : StatusStream :=
  fun i => (device.read statusReg (afterReads device state i)).1

/-- The accesses of so many reads. -/
def statusReads (status : StatusStream) (reads : Nat) : List Access :=
  (List.range reads).map fun i => .read statusReg (status i)

theorem statusReads_succ (status : StatusStream) (reads : Nat) :
    statusReads status (reads + 1) =
      statusReads status reads ++ [.read statusReg (status reads)] := by
  rw [statusReads, statusReads, List.range_succ, List.map_append]
  rfl

/-- The loop on the device is the loop on the stream of its statuses. -/
theorem pollLoop_eq
    (device : Device State) (waiting : BitVec 8 → Bool) (state : State)
    (log : List Access) (timeout read : Nat) :
    let status := statusStream device state
    let polled := Ps2Controller.pollLoop waiting status timeout (status read)
      (read + 1)
    pollLoop device waiting timeout (status read)
        ⟨afterReads device state (read + 1),
          log ++ statusReads status (read + 1)⟩ =
      (some polled.timeout, ⟨afterReads device state polled.reads,
        log ++ statusReads status polled.reads⟩) := by
  induction timeout generalizing read with
  | zero =>
      intro status polled
      have same : polled.reads = read + 1 ∧
          polled.timeout =
            if waiting (status read) then sub64 0 1 else 0 := by
        simp only [polled, Ps2Controller.pollLoop]
        split_ifs <;> exact ⟨rfl, rfl⟩
      rw [same.1, same.2]
      rfl
  | succ timeout inductionHypothesis =>
      intro status polled
      by_cases waits : waiting (status read) = true
      · have next := inductionHypothesis (read + 1)
        have goesOn : polled = Ps2Controller.pollLoop waiting status timeout
            (status (read + 1)) (read + 1 + 1) := by
          simp only [polled, Ps2Controller.pollLoop, if_pos waits]
        rw [goesOn, ← next, pollLoop, if_pos waits,
          statusReads_succ status (read + 1), ← List.append_assoc]
        rfl
      · have stops : polled = ⟨timeout + 1, status read, read + 1⟩ := by
          simp only [polled, Ps2Controller.pollLoop, if_neg waits]
        rw [stops, pollLoop, if_neg waits]
        rfl

/-- A wait on the device is a wait on the stream of its statuses. -/
theorem wait_eq (device : Device State) (waiting : BitVec 8 → Bool)
    (bus : Bus State) :
    let status := statusStream device bus.state
    let waited := Ps2Controller.wait waiting status
    wait device waiting bus =
      (some waited.result, ⟨afterReads device bus.state waited.reads,
        bus.log ++ statusReads status waited.reads⟩) := by
  intro status waited
  have polled := pollLoop_eq device waiting bus.state bus.log 64 0
  have whole : wait device waiting bus =
      (pollLoop device waiting 64 (status 0) >>= fun timeout =>
        pure (if timeout = 0 then 1 else 0))
        ⟨afterReads device bus.state (0 + 1),
          bus.log ++ statusReads status (0 + 1)⟩ := rfl
  rw [whole, bind_of_run polled]
  simp only [waited, Ps2Controller.wait]
  split_ifs <;> rfl

end

end Kernull.Ps2Init
