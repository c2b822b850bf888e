import Mathlib.Data.List.Basic

/-!
# Programs that use ports

A device behind ports of one byte answers reads and takes writes, and changes
at both.  A program over such a device leaves the accesses that it has made,
also where it is given up in a loop whose bound is used up.  Two kinds of rules
are given: for what holds of the accesses, whatever the device is, and for what
a program does to a device that is described by something simpler.
-/

namespace Kernull.Library.PortIo

/-! ## Devices and programs -/

/-- A device, by what it answers and how it changes. -/
structure Device (State : Type) where
  read : BitVec 64 → State → BitVec 8 × State
  write : BitVec 64 → BitVec 8 → State → State

/-- An access to a port, with the byte read or written. -/
inductive Access where
  | read (port : BitVec 64) (byte : BitVec 8)
  | write (port : BitVec 64) (byte : BitVec 8)
deriving DecidableEq, Repr

/-- The device and the accesses so far, in their order. -/
structure Bus (State : Type) where
  state : State
  log : List Access

/-- A program; without a result it has been given up. -/
def Driver (State Result : Type) : Type :=
  Bus State → Option Result × Bus State

variable {State Abstract Result Next : Type}

instance : Monad (Driver State) where
  pure result := fun bus => (some result, bus)
  bind first next := fun bus =>
    match first bus with
    | (some result, middle) => next result middle
    | (none, middle) => (none, middle)

/-- Nothing after a program. -/
theorem Driver.id_map (program : Driver State Result) :
    id <$> program = program := by
  funext bus
  change (match program bus with
    | (some result, middle) => (some result, middle)
    | (none, middle) => (none, middle)) = program bus
  rcases program bus with ⟨result, last⟩
  cases result <;> rfl

/-- Three programs, one after the other. -/
theorem Driver.bind_assoc {Final : Type}
    (program : Driver State Result) (next : Result → Driver State Next)
    (final : Next → Driver State Final) :
    program >>= next >>= final =
      program >>= fun result => next result >>= final := by
  funext bus
  change (match (match program bus with
      | (some result, middle) => next result middle
      | (none, middle) => (none, middle)) with
    | (some result, middle) => final result middle
    | (none, middle) => (none, middle)) =
    (match program bus with
    | (some result, middle) => (next result >>= final) middle
    | (none, middle) => (none, middle))
  rcases program bus with ⟨result, last⟩
  cases result <;> rfl

instance : LawfulMonad (Driver State) :=
  LawfulMonad.mk' (Driver State) Driver.id_map (fun _ _ => rfl)
    Driver.bind_assoc

/-- Read a byte from a port. -/
def inb (device : Device State) (port : BitVec 64) :
    Driver State (BitVec 8) := fun bus =>
  let answer := device.read port bus.state
  (some answer.1, ⟨answer.2, bus.log ++ [.read port answer.1]⟩)

/-- Write a byte to a port. -/
def outb (device : Device State) (port : BitVec 64) (byte : BitVec 8) :
    Driver State Unit := fun bus =>
  (some (), ⟨device.write port byte bus.state, bus.log ++ [.write port byte]⟩)

/-- The bound of a loop is used up. -/
def givenUp : Driver State Result := fun bus =>
  (none, bus)

/-- What a read gives, from what the device answers. -/
theorem inb_of_read
    {device : Device State} {port : BitVec 64} {bus : Bus State}
    {byte : BitVec 8} {after : State}
    (answers : device.read port bus.state = (byte, after)) :
    inb device port bus =
      (some byte, ⟨after, bus.log ++ [.read port byte]⟩) := by
  rw [inb, answers]

/-- A program that has a result, and what comes after it. -/
theorem bind_of_run
    {first : Driver State Result} {bus middle : Bus State} {result : Result}
    (runs : first bus = (some result, middle))
    (next : Result → Driver State Next) :
    (first >>= next) bus = next result middle := by
  change (match first bus with
    | (some result, middle) => next result middle
    | (none, middle) => (none, middle)) = next result middle
  rw [runs]

/-! ## What holds of the accesses -/

/--
From a log with `before`, a program ends with `after`; where it is given up,
`always` holds.
-/
def Meets (always before : List Access → Prop)
    (program : Driver State Result)
    (after : Result → List Access → Prop) : Prop :=
  ∀ bus, before bus.log →
    match program bus with
    | (some result, last) => after result last.log
    | (none, last) => always last.log

namespace Meets

variable {always before : List Access → Prop}
  {middle : Result → List Access → Prop} {after : Next → List Access → Prop}

theorem pure {result : Result} (ends : ∀ log, before log → middle result log) :
    Meets always before (Pure.pure result : Driver State Result) middle :=
  fun bus given => ends bus.log given

/-- One program after the other. -/
theorem bind
    {first : Driver State Result} {next : Result → Driver State Next}
    (here : Meets always before first middle)
    (later : ∀ result, Meets always (middle result) (next result) after) :
    Meets always before (first >>= next) after := by
  intro bus given
  have first_ := here bus given
  change (match (match first bus with
      | (some result, middle) => next result middle
      | (none, middle) => (none, middle)) with
    | (some result, last) => after result last.log
    | (none, last) => always last.log)
  cases outcome : first bus with
  | mk result last =>
      rw [outcome] at first_
      cases result with
      | some result => exact later result last first_
      | none => exact first_

theorem weaken
    {weaker : List Access → Prop} {stronger : Result → List Access → Prop}
    {program : Driver State Result}
    (meets : Meets always weaker program stronger)
    (start : ∀ log, before log → weaker log)
    (ends : ∀ result log, stronger result log → middle result log) :
    Meets always before program middle := by
  intro bus given
  have outcome := meets bus (start bus.log given)
  cases run : program bus with
  | mk result last =>
      rw [run] at outcome
      cases result with
      | some result => exact ends result last.log outcome
      | none => exact outcome

/-- What is left open before stays open after. -/
theorem choose
    {Choice : Type} {start : Choice → List Access → Prop}
    {ends : Choice → Result → List Access → Prop}
    {program : Driver State Result}
    (meets : ∀ choice, Meets always (start choice) program (ends choice)) :
    Meets always (fun log => ∃ choice, start choice log) program
      (fun result log => ∃ choice, ends choice result log) := by
  rintro bus ⟨choice, given⟩
  have outcome := meets choice bus given
  cases run : program bus with
  | mk result last =>
      rw [run] at outcome
      cases result with
      | some result => exact ⟨choice, outcome⟩
      | none => exact outcome

theorem relax
    {stricter : List Access → Prop} {program : Driver State Result}
    (meets : Meets stricter before program middle)
    (stops : ∀ log, stricter log → always log) :
    Meets always before program middle := by
  intro bus given
  have outcome := meets bus given
  cases run : program bus with
  | mk result last =>
      rw [run] at outcome
      cases result with
      | some result => exact outcome
      | none => exact stops last.log outcome

theorem inb (device : Device State) (port : BitVec 64)
    {middle : BitVec 8 → List Access → Prop}
    (read : ∀ log byte, before log → middle byte (log ++ [.read port byte])) :
    Meets always before (PortIo.inb device port) middle :=
  fun bus given => read bus.log _ given

theorem outb (device : Device State) (port : BitVec 64) (byte : BitVec 8)
    {middle : Unit → List Access → Prop}
    (written : ∀ log, before log → middle () (log ++ [.write port byte])) :
    Meets always before (PortIo.outb device port byte) middle :=
  fun bus given => written bus.log given

theorem givenUp (stopped : ∀ log, before log → always log) :
    Meets always before (PortIo.givenUp : Driver State Result) middle :=
  fun bus given => stopped bus.log given

end Meets

/-! ## What passes apart from polling -/

/-- The accesses that are no read of a port. -/
def withoutReads (port : BitVec 64) : List Access → List Access :=
  List.filter fun
    | .read source _ => source ≠ port
    | .write _ _ => true

@[simp]
theorem withoutReads_read_self (log : List Access) (port : BitVec 64)
    (byte : BitVec 8) :
    withoutReads port (log ++ [.read port byte]) = withoutReads port log := by
  simp [withoutReads]

theorem withoutReads_read (log : List Access) {port other : BitVec 64}
    (apart : other ≠ port) (byte : BitVec 8) :
    withoutReads port (log ++ [.read other byte]) =
      withoutReads port log ++ [.read other byte] := by
  simp [withoutReads, apart]

@[simp]
theorem withoutReads_write (log : List Access) (port other : BitVec 64)
    (byte : BitVec 8) :
    withoutReads port (log ++ [.write other byte]) =
      withoutReads port log ++ [.write other byte] := by
  simp [withoutReads]

/-! ## What was accessed before a write -/

/-- Whenever a byte was written, the accesses before it were `allowed`. -/
def EveryWrite (allowed : List Access → Prop) (log : List Access) : Prop :=
  ∀ earlier port byte later, log = earlier ++ .write port byte :: later →
    allowed earlier

namespace EveryWrite

variable {allowed : List Access → Prop} {log : List Access}

theorem nil : EveryWrite allowed [] := by
  intro earlier port byte later same
  have length := congrArg List.length same
  simp at length

/-- The last access has to be allowed if it is a write. -/
theorem append
    (sofar : EveryWrite allowed log) {access : Access}
    (last : ∀ port byte, access = .write port byte → allowed log) :
    EveryWrite allowed (log ++ [access]) := by
  intro earlier port byte later same
  rcases List.eq_nil_or_concat later with rfl | ⟨rest, final, rfl⟩
  · rcases List.append_inj' same rfl with ⟨rfl, here⟩
    exact last port byte (List.cons.inj here).1
  · rw [List.concat_eq_append, ← List.cons_append,
      ← List.append_assoc] at same
    rcases List.append_inj' same rfl with ⟨before, -⟩
    exact sofar earlier port byte rest before

theorem read (sofar : EveryWrite allowed log) (port : BitVec 64)
    (byte : BitVec 8) : EveryWrite allowed (log ++ [.read port byte]) :=
  sofar.append fun _ _ same => nomatch same

theorem write (sofar : EveryWrite allowed log) (here : allowed log)
    (port : BitVec 64) (byte : BitVec 8) :
    EveryWrite allowed (log ++ [.write port byte]) :=
  sofar.append fun _ _ _ => here

end EveryWrite

/-! ## Devices described by something simpler -/

/--
On every device that is described by `initial`, the program has this result and
leaves a device that is described by `final`.
-/
def Does (describes : State → Abstract → Prop)
    (program : Driver State Result) (initial : Abstract) (result : Result)
    (final : Abstract) : Prop :=
  ∀ bus, describes bus.state initial →
    ∃ last, program bus = (some result, last) ∧ describes last.state final

namespace Does

variable {describes : State → Abstract → Prop}
  {initial middle final : Abstract}

theorem pure (result : Result) :
    Does describes (Pure.pure result : Driver State Result) initial result
      initial :=
  fun bus described => ⟨bus, rfl, described⟩

/-- One program after the other. -/
theorem bind
    {first : Driver State Result} {next : Result → Driver State Next}
    {result : Result} {answer : Next}
    (here : Does describes first initial result middle)
    (later : Does describes (next result) middle answer final) :
    Does describes (first >>= next) initial answer final := by
  intro bus described
  rcases here bus described with ⟨between, runs, reached⟩
  rcases later between reached with ⟨last, ends, arrived⟩
  exact ⟨last, (bind_of_run runs next).trans ends, arrived⟩

end Does

end Kernull.Library.PortIo
