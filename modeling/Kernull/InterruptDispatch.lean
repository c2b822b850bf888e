import Kernull.DescriptorTables
import Kernull.InterruptEntry
import Kernull.Pic

/-!
# Dispatching interrupts

`irq_set_handler`, `isr_handler` and `irq_handler` of `arch/x86_64/idt.c`, and
the way from an interrupt through the gate and the wrapper to them and back.
For code that keeps nothing below its stack pointer an interrupt at any
instruction is one call of the function registered for it: the interrupted code
goes on in its own state, with what the handler did to the kernel.
-/

namespace Kernull.InterruptDispatch

open Kernull.DescriptorTables
open Kernull.IdtGates
open Kernull.InterruptEntry
open Kernull.Library.ByteMemory
open Kernull.Library.InterruptController
open Kernull.Library.LabelledRun
open Kernull.Library.WordStack
open Kernull.Pic (irqAck timerLine)

variable {World : Type}

/-! ## The table of handlers -/

/--
`int_handler`.  The handlers of the kernel read `*r` and do not write to it;
`none` is a handler that aborts.
-/
abbrev IntHandler (World : Type) := Regs → World → Option World

/-- The table of handlers, the interrupt controllers and everything else. -/
structure Kernel (World : Type) where
  irqHandlers : BitVec 64 → Option (IntHandler World)
  cascade : Cascade
  world : World

/-- `irq_set_handler`. -/
def irqSetHandler (kernel : Kernel World) (irq : BitVec 8)
    (handler : IntHandler World) : Kernel World :=
  { kernel with
    irqHandlers :=
      Function.update kernel.irqHandlers (irq.setWidth 64) (some handler) }

/-- Call the handler in the table, if there is one. -/
def callHandler (r : Regs) (kernel : Kernel World) :
    Option (Kernel World) :=
  match kernel.irqHandlers r.intNo with
  | some handler =>
      (handler r kernel.world).map fun world => { kernel with world }
  | none => some kernel

/-- `isr_handler`. -/
def isrHandler (r : Regs) (kernel : Kernel World) : Option (Kernel World) :=
  callHandler r kernel

/-- `irq_handler`. -/
def irqHandler (r : Regs) (kernel : Kernel World) : Option (Kernel World) :=
  (callHandler r kernel).map fun kernel =>
    { kernel with
      cascade := irqAck kernel.cascade ((r.intNo - 32).setWidth 8) }

/-- The functions that the wrappers call. -/
def call : CFunction → Regs → Kernel World → Option (Kernel World)
  | .isrHandler => isrHandler
  | .irqHandler => irqHandler

/--
The two functions as they are compiled: they do what they do to the kernel,
return their argument and use only the stack below the pointer they are called
with.
-/
structure Compiled
    (callee : CFunction → Cpu (Kernel World) → Cpu (Kernel World)) :
    Prop where
  returns : ∀ function, ReturnsRegs (callee function)
  world : ∀ function cpu after,
    call function (regsAt cpu.memory (cpu.registers .rdi).toNat) cpu.world =
        some after →
      (callee function cpu).world = after
  above : ∀ function cpu a, cpu.rsp.toNat ≤ a →
    (callee function cpu).memory a = cpu.memory a

/-! ## One interrupt -/

/-- The structure depends only on the bytes from its address on. -/
theorem regsAt_congr
    {left right : Memory} {address : Nat}
    (agree : ∀ a, address ≤ a → right a = left a) :
    regsAt right address = regsAt left address :=
  regsAt_of_wordsAt
    ((wordsAt_regsAt left address).congr fun a above _ => agree a above)

theorem alignedRsp_le (rsp : BitVec 64) :
    (alignedRsp rsp).toNat ≤ rsp.toNat := by
  rw [alignedRsp_toNat]
  exact Nat.div_mul_le_self _ _

/-- What a compiled function leaves behind, given the structure on the stack. -/
theorem Compiled.leaves
    {callee : CFunction → Cpu (Kernel World) → Cpu (Kernel World)}
    (compiled : Compiled callee) {before called : Cpu (Kernel World)}
    {function : CFunction} {address : Nat} {regs : Regs}
    (calls : Called before called address regs)
    (below : address ≤ (alignedRsp before.rsp).toNat)
    {after : Kernel World}
    (handled : call function regs before.world = some after) :
    regsAt (callee function called).memory address = regs ∧
      (callee function called).world = after ∧
      ∀ a, before.rsp.toNat ≤ a →
        (callee function called).memory a = before.memory a := by
  have given : regsAt called.memory (called.registers .rdi).toNat = regs := by
    rw [calls.rdi, calls.rsp, calls.regs]
  have stack (a : Nat) (above : address ≤ a) :
      (callee function called).memory a = called.memory a := by
    apply compiled.above
    rw [calls.rsp]
    exact above
  refine ⟨?_, ?_, ?_⟩
  · rw [regsAt_congr stack, calls.regs]
  · exact compiled.world _ _ after (by rw [given, calls.world, handled])
  · intro a above
    have aligned := alignedRsp_le before.rsp
    rw [stack a (by omega)]
    exact calls.rest a (Or.inr (by omega))

/--
An interrupt is a call of the function for its vector with the interrupted
state; nothing else of the interrupted state changes, and no memory from the
stack pointer on.
-/
theorem execAll_wrapper
    {callee : CFunction → Cpu (Kernel World) → Cpu (Kernel World)}
    (compiled : Compiled callee) (gate : Gate) (cpu : Cpu (Kernel World))
    {vector : Nat} {error : Option (BitVec 64)}
    (matching : Matching vector error)
    (room : Regs.size + 16 ≤ cpu.rsp.toNat) {after : Kernel World}
    (handled : call (functionOf vector)
      (interruptedRegs cpu vector (error.getD 0)) cpu.world = some after) :
    ∃ memory,
      execAll callee (deliver gate error cpu)
          ([.cli] ++ (stubBytes vector).map .pushByte ++
            common (functionOf vector)) =
        { cpu with memory := memory, world := after } ∧
      ∀ a, cpu.rsp.toNat ≤ a → memory a = cpu.memory a := by
  obtain ⟨called, passed⟩ :=
    execAll_wrapper_eq callee compiled.returns gate cpu matching room
  have below : frameAddress cpu.rsp ≤ (alignedRsp cpu.rsp).toNat :=
    Nat.sub_le _ _
  obtain ⟨kept, world, unchanged⟩ := compiled.leaves called below handled
  rw [passed, afterInterrupt_of_kept kept, world]
  exact ⟨_, rfl, unchanged⟩

/--
An exception with an error code that its wrapper does not take calls the
function with the displaced structure, and `iretq` returns to the error code.
-/
theorem execAll_wrapper_of_displaced
    {callee : CFunction → Cpu (Kernel World) → Cpu (Kernel World)}
    (compiled : Compiled callee) (gate : Gate) (cpu : Cpu (Kernel World))
    {vector : Nat} {code : BitVec 64} (displaced : vector ∈ displacedVectors)
    (room : Regs.size + 16 ≤ cpu.rsp.toNat) {after : Kernel World}
    (handled : call (functionOf vector) (displacedRegs cpu vector code)
      cpu.world = some after) :
    ∃ memory,
      execAll callee (deliver gate (some code) cpu)
          ([.cli] ++ (stubBytes vector).map .pushByte ++
            common (functionOf vector)) =
        { displacedReturn cpu code with memory := memory, world := after } := by
  obtain ⟨called, passed⟩ :=
    execAll_wrapper_displaced callee compiled.returns gate cpu code displaced
      room
  have below : frameAddress cpu.rsp - 8 ≤ (alignedRsp cpu.rsp).toNat :=
    Nat.le_trans (Nat.sub_le _ _) (Nat.sub_le _ _)
  obtain ⟨kept, world, _⟩ := compiled.leaves called below handled
  rw [passed, afterInterrupt_of_displaced kept, world]
  exact ⟨_, rfl⟩

/-! ## Interrupts during the main program -/

/--
What runs on the processor: the tables, the code behind the gates, the compiled
functions, the main program as its instructions, and the addresses and
selectors of code and stack that `iretq` accepts.
-/
structure Platform (World : Type) where
  tables : Memory
  idtr : TableRegister
  codeAt : BitVec 64 → Option (List Instruction)
  callee : CFunction → Cpu (Kernel World) → Cpu (Kernel World)
  mainStep : Cpu (Kernel World) → Option (Cpu (Kernel World))
  accepts : BitVec 64 → BitVec 16 → BitVec 16 → Bool

/--
An instruction of the main program, something that devices do, an exception of
the processor, or a request that the controllers pass on.
-/
inductive Event (World : Type) where
  | main
  | device (change : Kernel World → Kernel World)
  | exception (vector : Nat) (error : Option (BitVec 64))
  | irq

namespace Platform

variable (platform : Platform World)

/-- The state can be returned to. -/
def Accepts (cpu : Cpu (Kernel World)) : Prop :=
  platform.accepts cpu.rip cpu.cs cpu.ss = true

instance (cpu : Cpu (Kernel World)) : Decidable (platform.Accepts cpu) :=
  inferInstanceAs (Decidable (_ = true))

/-- The state behind `iretq`; `none` is an exception that it raises itself. -/
def returnTo (cpu : Cpu (Kernel World)) : Option (Cpu (Kernel World)) :=
  if platform.Accepts cpu then some cpu else none

/-- Enter the wrapper behind the gate of a vector and run it to its end. -/
def enterWrapper (cpu : Cpu (Kernel World)) (vector : Nat)
    (error : Option (BitVec 64)) : Option (Cpu (Kernel World)) :=
  match gateThrough platform.tables platform.idtr (BitVec.ofNat 8 vector) with
  | some gate =>
      if gate.present then
        (platform.codeAt gate.offset).bind fun code =>
          platform.returnTo
            (execAll platform.callee (deliver gate error cpu) code)
      else
        none
  | none => none

/-- The controllers give the vector of a request. -/
def acknowledged (cpu : Cpu (Kernel World)) : Cpu (Kernel World) :=
  { cpu with
    world := { cpu.world with cascade := cpu.world.cascade.acknowledge.1 } }

/-- One event, with the way in which an interrupt is taken. -/
def stepWith
    (enter : Cpu (Kernel World) → Nat → Option (BitVec 64) →
      Option (Cpu (Kernel World)))
    (cpu : Cpu (Kernel World)) : Event World → Option (Cpu (Kernel World))
  | .main => platform.mainStep cpu
  | .device change => some { cpu with world := change cpu.world }
  | .exception vector error => enter cpu vector error
  | .irq =>
      if cpu.interruptsEnabled then
        enter (acknowledged cpu) cpu.world.cascade.acknowledge.2.toNat none
      else
        none

/-- One event on the processor. -/
def machineStep :
    Cpu (Kernel World) → Event World → Option (Cpu (Kernel World)) :=
  platform.stepWith platform.enterWrapper

/-- An interrupt as a call of a function. -/
def enterHandler (cpu : Cpu (Kernel World)) (vector : Nat)
    (error : Option (BitVec 64)) : Option (Cpu (Kernel World)) :=
  (call (functionOf vector) (interruptedRegs cpu vector (error.getD 0))
    cpu.world).map fun world => { cpu with world }

/-- One event, where an interrupt is a call of a function. -/
def handlerStep :
    Cpu (Kernel World) → Event World → Option (Cpu (Kernel World)) :=
  platform.stepWith enterHandler

/-- The gate of every vector with a wrapper leads to the code of it. -/
def Routed : Prop :=
  ∀ vector, vector < 48 → ∃ gate,
    gateThrough platform.tables platform.idtr (BitVec.ofNat 8 vector) =
      some gate ∧
    gate.present = true ∧ platform.codeAt gate.offset = wrappers[vector]?

end Platform

/--
Two states that differ in memory at most, and not where the main program keeps
something.
-/
structure Agrees (live : Cpu (Kernel World) → Nat → Prop)
    (one other : Cpu (Kernel World)) : Prop where
  same : one = { other with memory := one.memory }
  memory : ∀ a, live other a → one.memory a = other.memory a

/--
The main program keeps something only from its stack pointer on, and depends
only on what it keeps.
-/
structure NoRedZone
    (mainStep : Cpu (Kernel World) → Option (Cpu (Kernel World)))
    (live : Cpu (Kernel World) → Nat → Prop) : Prop where
  above : ∀ cpu a, live cpu a → cpu.rsp.toNat ≤ a
  world : ∀ cpu world a, live { cpu with world } a → live cpu a
  main : ∀ one other next, Agrees live one other →
    mainStep other = some next →
      ∃ oneNext, mainStep one = some oneNext ∧ Agrees live oneNext next

/--
The stack has room for an interrupt that a wrapper is made for, and the
processor accepts the state it is in.
-/
structure Takeable (platform : Platform World) (cpu : Cpu (Kernel World))
    (vector : Nat) (error : Option (BitVec 64)) : Prop where
  matching : Matching vector error
  room : Regs.size + 16 ≤ cpu.rsp.toNat
  accepts : platform.Accepts cpu

/-- What the events need of the state they happen in. -/
def Deliverable (platform : Platform World) (cpu : Cpu (Kernel World)) :
    Event World → Prop
  | .main | .device _ => True
  | .exception vector error => Takeable platform cpu vector error
  | .irq =>
      Takeable platform cpu cpu.world.cascade.acknowledge.2.toNat none

section

variable
  {platform : Platform World} {live : Cpu (Kernel World) → Nat → Prop}

theorem Agrees.withWorld
    {mainStep : Cpu (Kernel World) → Option (Cpu (Kernel World))}
    (noRedZone : NoRedZone mainStep live)
    {one other : Cpu (Kernel World)} (agrees : Agrees live one other)
    (world : Kernel World) :
    Agrees live { one with world } { other with world } where
  same := by
    rw [agrees.same]
  memory a kept := agrees.memory a (noRedZone.world other world a kept)

/-- Taking an interrupt is calling the function for it. -/
theorem enterWrapper_followed
    (routed : platform.Routed) (compiled : Compiled platform.callee)
    (noRedZone : NoRedZone platform.mainStep live)
    {one other next : Cpu (Kernel World)} (agrees : Agrees live one other)
    {vector : Nat} {error : Option (BitVec 64)}
    (takeable : Takeable platform other vector error)
    (handled : Platform.enterHandler other vector error = some next) :
    ∃ oneNext, platform.enterWrapper one vector error = some oneNext ∧
      Agrees live oneNext next := by
  obtain ⟨memory, rfl⟩ : ∃ memory, one = { other with memory } :=
    ⟨one.memory, agrees.same⟩
  obtain ⟨after, called, rfl⟩ := Option.map_eq_some_iff.mp handled
  obtain ⟨gate, found, present, code⟩ :=
    routed vector takeable.matching.handled
  obtain ⟨memoryAfter, executed, unchanged⟩ :=
    execAll_wrapper compiled gate { other with memory } takeable.matching
      takeable.room called
  refine ⟨{ other with memory := memoryAfter, world := after }, ?_, ?_⟩
  · rw [Platform.enterWrapper, found]
    simp only [present, if_true, code,
      wrappers_lookup takeable.matching.handled, Option.bind_some, executed]
    exact if_pos takeable.accepts
  · constructor
    · rfl
    · intro a kept
      have keptBefore := noRedZone.world other after a kept
      exact (unchanged a (noRedZone.above other a keptBefore)).trans
        (agrees.memory a keptBefore)

/--
An exception whose wrapper does not take its error code is no call of a
function: `iretq` is to go on at the error code, with the interrupted address
as the selector of its code.
-/
theorem machineStep_of_displaced
    (routed : platform.Routed) (compiled : Compiled platform.callee)
    {one other : Cpu (Kernel World)} (agrees : Agrees live one other)
    {vector : Nat} {code : BitVec 64} (displaced : vector ∈ displacedVectors)
    (room : Regs.size + 16 ≤ other.rsp.toNat) {after : Kernel World}
    (handled : call (functionOf vector) (displacedRegs other vector code)
      other.world = some after) :
    ∃ memory,
      platform.machineStep one (.exception vector (some code)) =
        platform.returnTo { displacedReturn other code with
          memory := memory
          world := after } := by
  obtain ⟨before, rfl⟩ : ∃ before, one = { other with memory := before } :=
    ⟨one.memory, agrees.same⟩
  have numbered : vector < 48 := (displacedVectors_numbers displaced).1
  obtain ⟨gate, found, present, wrapper⟩ := routed vector numbered
  obtain ⟨memory, executed⟩ :=
    execAll_wrapper_of_displaced compiled gate { other with memory := before }
      displaced room handled
  refine ⟨memory, ?_⟩
  show platform.enterWrapper _ vector (some code) = _
  rw [Platform.enterWrapper, found]
  simp only [present, if_true, wrapper, wrappers_lookup numbered,
    Option.bind_some, executed]
  rfl

/-- The processor follows each event. -/
theorem machineStep_followed
    (routed : platform.Routed) (compiled : Compiled platform.callee)
    (noRedZone : NoRedZone platform.mainStep live)
    (one other : Cpu (Kernel World)) (event : Event World)
    (next : Cpu (Kernel World)) (agrees : Agrees live one other)
    (deliverable : Deliverable platform other event)
    (stepped : platform.handlerStep other event = some next) :
    ∃ oneNext, platform.machineStep one event = some oneNext ∧
      Agrees live oneNext next := by
  cases event with
  | main => exact noRedZone.main one other next agrees stepped
  | device change =>
      obtain rfl := Option.some.inj stepped
      have sameWorld : one.world = other.world := by
        rw [agrees.same]
      refine ⟨{ one with world := change one.world }, rfl, ?_⟩
      rw [sameWorld]
      exact agrees.withWorld noRedZone (change other.world)
  | exception vector error =>
      exact enterWrapper_followed routed compiled noRedZone agrees deliverable
        stepped
  | irq =>
      have sameWorld : one.world = other.world := by
        rw [agrees.same]
      have sameFlag : one.interruptsEnabled = other.interruptsEnabled := by
        rw [agrees.same]
        rfl
      simp only [Platform.handlerStep, Platform.machineStep,
        Platform.stepWith, sameFlag, sameWorld] at stepped ⊢
      by_cases enabled : other.interruptsEnabled
      · rw [if_pos enabled] at stepped ⊢
        have acknowledged : Agrees live (Platform.acknowledged one)
            (Platform.acknowledged other) := by
          rw [Platform.acknowledged, sameWorld]
          exact agrees.withWorld noRedZone _
        exact enterWrapper_followed routed compiled noRedZone acknowledged
          ⟨deliverable.matching, deliverable.room, deliverable.accepts⟩
          stepped
      · rw [if_neg enabled] at stepped
        exact absurd stepped (Option.some_ne_none next).symm

end

/-- The tables are those of `idt_init`, and the wrappers are where they say. -/
structure IdtInitialised (platform : Platform World) (memory : Memory)
    (idt idtr gdtAddress : Nat) (addresses : Wrappers) : Prop where
  layout : TableLayout memory idt idtr gdtAddress
  tables : platform.tables = idtInit addresses idt idtr memory
  idtr : platform.idtr = loadTableRegister platform.tables idtr
  code : ∀ vector (inside : vector < addresses.inOrder.length),
    platform.codeAt addresses.inOrder[vector] = wrappers[vector]?

/-- After `idt_init` the gates lead to the wrappers. -/
theorem IdtInitialised.routed
    {platform : Platform World} {memory : Memory}
    {idt idtr gdtAddress : Nat} {addresses : Wrappers}
    (initialised :
      IdtInitialised platform memory idt idtr gdtAddress addresses) :
    platform.Routed := by
  intro vector handled
  have number : (BitVec.ofNat 8 vector).toNat = vector := by
    rw [BitVec.toNat_ofNat]
    omega
  have inside : (BitVec.ofNat 8 vector).toNat < addresses.inOrder.length := by
    rw [length_inOrder, number]
    exact handled
  have found := initialised.layout.gateThrough_handled addresses inside
  have code := initialised.code (BitVec.ofNat 8 vector).toNat inside
  rw [← initialised.tables, ← initialised.idtr] at found
  exact ⟨_, found, rfl, code.trans (congrArg (wrappers[·]?) number)⟩

/-- The functions, compiled to nothing but their effect. -/
def plainFunctions (function : CFunction) (cpu : Cpu (Kernel World)) :
    Cpu (Kernel World) :=
  { returnArgument cpu with
    world :=
      (call function (regsAt cpu.memory (cpu.registers .rdi).toNat)
        cpu.world).getD cpu.world }

theorem compiled_plainFunctions :
    Compiled (plainFunctions :
      CFunction → Cpu (Kernel World) → Cpu (Kernel World)) where
  returns _ :=
    ⟨returnsRegs_returnArgument.rax, fun _ => rfl, fun _ => rfl⟩
  world _ _ _ handled := by
    rw [plainFunctions, handled]
    rfl
  above _ _ _ _ := rfl

/-- The endless loop at the end of `kmain`, behind wrappers in a row. -/
def loopingPlatform : Platform Nat where
  tables := idtInit wrappersInRow 0x1000 0x3000 gdtMemory
  idtr :=
    loadTableRegister (idtInit wrappersInRow 0x1000 0x3000 gdtMemory) 0x3000
  codeAt base := wrappers[(base.toNat - 0x100000) / 16]?
  callee := plainFunctions
  mainStep := some
  accepts _ cs ss := cs == 0x08 && ss == 0x10

/-- The loop with a handler that counts the interrupts of the timer. -/
def loopingCpu : Cpu (Kernel Nat) where
  toMachine := quietCpu.toMachine
  rip := 0x100400
  cs := 0x08
  rflags := 0x202
  ss := 0x10
  gsBase := 0
  kernelGsBase := 0
  world :=
    irqSetHandler
      { irqHandlers := fun _ => none
        cascade := Pic.picRemap ⟨Pic.resetChip, Pic.resetChip⟩
        world := 0 }
      0x20 fun _ count => some (count + 1)

/-- The loop is entered by the timer. -/
def timerDuringLoop : List (Event Nat) :=
  [.main,
    .device fun kernel =>
      { kernel with cascade := kernel.cascade.raise timerLine },
    .main, .irq, .main]

theorem idtInitialised_loopingPlatform :
    IdtInitialised loopingPlatform gdtMemory 0x1000 0x3000 0x4000
      wrappersInRow where
  layout := gdtMemory_layout
  tables := rfl
  idtr := rfl
  code vector inside := by
    rw [length_inOrder] at inside
    revert vector
    decide

theorem noRedZone_loopingPlatform :
    NoRedZone loopingPlatform.mainStep fun cpu a => cpu.rsp.toNat ≤ a where
  above _ _ kept := kept
  world _ _ _ kept := kept
  main one _ _ agrees stepped :=
    ⟨one, rfl, Option.some.inj stepped ▸ agrees⟩

end Kernull.InterruptDispatch
