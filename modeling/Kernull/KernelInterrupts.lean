import Kernull.InterruptDispatch
import Kernull.Ps2Controller
import Kernull.Ps2Interleaving

/-!
# The kernel behind `sti`

The handlers that `mmu_init`, `pit_init` and `ps2_init` register, the interrupt
controllers, and the keyboard commands of `kmain`, with devices that request
interrupts at any time.  Put together they are no more than the set of lines
with a request next to the keyboard driver: the driver sees an interrupt exactly
when the line of the keyboard is the most urgent and the controller has a byte,
and no interrupt is lost or held up by another.  The runs are those in which
the driver stores the bytes it decodes inside `scan_code_buf`; behind the
buffer a store can reach anything.
-/

namespace Kernull.KernelInterrupts

open Kernull.InterruptDispatch
open Kernull.InterruptEntry
open Kernull.Library.InterruptController
open Kernull.Library.LabelledRun
open Kernull.Pic (HasDevice picRemap timerLine vectorOf Remapped)
open Kernull.Ps2CommandQueue
open Kernull.Ps2Controller
open Kernull.Ps2Interleaving

/-! ## The handlers -/

/-- What the ports of the keyboard controller return during an interrupt. -/
structure Ports where
  status : BitVec 8
  data : BitVec 8
  answer : BitVec 8

/-- The keyboard driver with the call in progress, and the ports. -/
structure KernelWorld where
  system : System
  ports : Ports

/-- `KBD_IRQ`. -/
def kbdIrq : BitVec 8 := 0x21

/-- `TIMER_IRQ`. -/
def timerIrq : BitVec 8 := 0x20

/-- `kbd_int_handler`. -/
def kbdIntHandler (build : Build) : IntHandler KernelWorld := fun _ world =>
  if outputFull world.ports.status then
    (world.system.driver.keyboardHandler build world.ports.data
        world.ports.answer).map fun driver =>
      { world with system := { world.system with driver } }
  else
    some world

/-- `pit_interrupt`. -/
def pitInterrupt : IntHandler KernelWorld := fun _ world =>
  some world

/-- `page_fault_handler` ends with `abort`. -/
def pageFaultHandler : IntHandler KernelWorld := fun _ _ =>
  none

/-- What `idt_init`, `mmu_init`, `pit_init` and `ps2_init` leave. -/
def booted (build : Build) (cascade : Cascade) (ports : Ports) :
    Kernel KernelWorld :=
  let kernel : Kernel KernelWorld :=
    { irqHandlers := fun _ => none
      cascade := picRemap cascade
      world := { system := initialSystem, ports := ports } }
  let kernel := irqSetHandler kernel 0x0E pageFaultHandler
  let kernel := irqSetHandler kernel timerIrq pitInterrupt
  irqSetHandler kernel kbdIrq (kbdIntHandler build)

/-! ## Steps of the kernel -/

/--
A device requests an interrupt or takes the request back; the processor takes
an interrupt, with the state that it interrupts and what the ports return; or
the main program calls `ps2_kbd_command_arg` or goes on in it.
-/
inductive Event where
  | raise (line : Line)
  | withdraw (line : Line)
  | irq (r : Regs) (ports : Ports)
  | irqGone (r : Regs) (ports : Ports)
  | call (command arg : BitVec 8)
  | statement

/-- An interrupt with its vector, from the acknowledgement to `irq_ack`. -/
def takeIrq (kernel : Kernel KernelWorld)
    (acknowledged : Cascade × BitVec 8) (r : Regs) (ports : Ports) :
    Option (Kernel KernelWorld) :=
  InterruptDispatch.call (functionOf acknowledged.2.toNat)
    { r with intNo := acknowledged.2.setWidth 64 }
    { kernel with
      cascade := acknowledged.1
      world := { kernel.world with ports } }

/-- A step of the main program. -/
def mainStep (build : Build) (kernel : Kernel KernelWorld)
    (event : Ps2Interleaving.Event) : Option (Kernel KernelWorld) :=
  (interleavedStep build kernel.world.system event).map fun system =>
    { kernel with world := { kernel.world with system } }

/-- One event. -/
def kernelStep (build : Build) (kernel : Kernel KernelWorld) :
    Event → Option (Kernel KernelWorld)
  | .raise line =>
      if HasDevice line then
        some { kernel with cascade := kernel.cascade.raise line }
      else
        none
  | .withdraw line =>
      if HasDevice line then
        some { kernel with cascade := kernel.cascade.withdraw line }
      else
        none
  | .irq r ports => takeIrq kernel kernel.cascade.acknowledge r ports
  | .irqGone r ports => takeIrq kernel kernel.cascade.acknowledgeGone r ports
  | .call command arg => mainStep build kernel (.call command arg)
  | .statement => mainStep build kernel .statement

/-! ## The kernel from outside -/

/-- The line of the keyboard. -/
def keyboardLine : Line := .primary ⟨1, by decide⟩

/-- The lines with a request, and the keyboard driver. -/
structure Overview where
  pending : Line → Bool
  system : System

/-- The lines without the one that is dispatched. -/
def withoutNext (pending : Line → Bool) : Line → Bool :=
  match Line.next pending with
  | some line => Function.update pending line false
  | none => pending

theorem withoutNext_none
    {pending : Line → Bool} (none_ : Line.next pending = none) :
    withoutNext pending = pending := by
  rw [withoutNext, none_]

theorem withoutNext_some
    {pending : Line → Bool} {line : Line}
    (urgent : Line.next pending = some line) :
    withoutNext pending = Function.update pending line false := by
  rw [withoutNext, urgent]

/-- The driver handles a byte, if there is one. -/
def keyboardInterrupt (build : Build) (overview : Overview)
    (ports : Ports) : Option Overview :=
  if outputFull ports.status then
    (interleavedStep build overview.system
        (.interrupt ports.data ports.answer)).map fun system =>
      { overview with system }
  else
    some overview

/-- One event, seen from outside. -/
def overviewStep (build : Build) (overview : Overview) :
    Event → Option Overview
  | .raise line =>
      if HasDevice line then
        some
          { overview with
            pending := Function.update overview.pending line true }
      else
        none
  | .withdraw line =>
      if HasDevice line then
        some
          { overview with
            pending := Function.update overview.pending line false }
      else
        none
  | .irq _ ports =>
      let remaining :=
        { overview with pending := withoutNext overview.pending }
      if Line.next overview.pending = some keyboardLine then
        keyboardInterrupt build remaining ports
      else
        some remaining
  | .irqGone _ _ => some overview
  | .call command arg =>
      (interleavedStep build overview.system (.call command arg)).map
        fun system => { overview with system }
  | .statement =>
      (interleavedStep build overview.system .statement).map
        fun system => { overview with system }

/-- What is seen of the kernel. -/
def shown (kernel : Kernel KernelWorld) : Overview where
  pending := kernel.cascade.requests
  system := kernel.world.system

/-! ## The invariant -/

/-- The table is as registered, and nothing is in service. -/
structure Running (build : Build) (kernel : Kernel KernelWorld) :
    Prop where
  keyboard : kernel.irqHandlers (kbdIrq.setWidth 64) =
    some (kbdIntHandler build)
  timer : kernel.irqHandlers (timerIrq.setWidth 64) = some pitInterrupt
  others : ∀ vector : BitVec 64, 32 ≤ vector → vector ≠ kbdIrq.setWidth 64 →
    vector ≠ timerIrq.setWidth 64 → kernel.irqHandlers vector = none
  remapped : Remapped kernel.cascade
  quiet : kernel.cascade.Quiet

/-- The table that the calls of `irq_set_handler` leave. -/
theorem irqHandlers_booted
    (build : Build) (cascade : Cascade) (ports : Ports) :
    (booted build cascade ports).irqHandlers =
      Function.update
        (Function.update
          (Function.update (fun _ => none) ((0x0E : BitVec 8).setWidth 64)
            (some pageFaultHandler))
          (timerIrq.setWidth 64) (some pitInterrupt))
        (kbdIrq.setWidth 64) (some (kbdIntHandler build)) :=
  rfl

/-- The kernel runs when it is booted. -/
theorem running_booted
    (build : Build) {cascade : Cascade} (quiet : cascade.Quiet)
    (ports : Ports) :
    Running build (booted build cascade ports) where
  keyboard := by
    rw [irqHandlers_booted, Function.update_self]
  timer := by
    have apart : timerIrq.setWidth 64 ≠ kbdIrq.setWidth 64 := by decide
    rw [irqHandlers_booted, Function.update_of_ne apart, Function.update_self]
  others vector interrupt notKeyboard notTimer := by
    have apart : vector ≠ (0x0E : BitVec 8).setWidth 64 := by
      rintro rfl
      exact absurd interrupt (by decide)
    rw [irqHandlers_booted, Function.update_of_ne notKeyboard,
      Function.update_of_ne notTimer, Function.update_of_ne apart]
  remapped := Pic.remapped_picRemap cascade
  quiet := ⟨quiet.primaryIdle, quiet.secondaryIdle⟩

/-- What a change of the controllers has to keep. -/
theorem Running.withCascade
    {build : Build} {kernel : Kernel KernelWorld}
    (running : Running build kernel)
    {cascade : Cascade} (remapped : Remapped cascade)
    (quiet : cascade.Quiet) (world : KernelWorld) :
    Running build { kernel with cascade, world } :=
  ⟨running.keyboard, running.timer, running.others, remapped, quiet⟩

/-- The world is not part of the invariant. -/
theorem Running.withWorld
    {build : Build} {kernel : Kernel KernelWorld}
    (running : Running build kernel) (world : KernelWorld) :
    Running build { kernel with world } :=
  running.withCascade running.remapped running.quiet world

/-! ## Interrupts -/

/-- The vectors of lines are those of `irq_handler`. -/
theorem functionOf_vectorOf (line : Line) :
    functionOf (vectorOf line).toNat = .irqHandler := by
  cases line with
  | primary input =>
      revert input
      decide
  | secondary input =>
      revert input
      decide

/-- The number that `irq_handler` passes to `irq_ack`. -/
theorem irqNumber_eq (line : Line) :
    ((vectorOf line).setWidth 64 - 32).setWidth 8 = vectorOf line - 32 := by
  cases line with
  | primary input =>
      revert input
      decide
  | secondary input =>
      revert input
      decide

/-- Only the keyboard has its vector. -/
theorem vectorOf_eq_kbdIrq_iff (line : Line) :
    (vectorOf line).setWidth 64 = kbdIrq.setWidth 64 ↔
      line = keyboardLine := by
  cases line with
  | primary input =>
      revert input
      decide
  | secondary input =>
      revert input
      decide

/-- Vectors of lines are not those of exceptions. -/
theorem le_vectorOf (line : Line) :
    (32 : BitVec 64) ≤ (vectorOf line).setWidth 64 := by
  cases line with
  | primary input =>
      revert input
      decide
  | secondary input =>
      revert input
      decide

section

variable
  {build : Build} {kernel : Kernel KernelWorld}
  (running : Running build kernel)

include running

/-- The handlers of lines other than that of the keyboard do nothing. -/
theorem callHandler_other
    {r : Regs} {line : Line} (number : r.intNo = (vectorOf line).setWidth 64)
    (other : line ≠ keyboardLine) (cascade : Cascade) (ports : Ports) :
    callHandler r
        { kernel with cascade, world := { kernel.world with ports } } =
      some { kernel with cascade, world := { kernel.world with ports } } := by
  have notKeyboard : r.intNo ≠ kbdIrq.setWidth 64 := by
    rw [number]
    exact fun same => other ((vectorOf_eq_kbdIrq_iff line).mp same)
  rw [callHandler]
  by_cases timer : r.intNo = timerIrq.setWidth 64
  · simp only [timer, running.timer, pitInterrupt, Option.map_some]
  · have interrupt := le_vectorOf line
    rw [← number] at interrupt
    simp only [running.others r.intNo interrupt notKeyboard timer]

/-- The handler of the keyboard. -/
theorem callHandler_keyboard
    {r : Regs} (number : r.intNo = kbdIrq.setWidth 64)
    (cascade : Cascade) (ports : Ports) :
    callHandler r
        { kernel with cascade, world := { kernel.world with ports } } =
      (kbdIntHandler build r { kernel.world with ports }).map fun world =>
        { kernel with cascade, world } := by
  simp only [callHandler, number, running.keyboard]

/-- An interrupt with the vector of a line, when the handlers are done. -/
theorem takeIrq_eq
    (line : Line) (cascade : Cascade) (r : Regs) (ports : Ports) :
    takeIrq kernel (cascade, vectorOf line) r ports =
      (if line = keyboardLine then
          kbdIntHandler build
            { r with intNo := (vectorOf line).setWidth 64 }
            { kernel.world with ports }
        else
          some { kernel.world with ports }).map fun world =>
        { kernel with
          cascade := Pic.irqAck cascade (vectorOf line - 32)
          world := world } := by
  simp only [takeIrq, functionOf_vectorOf, InterruptDispatch.call,
    irqHandler, irqNumber_eq]
  by_cases keyboard : line = keyboardLine
  · rw [if_pos keyboard,
      callHandler_keyboard running
        ((vectorOf_eq_kbdIrq_iff line).mpr keyboard), Option.map_map]
    rfl
  · rw [if_neg keyboard, callHandler_other running rfl keyboard]
    rfl

/-- An interrupt that has been served leaves the kernel running. -/
theorem running_takeIrq
    {line : Line} {cascade : Cascade} (remapped : Remapped cascade)
    (served : Pic.Served cascade (vectorOf line))
    {r : Regs} {ports : Ports} {next : Kernel KernelWorld}
    (taken : takeIrq kernel (cascade, vectorOf line) r ports = some next) :
    Running build next := by
  rw [takeIrq_eq running] at taken
  obtain ⟨world, _, rfl⟩ := Option.map_eq_some_iff.mp taken
  exact running.withCascade (remapped.irqAck _) served.quiet_irqAck world

/-- What is seen of an interrupt. -/
theorem shown_takeIrq
    (line : Line) (cascade : Cascade) (r : Regs) (ports : Ports) :
    (takeIrq kernel (cascade, vectorOf line) r ports).map shown =
      if line = keyboardLine then
        keyboardInterrupt build
          { pending := cascade.requests, system := kernel.world.system } ports
      else
        some
          { pending := cascade.requests, system := kernel.world.system } := by
  rw [takeIrq_eq running, Option.map_map]
  by_cases keyboard : line = keyboardLine
  · rw [if_pos keyboard, if_pos keyboard, kbdIntHandler, keyboardInterrupt]
    by_cases full : outputFull ports.status
    · simp only [full, if_true, interleavedStep, Option.map_map]
      cases kernel.world.system.driver.keyboardHandler build ports.data
          ports.answer with
      | none => rfl
      | some driver =>
          simp [shown, Pic.requests_irqAck]
    · simp [full, shown, Pic.requests_irqAck]
  · rw [if_neg keyboard, if_neg keyboard]
    simp [shown, Pic.requests_irqAck]

end

/-! ## Runs -/

/-- A step of the main program is one of the driver. -/
theorem mainStep_refines
    {build : Build} {kernel : Kernel KernelWorld}
    (running : Running build kernel) (event : Ps2Interleaving.Event) :
    (mainStep build kernel event).map shown =
        (interleavedStep build kernel.world.system event).map
          (fun system => { shown kernel with system }) ∧
      ∀ next, mainStep build kernel event = some next →
        Running build next := by
  constructor
  · rw [mainStep, Option.map_map]
    rfl
  · intro next stepped
    obtain ⟨system, _, rfl⟩ := Option.map_eq_some_iff.mp stepped
    exact running.withWorld _

/-- Without a request, an interrupt is spurious. -/
theorem overviewStep_irq_none
    (build : Build) {overview : Overview}
    (none_ : Line.next overview.pending = none)
    (r : Regs) (ports : Ports) :
    overviewStep build overview (.irq r ports) = some overview := by
  have notKeyboard : ¬Line.next overview.pending = some keyboardLine := by
    rw [none_]
    exact (Option.some_ne_none _).symm
  simp only [overviewStep, withoutNext_none none_, if_neg notKeyboard]

/-- The most urgent line is dispatched. -/
theorem overviewStep_irq_some
    (build : Build) {overview : Overview} {line : Line}
    (urgent : Line.next overview.pending = some line)
    (r : Regs) (ports : Ports) :
    overviewStep build overview (.irq r ports) =
      if line = keyboardLine then
        keyboardInterrupt build
          { overview with
            pending := Function.update overview.pending line false } ports
      else
        some
          { overview with
            pending := Function.update overview.pending line false } := by
  simp only [overviewStep, withoutNext_some urgent]
  by_cases keyboard : line = keyboardLine
  · rw [if_pos keyboard, if_pos (urgent.trans (congrArg some keyboard))]
  · rw [if_neg keyboard, if_neg fun same =>
      keyboard (Option.some.inj (urgent.symm.trans same))]

/-- An interrupt dispatches the most urgent line. -/
theorem irq_refines
    {build : Build} {kernel : Kernel KernelWorld}
    (running : Running build kernel) (r : Regs) (ports : Ports) :
    (kernelStep build kernel (.irq r ports)).map shown =
        overviewStep build (shown kernel) (.irq r ports) ∧
      ∀ next, kernelStep build kernel (.irq r ports) = some next →
        Running build next := by
  have remapped := running.remapped
  have quiet := running.quiet
  rw [kernelStep]
  cases urgent : Line.next (shown kernel).pending with
  | none =>
      rw [quiet.acknowledge_none urgent, remapped.vector_eq,
        overviewStep_irq_none build urgent]
      constructor
      · rw [shown_takeIrq running, if_neg (by decide)]
        rfl
      · intro next taken
        exact running_takeIrq running remapped
          ⟨quiet.primaryIdle.atMostOne, quiet.secondaryIdle.atMostOne,
            fun _ => quiet.secondaryIdle⟩ taken
  | some line =>
      rw [quiet.acknowledge_some urgent, remapped.vector_eq,
        overviewStep_irq_some build urgent]
      constructor
      · rw [shown_takeIrq running,
          Cascade.requests_serve (Pic.hasDevice_of_next urgent)]
        rfl
      · intro next taken
        exact running_takeIrq running (remapped.serve line)
          (Pic.served_serve quiet line) taken

/-- An interrupt whose request has gone leads nowhere. -/
theorem irqGone_refines
    {build : Build} {kernel : Kernel KernelWorld}
    (running : Running build kernel) (r : Regs) (ports : Ports) :
    (kernelStep build kernel (.irqGone r ports)).map shown =
        overviewStep build (shown kernel) (.irqGone r ports) ∧
      ∀ next, kernelStep build kernel (.irqGone r ports) = some next →
        Running build next := by
  have gone := Pic.consistent_acknowledgeGone running.remapped running.quiet
  have vector : kernel.cascade.acknowledgeGone =
      (kernel.cascade.acknowledgeGone.1,
        vectorOf (.secondary Cascade.spuriousInput)) := by
    rw [← running.remapped.vector_eq]
    rfl
  simp only [kernelStep, overviewStep]
  rw [vector]
  constructor
  · rw [shown_takeIrq running, if_neg Line.noConfusion,
      Cascade.requests_acknowledgeGone]
    rfl
  · intro next taken
    have served := gone.inService
    rw [vector] at served
    exact running_takeIrq running gone.remapped served taken

/-- One event of the kernel is one event of the overview. -/
theorem kernelStep_refines
    {build : Build} {kernel : Kernel KernelWorld}
    (running : Running build kernel) (event : Event) :
    (kernelStep build kernel event).map shown =
        overviewStep build (shown kernel) event ∧
      ∀ next, kernelStep build kernel event = some next →
        Running build next := by
  have consistent : Pic.Consistent ⟨kernel.cascade, none⟩ :=
    ⟨running.remapped, running.quiet⟩
  cases event with
  | raise line =>
      by_cases device : HasDevice line
      · simp only [kernelStep, overviewStep, if_pos device]
        have raised := Pic.consistent_raise consistent line
        constructor
        · simp only [Option.map_some, shown,
            Cascade.requests_raise running.remapped.unmasked device]
        · rintro next ⟨⟩
          exact running.withCascade raised.remapped raised.inService _
      · simp [kernelStep, overviewStep, if_neg device]
  | withdraw line =>
      by_cases device : HasDevice line
      · simp only [kernelStep, overviewStep, if_pos device]
        have withdrawn := Pic.consistent_withdraw consistent line
        constructor
        · simp only [Option.map_some, shown,
            Cascade.requests_withdraw device]
        · rintro next ⟨⟩
          exact running.withCascade withdrawn.remapped withdrawn.inService _
      · simp [kernelStep, overviewStep, if_neg device]
  | irq r ports => exact irq_refines running r ports
  | irqGone r ports => exact irqGone_refines running r ports
  | call command arg => exact mainStep_refines running (.call command arg)
  | statement => exact mainStep_refines running .statement

theorem running_kernelStep
    {build : Build} (kernel : Kernel KernelWorld) (event : Event)
    (next : Kernel KernelWorld) (running : Running build kernel)
    (stepped : kernelStep build kernel event = some next) :
    Running build next :=
  (kernelStep_refines running event).2 next stepped

/-! ## Stores behind the buffer -/

/--
When the keyboard is the most urgent, has a byte, and finds the driver ready,
the byte is stored inside `scan_code_buf`.
-/
def StoresInBuffer (overview : Overview) : Event → Prop
  | .irq _ ports =>
      Line.next overview.pending = some keyboardLine →
        outputFull ports.status → overview.system.driver.InBuffer
  | _ => True

instance (overview : Overview) :
    (event : Event) → Decidable (StoresInBuffer overview event)
  | .irq _ ports =>
      inferInstanceAs (Decidable
        (Line.next overview.pending = some keyboardLine →
          outputFull ports.status → overview.system.driver.InBuffer))
  | .raise _ | .withdraw _ | .irqGone _ _ | .call _ _ | .statement =>
      inferInstanceAs (Decidable True)

theorem overviewStep_confined
    (build : Build) {overview : Overview} {event : Event}
    (inside : StoresInBuffer overview event) :
    overviewStep build overview event =
      overviewStep build.confined overview event := by
  cases event with
  | irq r ports =>
      simp only [overviewStep, keyboardInterrupt]
      split_ifs with keyboard full
      · rw [interleavedStep, interleavedStep,
          Driver.keyboardHandler_confined build (inside keyboard full)]
      · rfl
      · rfl
  | _ => rfl

/--
In every build and every run of the booted kernel, with requests, interrupts,
spurious interrupts and keyboard commands in any order, in which the keyboard
handler stores nothing behind `scan_code_buf`, the lines with a request and the
driver develop as in the overview, which knows no such stores, and after each
event no interrupt is left in service.
-/
theorem kernel_runs_as_overview
    (build : Build) {cascade : Cascade} (quiet : cascade.Quiet)
    (ports : Ports) {events : List Event}
    (inside :
      Guarded (kernelStep build)
        (fun kernel event => StoresInBuffer (shown kernel) event)
        (booted build cascade ports) events) :
    (run (kernelStep build) (booted build cascade ports) events).map
          shown =
        run (overviewStep build.confined)
          ⟨fun _ => false, initialSystem⟩ events ∧
      ∀ visited,
        Visits (kernelStep build) (booted build cascade ports) events
            visited →
          visited.cascade.Quiet := by
  have running := running_booted build quiet ports
  constructor
  · have commutes (kernel : Kernel KernelWorld) (event : Event)
        (held : Running build kernel)
        (stays : StoresInBuffer (shown kernel) event) :
        (kernelStep build kernel event).map shown =
          overviewStep build.confined (shown kernel) event := by
      rw [(kernelStep_refines held event).1]
      exact overviewStep_confined build stays
    rw [run_map_of_guarded running_kernelStep commutes running inside]
    have start : shown (booted build cascade ports) =
        ⟨fun _ => false, initialSystem⟩ := by
      show Overview.mk (picRemap cascade).requests initialSystem = _
      rw [Pic.requests_picRemap]
    rw [start]
  · intro visited visits
    exact (invariant_of_visits running_kernelStep running visits).quiet

/-! ## Keyboard commands among interrupts -/

/-- Events that leave the calls of the driver undisturbed. -/
def CallUndisturbed (overview : Overview) : Event → Prop
  | .statement => Undisturbed overview.system .statement
  | event => StoresInBuffer overview event

instance (overview : Overview) :
    (event : Event) → Decidable (CallUndisturbed overview event)
  | .statement =>
      inferInstanceAs (Decidable (Undisturbed overview.system .statement))
  | .irq r ports =>
      inferInstanceAs (Decidable (StoresInBuffer overview (.irq r ports)))
  | .raise _ | .withdraw _ | .irqGone _ _ | .call _ _ =>
      inferInstanceAs (Decidable True)

/-- What an event does to the driver. -/
theorem interleaved_overviewStep
    {build : Build} {overview next : Overview}
    (held : Interleaved overview.system) {event : Event}
    (undisturbed : CallUndisturbed overview event)
    (stepped : overviewStep build overview event = some next) :
    Interleaved next.system := by
  cases event with
  | raise line =>
      by_cases device : HasDevice line
      · rw [overviewStep, if_pos device] at stepped
        exact Option.some.inj stepped ▸ held
      · rw [overviewStep, if_neg device] at stepped
        exact absurd stepped (Option.some_ne_none next).symm
  | withdraw line =>
      by_cases device : HasDevice line
      · rw [overviewStep, if_pos device] at stepped
        exact Option.some.inj stepped ▸ held
      · rw [overviewStep, if_neg device] at stepped
        exact absurd stepped (Option.some_ne_none next).symm
  | irq r ports =>
      have inside : StoresInBuffer overview (.irq r ports) := undisturbed
      simp only [overviewStep, keyboardInterrupt] at stepped
      split_ifs at stepped with keyboard full
      · obtain ⟨system, handled, rfl⟩ := Option.map_eq_some_iff.mp stepped
        exact interleaved_interrupt held (inside keyboard full) handled
      · exact Option.some.inj stepped ▸ held
      · exact Option.some.inj stepped ▸ held
  | irqGone r ports => exact Option.some.inj stepped ▸ held
  | call command arg =>
      obtain ⟨system, called, rfl⟩ := Option.map_eq_some_iff.mp stepped
      have free : Undisturbed overview.system (.call command arg) := trivial
      exact interleaved_step held free called
  | statement =>
      obtain ⟨system, went, rfl⟩ := Option.map_eq_some_iff.mp stepped
      have calls : Undisturbed overview.system .statement := undisturbed
      exact interleaved_step held calls went

/-- The kernel runs, and the command queue is as it should be. -/
theorem running_interleaved_kernelStep
    {build : Build} (kernel : Kernel KernelWorld) (event : Event)
    (next : Kernel KernelWorld)
    (held : Running build kernel ∧ Interleaved kernel.world.system)
    (undisturbed : CallUndisturbed (shown kernel) event)
    (stepped : kernelStep build kernel event = some next) :
    Running build next ∧ Interleaved next.world.system := by
  have refined := kernelStep_refines held.1 event
  constructor
  · exact refined.2 next stepped
  · have seen : overviewStep build (shown kernel) event =
        some (shown next) := by
      rw [← refined.1, stepped]
      rfl
    exact interleaved_overviewStep held.2 undisturbed seen

/--
In every build and every run of the booted kernel whose calls are undisturbed
and whose interrupts store nothing behind `scan_code_buf`, whatever other
interrupts there are, each state between two calls has the bytes of its
commands written exactly once and is ready exactly when the queue is empty.
-/
theorem kernel_commands_written_once
    (build : Build) {cascade : Cascade} (quiet : cascade.Quiet)
    (ports : Ports) {events : List Event} {visited : Kernel KernelWorld}
    (undisturbed :
      Guarded (kernelStep build)
        (fun kernel event => CallUndisturbed (shown kernel) event)
        (booted build cascade ports) events)
    (visits :
      Visits (kernelStep build) (booted build cascade ports) events visited)
    (ended : visited.world.system.phase = .idle) :
    CallEnded visited.world.system.driver.toCommandLink := by
  have held := invariant_of_guarded running_interleaved_kernelStep
    ⟨running_booted build quiet ports,
      Ps2CommandRuns.settled_initialDriver⟩ undisturbed visits
  have settled := held.2
  rw [Interleaved, ended] at settled
  exact callEnded_of_settled settled

/-- Controllers without a request. -/
def resetCascade : Cascade := ⟨Pic.resetChip, Pic.resetChip⟩

theorem quiet_resetCascade : resetCascade.Quiet :=
  ⟨fun _ => rfl, fun _ => rfl⟩

/-- The kernel booted on controllers without a request. -/
def bootedOnReset : Kernel KernelWorld :=
  booted stateBehindBuffer resetCascade ⟨0, 0, 0⟩

/-- The interrupts of a timer and of a keyboard that answers `ECHO`. -/
def echoAmongTicks : List Event :=
  [.call ps2KbdComEcho commandNoArg, .statement, .raise timerLine,
    .statement, .raise keyboardLine,
    .irq (interruptedRegs quietCpu 0 0) ⟨0, 0, 0⟩, .statement, .statement,
    .irq (interruptedRegs quietCpu 0 0) ⟨1, 0xEE, 0⟩]

theorem echoAmongTicks_runs_as_overview :
    resetCascade.Quiet ∧
    (run (kernelStep stateBehindBuffer) bootedOnReset echoAmongTicks).map
        shown =
      run (overviewStep stateBehindBuffer.confined)
        ⟨fun _ => false, initialSystem⟩ echoAmongTicks ∧
    ∀ visited,
      Visits (kernelStep stateBehindBuffer) bootedOnReset echoAmongTicks
          visited →
        visited.cascade.Quiet :=
  ⟨quiet_resetCascade,
    kernel_runs_as_overview stateBehindBuffer quiet_resetCascade ⟨0, 0, 0⟩
      (by decide +kernel)⟩

theorem echoAmongTicks_written_once :
    ∃ visited,
      Visits (kernelStep stateBehindBuffer) bootedOnReset echoAmongTicks
        visited ∧
      visited.world.system.phase = .idle ∧
      CallEnded visited.world.system.driver.toCommandLink := by
  have observed : (run (kernelStep stateBehindBuffer) bootedOnReset
      echoAmongTicks).map (fun kernel => kernel.world.system.phase) =
        some .idle := by
    decide +kernel
  obtain ⟨visited, reached, ended⟩ := Option.map_eq_some_iff.mp observed
  have visits : Visits (kernelStep stateBehindBuffer) bootedOnReset
      echoAmongTicks visited :=
    ⟨echoAmongTicks, [], (List.append_nil _).symm, reached⟩
  exact ⟨visited, visits, ended,
    kernel_commands_written_once stateBehindBuffer quiet_resetCascade
      ⟨0, 0, 0⟩ (by decide +kernel) visits ended⟩

end Kernull.KernelInterrupts
