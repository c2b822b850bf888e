import Kernull.ConsoleOutput
import Kernull.KernelInterrupts

/-!
# Typed text

What is typed while no keyboard command is pending.  Between the interrupts of
the keyboard there may be any others; the bytes that the handler finds at the
controller are decoded as one stream, and the characters of the keys appear on
the terminal.
-/

namespace Kernull.TypedText

open Kernull.ConsoleOutput
open Kernull.KernelInterrupts
open Kernull.Library.InterruptController
open Kernull.Library.LabelledRun
open Kernull.Library.Transducer
open Kernull.Pic (HasDevice timerLine)
open Kernull.Ps2CommandQueue
open Kernull.Ps2Controller
open Kernull.Ps2Decoder
open Kernull.Ps2Interleaving
open Kernull.VgaPrint
open Kernull.VgaTerminal

/-! ## What reaches the driver -/

/-- Events without calls of the driver, and from lines with a device. -/
def Typing : KernelInterrupts.Event → Prop
  | .raise line | .withdraw line => HasDevice line
  | .irq _ _ | .irqGone _ _ => True
  | .call _ _ | .statement => False

instance : (event : KernelInterrupts.Event) → Decidable (Typing event)
  | .raise line | .withdraw line =>
      inferInstanceAs (Decidable (HasDevice line))
  | .irq _ _ | .irqGone _ _ => inferInstanceAs (Decidable True)
  | .call _ _ | .statement => inferInstanceAs (Decidable False)

/-- The byte that the keyboard handler reads in an event, if it does. -/
def readByte (pending : Line → Bool) :
    KernelInterrupts.Event → List (BitVec 8)
  | .irq _ ports =>
      if Line.next pending = some keyboardLine then
        if outputFull ports.status then [ports.data] else []
      else
        []
  | _ => []

/-- The lines with a request after an event. -/
def pendingAfter (pending : Line → Bool) :
    KernelInterrupts.Event → Line → Bool
  | .raise line => Function.update pending line true
  | .withdraw line => Function.update pending line false
  | .irq _ _ => withoutNext pending
  | _ => pending

/-- The bytes that the handler reads in a sequence of events. -/
def readBytes (pending : Line → Bool) :
    List KernelInterrupts.Event → List (BitVec 8)
  | [] => []
  | event :: rest =>
      readByte pending event ++ readBytes (pendingAfter pending event) rest

/-! ## The driver while no command is pending -/

/-- The system with another state of the decoder and more on the console. -/
def decoded (system : System) (result : Decoder × List Input.InputEvent) :
    System :=
  { system with
    driver :=
      { system.driver with
        decoder := result.1
        console := system.driver.console ++
          (result.2.filterMap printed).map .key } }

/-- A driver that waits for nothing decodes the byte. -/
theorem interrupt_decodes
    (build : Build) {system : System}
    (ready : system.driver.driverState = stateReady)
    {data : BitVec 8} {result : Decoder × List Input.InputEvent}
    (accepted : handleData system.driver.decoder data = some result)
    (answer : BitVec 8) :
    interleavedStep build system (.interrupt data answer) =
      some (decoded system result) := by
  have handled := Driver.handleData_of_decoded build accepted
  rw [interleavedStep, Driver.keyboardHandler, if_pos ready, handled]
  rfl

/-- Decoding nothing. -/
theorem decoded_nothing (system : System) :
    decoded system (system.driver.decoder, []) = system := by
  simp [decoded]

/-- Decoding one part of a stream and then the next. -/
theorem decoded_decoded
    (system : System) (decoder later : Decoder)
    (front back : List Input.InputEvent) :
    decoded (decoded system (decoder, front)) (later, back) =
      decoded system (later, front ++ back) := by
  simp [decoded, List.filterMap_append]

/-! ## A sequence of events -/

/-- One event passes its byte through the decoder. -/
theorem overviewStep_typing
    (build : Build) {overview : Overview}
    (ready : overview.system.driver.driverState = stateReady)
    {event : KernelInterrupts.Event} (typing : Typing event)
    {result : Decoder × List Input.InputEvent}
    (fed : feed handleData overview.system.driver.decoder
      (readByte overview.pending event) = some result) :
    overviewStep build overview event =
      some
        { pending := pendingAfter overview.pending event
          system := decoded overview.system result } := by
  have unread (nothing : readByte overview.pending event = []) :
      decoded overview.system result = overview.system := by
    rw [nothing, feed_nil] at fed
    rw [← Option.some.inj fed, decoded_nothing]
  cases event with
  | raise line =>
      have device : HasDevice line := typing
      rw [overviewStep, if_pos device, unread rfl]
      rfl
  | withdraw line =>
      have device : HasDevice line := typing
      rw [overviewStep, if_pos device, unread rfl]
      rfl
  | irq r ports =>
      simp only [overviewStep, keyboardInterrupt, pendingAfter]
      by_cases keyboard : Line.next overview.pending = some keyboardLine
      · by_cases full : outputFull ports.status
        · have read : readByte overview.pending (.irq r ports) =
              [ports.data] := by
            rw [readByte, if_pos keyboard, if_pos full]
          rw [read, feed_cons] at fed
          obtain ⟨first, accepted, rest⟩ := Option.bind_eq_some_iff.mp fed
          rw [feed_nil, Option.map_some, List.append_nil] at rest
          obtain rfl := Option.some.inj rest
          rw [if_pos keyboard, if_pos full,
            interrupt_decodes build ready accepted]
          rfl
        · rw [if_pos keyboard, if_neg full, unread]
          rw [readByte, if_pos keyboard, if_neg full]
      · rw [if_neg keyboard, unread]
        rw [readByte, if_neg keyboard]
  | irqGone r ports =>
      rw [overviewStep, unread rfl]
      rfl
  | call command arg => exact typing.elim
  | statement => exact typing.elim

/-- A sequence of events passes its bytes through the decoder. -/
theorem run_overviewStep_typing
    (build : Build) {overview : Overview}
    (ready : overview.system.driver.driverState = stateReady)
    {events : List KernelInterrupts.Event}
    (typing : ∀ event ∈ events, Typing event)
    {result : Decoder × List Input.InputEvent}
    (fed : feed handleData overview.system.driver.decoder
      (readBytes overview.pending events) = some result) :
    ∃ pending, run (overviewStep build) overview events =
      some { pending, system := decoded overview.system result } := by
  induction events generalizing overview result with
  | nil =>
      rw [readBytes, feed_nil] at fed
      refine ⟨overview.pending, ?_⟩
      rw [← Option.some.inj fed, decoded_nothing]
      rfl
  | cons event events inductionHypothesis =>
      rw [readBytes, feed_append] at fed
      obtain ⟨first, accepted, rest⟩ := Option.bind_eq_some_iff.mp fed
      obtain ⟨later, others, rfl⟩ := Option.map_eq_some_iff.mp rest
      have stepped := overviewStep_typing build ready
        (typing event List.mem_cons_self) accepted
      have onward : ∃ pending, run (overviewStep build)
          { pending := pendingAfter overview.pending event
            system := decoded overview.system first } events =
          some
            { pending
              system := decoded (decoded overview.system first) later } := by
        apply inductionHypothesis
        · exact ready
        · exact fun other member =>
            typing other (List.mem_cons_of_mem event member)
        · exact others
      obtain ⟨pending, reached⟩ := onward
      refine ⟨pending, ?_⟩
      rw [run_cons, stepped, Option.bind_some, reached, decoded_decoded]

/-! ## On the terminal -/

/-- The characters of some keys: those of presses with a character. -/
def typedText (keys : List OrdinaryKey) : List Char :=
  (keys.map OrdinaryKey.event).filterMap printed

/-- Where the kernel waits for keys. -/
structure AwaitsKeys
    (build : Build) (kernel : InterruptDispatch.Kernel KernelWorld) :
    Prop where
  running : Running build kernel
  ready : kernel.world.system.driver.driverState = stateReady
  rests : AtRest kernel.world.system.driver.decoder

/--
In every build, when the kernel waits for keys, then in every sequence of
interrupts in which the keyboard handler reads the bytes of ordinary keys, with
any interrupts of other devices before, between and behind them, the kernel
prints exactly the characters of the keys and waits for further keys; and a
terminal that shows a screen shows the screen with these characters behind it.
-/
theorem typed_text_appears
    {build : Build} {kernel : InterruptDispatch.Kernel KernelWorld}
    (awaits : AwaitsKeys build kernel)
    {events : List KernelInterrupts.Event}
    (typing : ∀ event ∈ events, Typing event)
    {keys : List OrdinaryKey}
    (typed : readBytes kernel.cascade.requests events =
      keys.flatMap OrdinaryKey.bytes) :
    ∃ final, run (kernelStep build) kernel events = some final ∧
      AwaitsKeys build final ∧
      final.world.system.driver.console =
        kernel.world.system.driver.console ++ (typedText keys).map .key ∧
      ∀ (vga : Vga) (screen : TerminalScreen) (calls : List Printk.Call),
        Shows vga screen → CallsFor ((typedText keys).map .key) calls →
          ∃ after, printAll vga calls = some after ∧
            Shows after
              (((typedText keys).map fun c =>
                BitVec.ofNat 8 c.toNat).foldl displayChar screen) := by
  obtain ⟨next, fed, nextRests⟩ := feed_ordinaryKeys awaits.rests keys
  rw [← typed] at fed
  have onward : ∃ pending,
      run (overviewStep build) (shown kernel) events =
      some
        { pending
          system := decoded kernel.world.system
            (next, keys.map OrdinaryKey.event) } :=
    run_overviewStep_typing build awaits.ready typing fed
  obtain ⟨pending, reached⟩ := onward
  have refined := run_map_of_invariant running_kernelStep
    (fun _ event held => (kernelStep_refines held event).1) awaits.running
    events
  rw [reached] at refined
  obtain ⟨final, ran, seen⟩ := Option.map_eq_some_iff.mp refined
  have system : final.world.system =
      decoded kernel.world.system (next, keys.map OrdinaryKey.event) :=
    congrArg Overview.system seen
  refine ⟨final, ran, ⟨?_, ?_, ?_⟩, ?_, ?_⟩
  · exact invariant_of_visits running_kernelStep awaits.running
      ⟨events, [], (List.append_nil _).symm, ran⟩
  · rw [system]
    exact awaits.ready
  · rw [system]
    exact nextRests
  · rw [system]
    rfl
  · intro vga screen calls shows made
    obtain ⟨after, printed, afterShows⟩ :=
      printAll_shown shows (not_dangling_of_callsFor made)
    rw [output_keys made] at afterShows
    exact ⟨after, printed, afterShows⟩

/-- The booted kernel waits for keys. -/
theorem awaitsKeys_booted
    (build : Build) {cascade : Cascade} (quiet : cascade.Quiet)
    (ports : Ports) :
    AwaitsKeys build (booted build cascade ports) where
  running := running_booted build quiet ports
  ready := rfl
  rests := atRest_initialDecoder

/-- The key A is pressed and released while the timer ticks. -/
def keyAmongTicks : List KernelInterrupts.Event :=
  let r := InterruptEntry.interruptedRegs InterruptEntry.quietCpu 0 0
  [.raise keyboardLine, .raise timerLine, .irq r ⟨0x1C, 0, 0⟩,
    .irq r ⟨0x1D, 0x1C, 0⟩, .irqGone r ⟨0, 0, 0⟩, .raise keyboardLine,
    .irq r ⟨0x1D, 0xF0, 0⟩, .raise keyboardLine, .irq r ⟨0x1D, 0x1C, 0⟩]

/-- Pressing and releasing the key A. -/
def keyA : List OrdinaryKey :=
  [⟨false, false, 0x1C, by decide, by decide⟩,
    ⟨false, true, 0x1C, by decide, by decide⟩]

theorem keyAmongTicks_appears :
    typedText keyA = ['a'] ∧
    ∃ final,
      run (kernelStep stateBehindBuffer) bootedOnReset keyAmongTicks =
        some final ∧
      AwaitsKeys stateBehindBuffer final ∧
      final.world.system.driver.console =
        bootedOnReset.world.system.driver.console ++
          (typedText keyA).map .key ∧
      ∀ (vga : Vga) (screen : TerminalScreen) (calls : List Printk.Call),
        Shows vga screen → CallsFor ((typedText keyA).map .key) calls →
          ∃ after, printAll vga calls = some after ∧
            Shows after
              (((typedText keyA).map fun c =>
                BitVec.ofNat 8 c.toNat).foldl displayChar screen) :=
  ⟨by decide +kernel,
    typed_text_appears
      (awaitsKeys_booted stateBehindBuffer quiet_resetCascade ⟨0, 0, 0⟩)
      (by decide +kernel) (by decide +kernel)⟩

end Kernull.TypedText
