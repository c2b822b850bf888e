import Kernull.Ps2CommandQueue
import Kernull.Printk
import Kernull.VgaTerminal

/-!
# What the kernel prints

Calls of `printk` on the terminal.  Each call with a complete format ends, and
what a sequence of them leaves on the screen is the scrolling screen with the
texts of the calls one after the other.  The messages of the keyboard driver
are such calls.
-/

namespace Kernull.ConsoleOutput

open Kernull.Printk
open Kernull.Ps2CommandQueue
open Kernull.VgaPrint
open Kernull.VgaTerminal

/-! ## Calls of `printk` -/

/-- `printk`: the characters that `vprintk` passes on, on the terminal. -/
def printk (vga : Vga) (call : Call) : Option Vga :=
  (call.vprintk (strlen call.fmt + 1)).map fun scan =>
    scan.passed.foldl Vga.vgaPutchar vga

/-- Calls one after the other. -/
def printAll (vga : Vga) (calls : List Call) : Option Vga :=
  calls.foldlM printk vga

/-- What a call prints. -/
def output (call : Call) : List (BitVec 8) :=
  call.printed call.format 0

theorem shows_foldl_vgaPutchar
    {vga : Vga} {screen : TerminalScreen} (shows : Shows vga screen)
    (text : List (BitVec 8)) :
    Shows (text.foldl Vga.vgaPutchar vga) (text.foldl displayChar screen) := by
  induction text generalizing vga screen with
  | nil => exact shows
  | cons c text inductionHypothesis =>
      exact inductionHypothesis (shows.vgaPutchar c)

/-- One call prints its text. -/
theorem printk_shown
    {vga : Vga} {screen : TerminalScreen} (shows : Shows vga screen)
    {call : Call} (complete : Piece.dangling ∉ call.format) :
    ∃ after, printk vga call = some after ∧
      Shows after ((output call).foldl displayChar screen) := by
  obtain ⟨final, ran, interprets⟩ := Call.vprintk_of_complete complete
  refine ⟨final.passed.foldl Vga.vgaPutchar vga, ?_, ?_⟩
  · rw [printk, ran]
    rfl
  · have passed : final.passed = output call := interprets.passed
    rw [← passed]
    exact shows_foldl_vgaPutchar shows final.passed

/--
On a terminal that shows a screen, every sequence of calls with complete
formats ends, and the terminal shows the screen with the texts of the calls
behind it, scrolled as far as needed.
-/
theorem printAll_shown
    {vga : Vga} {screen : TerminalScreen} (shows : Shows vga screen)
    {calls : List Call}
    (complete : ∀ call ∈ calls, Piece.dangling ∉ call.format) :
    ∃ after, printAll vga calls = some after ∧
      Shows after ((calls.flatMap output).foldl displayChar screen) := by
  induction calls generalizing vga screen with
  | nil => exact ⟨vga, rfl, shows⟩
  | cons call calls inductionHypothesis =>
      obtain ⟨middle, printed, middleShows⟩ :=
        printk_shown shows (complete call List.mem_cons_self)
      obtain ⟨after, others, afterShows⟩ := inductionHypothesis middleShows
        fun other member => complete other (List.mem_cons_of_mem call member)
      refine ⟨after, ?_, ?_⟩
      · rw [printAll, List.foldlM_cons, printed]
        exact others
      · rw [List.flatMap_cons, List.foldl_append]
        exact afterShows

/-! ## Formats of the source -/

/-- The bytes of a string literal. -/
def literal (text : String) : List (BitVec 8) :=
  text.toList.map fun c => BitVec.ofNat 8 c.toNat

/-- A format and the numbers or characters that are printed with it. -/
structure Request where
  fmt : List (BitVec 8)
  words : List (BitVec 64)

/-- The call, with the stack at the time each number is printed. -/
def Request.call (request : Request) (frames : Nat → Frame) : Call where
  fmt := cString request.fmt
  list place := { word := request.words.getD place 0, string := cString [] }
  frames := frames

/-- No zeros, and no `%` at the end. -/
def CompleteFormat (fmt : List (BitVec 8)) : Prop :=
  (fmt.all fun c => c != 0) = true ∧
    ((pieces fmt).all fun
      | .dangling => false
      | _ => true) = true

instance (fmt : List (BitVec 8)) : Decidable (CompleteFormat fmt) :=
  inferInstanceAs (Decidable (_ ∧ _))

section

variable {request : Request} (complete : CompleteFormat request.fmt)

include complete

theorem format_call (frames : Nat → Frame) :
    (request.call frames).format = pieces request.fmt := by
  have spelled : characters (cString request.fmt) = request.fmt := by
    apply characters_cString
    intro c member zero
    have nonzero := List.all_eq_true.mp complete.1 c member
    rw [zero] at nonzero
    exact Bool.noConfusion nonzero
  exact congrArg pieces spelled

/-- The call of a request with a complete format. -/
theorem not_dangling_call (frames : Nat → Frame) :
    Piece.dangling ∉ (request.call frames).format := by
  rw [format_call complete]
  intro member
  exact Bool.noConfusion (List.all_eq_true.mp complete.2 _ member)

end

/-! ## The messages of the keyboard driver -/

/-- The calls of `printk` for a message. -/
def requests : Message → List Request
  | .expectedAck forArg command data =>
      [⟨literal "ps2_kbd: expected ACK for ", []⟩] ++
        (if forArg then [⟨literal "arg of ", []⟩] else []) ++
        [⟨literal "command (0x%x, 0x%x). Got 0x%x\n",
          [command.com.setWidth 64, command.arg.setWidth 64,
            data.setWidth 64]⟩]
  | .echo => [⟨literal "\nps2_kbd: ECHO\n", []⟩]
  | .strangeScanCodeSet data =>
      [⟨literal "ps2_kbd: Strange scan code set byte 0x%x\n",
        [data.setWidth 64]⟩]
  | .key character =>
      [⟨literal "%c", [BitVec.ofNat 64 character.toNat]⟩]

/-- The formats of the driver. -/
def formats : List (List (BitVec 8)) :=
  [literal "ps2_kbd: expected ACK for ", literal "arg of ",
    literal "command (0x%x, 0x%x). Got 0x%x\n",
    literal "\nps2_kbd: ECHO\n",
    literal "ps2_kbd: Strange scan code set byte 0x%x\n", literal "%c"]

theorem completeFormat_of_mem {fmt : List (BitVec 8)}
    (member : fmt ∈ formats) : CompleteFormat fmt := by
  revert fmt
  decide +kernel

theorem fmt_mem_formats
    {message : Message} {request : Request}
    (member : request ∈ requests message) : request.fmt ∈ formats := by
  cases message with
  | expectedAck forArg command data =>
      cases forArg <;>
        simp only [requests, Bool.false_eq_true, if_false, if_true,
          List.append_nil, List.cons_append, List.nil_append, List.mem_cons,
          List.not_mem_nil, or_false] at member
      · rcases member with rfl | rfl <;> simp [formats]
      · rcases member with rfl | rfl | rfl <;> simp [formats]
  | echo =>
      obtain rfl := List.mem_singleton.mp member
      simp [formats]
  | strangeScanCodeSet data =>
      obtain rfl := List.mem_singleton.mp member
      simp [formats]
  | key character =>
      obtain rfl := List.mem_singleton.mp member
      simp [formats]

/-- The formats of the driver are complete. -/
theorem completeFormat_requests
    {message : Message} {request : Request}
    (member : request ∈ requests message) : CompleteFormat request.fmt :=
  completeFormat_of_mem (fmt_mem_formats member)

/-- The calls for some messages, each with the stack at its own time. -/
def CallsFor (messages : List Message) (calls : List Call) : Prop :=
  List.Forall₂ (fun request call => ∃ frames, call = request.call frames)
    (messages.flatMap requests) calls

/-- Calls of requests with complete formats have complete formats. -/
theorem not_dangling_of_forall₂
    {list : List Request} {calls : List Call}
    (made : List.Forall₂
      (fun request call => ∃ frames, call = request.call frames) list calls)
    (complete : ∀ request ∈ list, CompleteFormat request.fmt) :
    ∀ call ∈ calls, Piece.dangling ∉ call.format := by
  induction made with
  | nil => exact fun call member => absurd member List.not_mem_nil
  | cons asked made inductionHypothesis =>
      obtain ⟨frames, rfl⟩ := asked
      intro call member
      cases List.mem_cons.mp member with
      | inl first =>
          rw [first]
          exact not_dangling_call (complete _ List.mem_cons_self) frames
      | inr other =>
          exact inductionHypothesis
            (fun request asked =>
              complete request (List.mem_cons_of_mem _ asked)) call other

/-- The driver only makes calls with complete formats. -/
theorem not_dangling_of_callsFor
    {messages : List Message} {calls : List Call}
    (made : CallsFor messages calls) :
    ∀ call ∈ calls, Piece.dangling ∉ call.format := by
  apply not_dangling_of_forall₂ made
  intro request member
  obtain ⟨message, _, asked⟩ := List.mem_flatMap.mp member
  exact completeFormat_requests asked

theorem pieces_key : pieces (literal "%c") = [.char] := by
  have spelled : literal "%c" = [percent, 0x63] := by
    simp [literal, percent]
  rw [spelled, pieces_conversion]
  rfl

/-- The character that is printed for a key. -/
theorem output_key (character : Char) (frames : Nat → Frame) :
    output (Request.call ⟨literal "%c", [BitVec.ofNat 64 character.toNat]⟩
      frames) = [BitVec.ofNat 8 character.toNat] := by
  have complete : CompleteFormat (literal "%c") :=
    completeFormat_of_mem (by simp [formats])
  have narrowed : (BitVec.ofNat 64 character.toNat).setWidth 8 =
      BitVec.ofNat 8 character.toNat :=
    BitVec.setWidth_ofNat_of_le (by decide) _
  rw [output, format_call complete, pieces_key]
  simp [Call.printed, Piece.printed, Request.call, narrowed]

/-- The characters that are printed for keys. -/
theorem output_keys
    {text : List Char} {calls : List Call}
    (made : CallsFor (text.map .key) calls) :
    calls.flatMap output = text.map fun c => BitVec.ofNat 8 c.toNat := by
  induction text generalizing calls with
  | nil =>
      obtain rfl := List.forall₂_nil_left_iff.mp made
      rfl
  | cons c text inductionHypothesis =>
      obtain ⟨call, others, ⟨frames, equal⟩, rest, rfl⟩ :=
        List.forall₂_cons_left_iff.mp made
      rw [List.flatMap_cons, inductionHypothesis rest, equal, output_key]
      rfl

end Kernull.ConsoleOutput
