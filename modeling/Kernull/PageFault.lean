import Kernull.ConsoleOutput
import Kernull.InterruptEntry
import Kernull.Library.PrefixCode

/-!
# Page faults

`page_fault_handler` of `mm.c` prints a report of the fault and aborts.  What
stands on the terminal tells the address, the causes and the access, each of
them as it was, and no other bit of the error code.
-/

namespace Kernull.PageFault

open Kernull.ConsoleOutput
open Kernull.InterruptEntry
open Kernull.Itoa
open Kernull.Library.PrefixCode
open Kernull.Printk
open Kernull.VgaPrint
open Kernull.VgaTerminal

/-! ## The handler -/

/-- `struct page_fault_err`. -/
structure PageFaultErr where
  present : Bool
  write : Bool
  user : Bool
  reservedSet : Bool
  instructionFetch : Bool
  protKeyViol : Bool
  shadowStackAcc : Bool
  sgxViol : Bool

/-- An error code as a `struct page_fault_err`. -/
def pageFaultErr (errCode : BitVec 64) : PageFaultErr where
  present := errCode.getLsbD 0
  write := errCode.getLsbD 1
  user := errCode.getLsbD 2
  reservedSet := errCode.getLsbD 3
  instructionFetch := errCode.getLsbD 4
  protKeyViol := errCode.getLsbD 5
  shadowStackAcc := errCode.getLsbD 6
  sgxViol := errCode.getLsbD 15

/-- A call of `printk` without arguments. -/
def say (text : String) : Request :=
  ⟨literal text, []⟩

/-- The part of `page_fault_handler` under its comment `why`. -/
def why (err : PageFaultErr) : List Request :=
  [say "Cause: "] ++
  (if !err.present then [say "page is not present "] else []) ++
  (if err.reservedSet then [say "reserved bit set "] else []) ++
  (if err.protKeyViol then [say "protection-key violation "] else []) ++
  (if err.shadowStackAcc then [say "shadow-stack access "] else []) ++
  (if err.sgxViol then [say "SGX violation"] else []) ++
  [say "\n"]

/-- The part under `when`. -/
def during (err : PageFaultErr) : List Request :=
  [say "On: "] ++
  (if err.instructionFetch then
    [say "instruction fetch"]
  else
    [say "Data "] ++ (if err.write then [say "write"] else [say "read"])) ++
  [say "\n"]

/-- The part under `blame`. -/
def blame (err : PageFaultErr) : List Request :=
  [say "Blame: "] ++ (if err.user then [say "user"] else [say "kernel"])

/-- `page_fault_handler`: the calls of `printk` before `abort`. -/
def pageFaultHandlerCalls (cr2 : BitVec 64) (r : Regs) : List Request :=
  let faultAddr := cr2
  let err := pageFaultErr r.errCode
  ⟨literal "Page fault at address 0x%x\n", [faultAddr]⟩ ::
    (why err ++ during err ++ blame err)

/-! ## The report -/

/-- The causes that a report can name. -/
inductive Cause where
  | notPresent
  | reservedSet
  | protKeyViol
  | shadowStackAcc
  | sgxViol

namespace Cause

def inOrder : List Cause :=
  [notPresent, reservedSet, protKeyViol, shadowStackAcc, sgxViol]

def holds (err : PageFaultErr) : Cause → Bool
  | notPresent => !err.present
  | reservedSet => err.reservedSet
  | protKeyViol => err.protKeyViol
  | shadowStackAcc => err.shadowStackAcc
  | sgxViol => err.sgxViol

def text : Cause → List (BitVec 8)
  | notPresent => literal "page is not present "
  | reservedSet => literal "reserved bit set "
  | protKeyViol => literal "protection-key violation "
  | shadowStackAcc => literal "shadow-stack access "
  | sgxViol => literal "SGX violation"

end Cause

/-- What was done at the address. -/
inductive Access where
  | instructionFetch
  | write
  | read

namespace Access

def of (err : PageFaultErr) : Access :=
  if err.instructionFetch then instructionFetch
  else if err.write then write
  else read

def texts : Access → List (List (BitVec 8))
  | instructionFetch => [literal "instruction fetch"]
  | write => [literal "Data ", literal "write"]
  | read => [literal "Data ", literal "read"]

end Access

/-- The culprit. -/
def modeText (user : Bool) : List (BitVec 8) :=
  if user then literal "user" else literal "kernel"

/-- What a report tells of a page fault. -/
structure Report where
  address : BitVec 64
  causes : List Cause
  access : Access
  user : Bool

namespace Report

/-- The report of a page fault. -/
def of (cr2 : BitVec 64) (r : Regs) : Report where
  address := cr2
  causes := Cause.inOrder.filter (Cause.holds (pageFaultErr r.errCode))
  access := .of (pageFaultErr r.errCode)
  user := (pageFaultErr r.errCode).user

/-- The texts behind the address. -/
def texts (report : Report) : List (List (BitVec 8)) :=
  [literal "Cause: "] ++ report.causes.map Cause.text ++ [literal "\n"] ++
  [literal "On: "] ++ report.access.texts ++ [literal "\n"] ++
  [literal "Blame: ", modeText report.user]

/-- The whole text; `stray` is what `itoa` leaves behind the address. -/
def text (report : Report) (stray : List (BitVec 8)) : List (BitVec 8) :=
  literal "Page fault at address 0x" ++
    (numeralText 16 report.address.toNat ++
      (stray ++ 0x0A :: report.texts.flatten))

end Report

/-! ## Texts without conversions -/

/-- No terminator and no `%`. -/
def Plain (fmt : List (BitVec 8)) : Prop :=
  ∀ c ∈ fmt, c ≠ 0 ∧ c ≠ percent

instance (fmt : List (BitVec 8)) : Decidable (Plain fmt) :=
  inferInstanceAs (Decidable (∀ c ∈ fmt, _))

theorem pieces_append_of_plain
    {front : List (BitVec 8)} (plain : Plain front)
    (back : List (BitVec 8)) :
    pieces (front ++ back) = front.map .literal ++ pieces back := by
  induction front with
  | nil => rfl
  | cons c front inductionHypothesis =>
      have rest : Plain front :=
        fun d member => plain d (List.mem_cons_of_mem c member)
      rw [List.cons_append,
        pieces_literal _ (plain c List.mem_cons_self).2,
        inductionHypothesis rest]
      rfl

theorem printed_literals
    (call : Call) (front : List (BitVec 8)) (others : List Piece)
    (place : Nat) :
    call.printed (front.map .literal ++ others) place =
      front ++ call.printed others place := by
  induction front with
  | nil => rfl
  | cons c front inductionHypothesis =>
      exact congrArg (c :: ·) inductionHypothesis

section

variable {fmt : List (BitVec 8)} (plain : Plain fmt)

include plain

theorem pieces_of_plain : pieces fmt = fmt.map .literal := by
  have alone := pieces_append_of_plain plain []
  rwa [List.append_nil, pieces_nil, List.append_nil] at alone

theorem completeFormat_of_plain : CompleteFormat fmt := by
  constructor
  · exact List.all_eq_true.mpr fun c member =>
      bne_iff_ne.mpr (plain c member).1
  · rw [pieces_of_plain plain, List.all_map]
    exact List.all_eq_true.mpr fun _ _ => rfl

/-- A plain format prints itself. -/
theorem output_of_plain (words : List (BitVec 64)) (frames : Nat → Frame) :
    output (Request.call ⟨fmt, words⟩ frames) = fmt := by
  have literals := printed_literals (Request.call ⟨fmt, words⟩ frames) fmt
    [] 0
  rw [List.append_nil] at literals
  rw [output, format_call (completeFormat_of_plain plain),
    pieces_of_plain plain, literals]
  exact List.append_nil fmt

end

/-- The calls for some texts. -/
def said (texts : List (List (BitVec 8))) : List Request :=
  texts.map fun text => ⟨text, []⟩

/-- Calls of `printk`, each with the stack at its own time. -/
def callsOn (frames : Nat → Nat → Frame) (list : List Request) : List Call :=
  list.mapIdx fun i request => request.call (frames i)

theorem not_dangling_callsOn
    {list : List Request}
    (complete : ∀ request ∈ list, CompleteFormat request.fmt)
    (frames : Nat → Nat → Frame) :
    ∀ call ∈ callsOn frames list, Piece.dangling ∉ call.format := by
  intro call member
  rcases List.mem_mapIdx.mp member with ⟨i, inside, rfl⟩
  exact not_dangling_call (complete _ (List.getElem_mem inside)) (frames i)

theorem flatMap_output_said
    {texts : List (List (BitVec 8))} (plain : ∀ text ∈ texts, Plain text)
    (frames : Nat → Nat → Frame) :
    (callsOn frames (said texts)).flatMap output = texts.flatten := by
  induction texts generalizing frames with
  | nil => rfl
  | cons text texts inductionHypothesis =>
      have rest := inductionHypothesis
        (fun other member => plain other (List.mem_cons_of_mem text member))
        fun i => frames (i + 1)
      rw [callsOn, said, List.map_cons, List.mapIdx_cons, List.flatMap_cons,
        output_of_plain (plain text List.mem_cons_self)]
      exact congrArg (text ++ ·) rest

/-! ## The texts of a report -/

theorem Cause.text_start (cause : Cause) :
    cause.text.take 2 = match cause with
      | notPresent => [0x70, 0x61]
      | reservedSet => [0x72, 0x65]
      | protKeyViol => [0x70, 0x72]
      | shadowStackAcc => [0x73, 0x68]
      | sgxViol => [0x53, 0x47] := by
  cases cause <;> simp [Cause.text, literal]

/-- No cause starts with the text of another one. -/
theorem prefixFree_text : PrefixFree Cause.text := by
  apply prefixFree_of_take (n := 2) (by decide)
  · intro cause
    cases cause <;> simp [Cause.text, literal]
  · intro cause other same
    have starts : cause.text.take 2 = other.text.take 2 := same
    rw [Cause.text_start, Cause.text_start] at starts
    cases cause <;> cases other <;>
      first | rfl | exact absurd starts (by decide)

theorem Cause.text_plain (cause : Cause) :
    Plain cause.text ∧ 0x0A ∉ cause.text := by
  cases cause <;> simp [Cause.text, literal, Plain, percent]

theorem Access.texts_plain (access : Access) :
    (∀ text ∈ access.texts, Plain text) ∧ 0x0A ∉ access.texts.flatten := by
  cases access <;> simp [Access.texts, literal, Plain, percent]

theorem Access.flatten_texts_injective :
    Function.Injective fun access : Access => access.texts.flatten := by
  have length (access : Access) : access.texts.flatten.length =
      match access with
      | instructionFetch => 17
      | write => 10
      | read => 9 := by
    cases access <;> simp [Access.texts, literal]
  intro access other same
  have lengths := congrArg List.length same
  simp only [length] at lengths
  cases access <;> cases other <;>
    first | rfl | exact absurd lengths (by decide)

theorem modeText_plain (user : Bool) : Plain (modeText user) := by
  cases user <;> simp [modeText, literal, Plain, percent]

theorem modeText_injective : Function.Injective modeText := by
  have length (user : Bool) :
      (modeText user).length = if user then 4 else 6 := by
    cases user <;> simp [modeText, literal]
  intro user other same
  have lengths := congrArg List.length same
  rw [length, length] at lengths
  cases user <;> cases other <;>
    first | rfl | exact absurd lengths (by decide)

theorem literal_newline : literal "\n" = [0x0A] := by
  simp [literal]

theorem Report.texts_plain (report : Report) :
    ∀ text ∈ report.texts, Plain text := by
  have causes : ∀ text ∈ report.causes.map Cause.text, Plain text := by
    intro text member
    rcases List.mem_map.mp member with ⟨cause, -, rfl⟩
    exact cause.text_plain.1
  have fixed : ∀ text ∈ [literal "Cause: ", literal "\n", literal "On: ",
      literal "Blame: "], Plain text := by
    simp [literal, Plain, percent]
  simp only [List.forall_mem_cons] at fixed
  rcases fixed with ⟨cause, line, on, blamed, -⟩
  simp only [Report.texts, List.forall_mem_append, List.forall_mem_cons,
    List.not_mem_nil, false_implies, implies_true, and_true]
  exact ⟨⟨⟨⟨⟨⟨cause, causes⟩, line⟩, on⟩, report.access.texts_plain.1⟩,
    line⟩, blamed, modeText_plain report.user⟩

theorem Report.flatten_texts (report : Report) :
    report.texts.flatten =
      literal "Cause: " ++ (report.causes.flatMap Cause.text ++ 0x0A ::
        (literal "On: " ++ (report.access.texts.flatten ++ 0x0A ::
          (literal "Blame: " ++ modeText report.user)))) := by
  simp only [Report.texts, literal_newline, List.flatten_append,
    List.flatten_cons, List.flatten_nil, List.append_nil, List.append_assoc,
    List.flatMap_def, List.cons_append, List.nil_append]

/-- The line of the address ends behind the digits. -/
theorem newline_notMem_numeralText (num : Nat) :
    (0x0A : BitVec 8) ∉ numeralText 16 num := by
  have digits : ∀ digit, digit < 16 → digitChar digit ≠ 0x0A := by
    decide
  intro member
  rcases List.mem_map.mp member with ⟨digit, among, same⟩
  exact digits digit
    (Library.Numeral.lt_base_of_mem_numeral (by decide) among) same

/-- The address can be read back. -/
theorem numeralText_injective : Function.Injective (numeralText 16) := by
  have back (num : Nat) : readText 16 (numeralText 16 num) = num :=
    readText_numeralText (by decide) (by decide)
  intro num other same
  rw [← back num, same, back other]

theorem Report.newline_notMem_causes (report : Report) :
    (0x0A : BitVec 8) ∉ report.causes.flatMap Cause.text := by
  intro member
  rcases List.mem_flatMap.mp member with ⟨cause, -, inText⟩
  exact cause.text_plain.2 inText

/-- A report is determined by its text, whatever stands behind the address. -/
theorem Report.text_injective (stray : List (BitVec 8)) :
    Function.Injective fun report : Report => report.text stray := by
  intro report other same
  rcases line_injective (newline_notMem_numeralText _)
      (newline_notMem_numeralText _) (List.append_cancel_left same) with
    ⟨numerals, behind⟩
  rw [report.flatten_texts, other.flatten_texts] at behind
  rcases cut_injective report.newline_notMem_causes
      other.newline_notMem_causes (List.append_cancel_left behind) with
    ⟨causeTexts, behindCauses⟩
  rcases cut_injective report.access.texts_plain.2 other.access.texts_plain.2
      (List.append_cancel_left behindCauses) with
    ⟨accessTexts, behindAccess⟩
  have address : report.address = other.address :=
    BitVec.eq_of_toNat_eq (numeralText_injective numerals)
  have causes : report.causes = other.causes :=
    prefixFree_text.flatMap_injective causeTexts
  have access : report.access = other.access :=
    Access.flatten_texts_injective accessTexts
  have user : report.user = other.user :=
    modeText_injective (List.append_cancel_left behindAccess)
  cases report
  cases other
  simp only [Report.mk.injEq]
  exact ⟨address, causes, access, user⟩

/-! ## What a report tells -/

/-- Error codes that agree in the bits that are reported. -/
structure ReportedAlike (code other : BitVec 64) : Prop where
  always : ∀ i ∈ [0, 2, 3, 4, 5, 6, 15], code.getLsbD i = other.getLsbD i
  data : code.getLsbD 4 = false → code.getLsbD 1 = other.getLsbD 1

theorem Cause.filter_inOrder_eq_iff (p q : Cause → Bool) :
    inOrder.filter p = inOrder.filter q ↔ ∀ cause, p cause = q cause := by
  constructor
  · intro same cause
    have listed : cause ∈ inOrder := by
      cases cause <;> simp [inOrder]
    have both : cause ∈ inOrder.filter p ↔ cause ∈ inOrder.filter q := by
      rw [same]
    rw [List.mem_filter, List.mem_filter] at both
    rw [Bool.eq_iff_iff]
    exact ⟨fun held => (both.mp ⟨listed, held⟩).2,
      fun held => (both.mpr ⟨listed, held⟩).2⟩
  · exact fun same => List.filter_congr fun cause _ => same cause

theorem Access.of_eq_iff (err other : PageFaultErr) :
    Access.of err = Access.of other ↔
      err.instructionFetch = other.instructionFetch ∧
        (err.instructionFetch = false → err.write = other.write) := by
  cases fetch : err.instructionFetch <;> cases write : err.write <;>
    cases otherFetch : other.instructionFetch <;>
    cases otherWrite : other.write <;>
    simp [Access.of, fetch, write, otherFetch, otherWrite]

/-- Faults with the same report. -/
theorem Report.of_eq_iff (cr2 cr2' : BitVec 64) (r r' : Regs) :
    Report.of cr2 r = Report.of cr2' r' ↔
      cr2 = cr2' ∧ ReportedAlike r.errCode r'.errCode := by
  simp only [Report.of, Report.mk.injEq, Cause.filter_inOrder_eq_iff,
    Access.of_eq_iff]
  constructor
  · rintro ⟨address, causes, ⟨fetch, write⟩, user⟩
    refine ⟨address, ?_, write⟩
    have present := Bool.not_inj (causes .notPresent)
    have reservedSet := causes .reservedSet
    have protKeyViol := causes .protKeyViol
    have shadowStackAcc := causes .shadowStackAcc
    have sgxViol := causes .sgxViol
    simp only [List.forall_mem_cons]
    exact ⟨present, user, reservedSet, fetch, protKeyViol, shadowStackAcc,
      sgxViol, fun _ member => absurd member List.not_mem_nil⟩
  · rintro ⟨address, alike⟩
    have always := alike.always
    simp only [List.forall_mem_cons] at always
    rcases always with ⟨present, user, reservedSet, fetch, protKeyViol,
      shadowStackAcc, sgxViol, -⟩
    refine ⟨address, ?_, ⟨fetch, alike.data⟩, user⟩
    intro cause
    cases cause with
    | notPresent => exact congrArg Bool.not present
    | reservedSet => exact reservedSet
    | protKeyViol => exact protKeyViol
    | shadowStackAcc => exact shadowStackAcc
    | sgxViol => exact sgxViol

/-! ## On the terminal -/

/-- The handler says what its report is made of. -/
theorem pageFaultHandlerCalls_eq (cr2 : BitVec 64) (r : Regs) :
    pageFaultHandlerCalls cr2 r =
      ⟨literal "Page fault at address 0x%x\n", [cr2]⟩ ::
        said (Report.of cr2 r).texts := by
  have causes (err : PageFaultErr) : why err =
      said ([literal "Cause: "] ++
        (Cause.inOrder.filter (Cause.holds err)).map Cause.text ++
          [literal "\n"]) := by
    rcases err with ⟨present, _, _, reserved, _, key, shadow, sgx⟩
    cases present <;> cases reserved <;> cases key <;> cases shadow <;>
      cases sgx <;> rfl
  have access (err : PageFaultErr) : during err =
      said ([literal "On: "] ++ (Access.of err).texts ++
        [literal "\n"]) := by
    rcases err with ⟨_, write, _, _, fetch, _, _, _⟩
    cases fetch <;> cases write <;> rfl
  have mode (err : PageFaultErr) : blame err =
      said [literal "Blame: ", modeText err.user] := by
    rcases err with ⟨_, _, user, _, _, _, _, _⟩
    cases user <;> rfl
  rw [pageFaultHandlerCalls, causes, access, mode]
  simp only [said, Report.texts, Report.of, List.map_append, List.append_assoc]

theorem plain_address : Plain (literal "Page fault at address 0x") := by
  simp [literal, Plain, percent]

/-- The one conversion of the handler. -/
theorem pieces_address :
    pieces (literal "Page fault at address 0x%x\n") =
      (literal "Page fault at address 0x").map .literal ++
        [.hexadecimal, .literal 0x0A] := by
  have spelled : literal "Page fault at address 0x%x\n" =
      literal "Page fault at address 0x" ++ [percent, 0x78, 0x0A] := by
    simp [literal, percent]
  have lineEnd : pieces [0x0A] = [.literal 0x0A] :=
    pieces_literal [] (by decide)
  rw [spelled, pieces_append_of_plain plain_address, pieces_conversion,
    lineEnd]
  rfl

theorem completeFormat_address :
    CompleteFormat (literal "Page fault at address 0x%x\n") := by
  constructor
  · simp [literal]
  · rw [pieces_address, List.all_append, List.all_map]
    simp

/-- The first line of the report. -/
theorem output_address (cr2 : BitVec 64) (frames : Nat → Frame) :
    output (Request.call
        ⟨literal "Page fault at address 0x%x\n", [cr2]⟩ frames) =
      literal "Page fault at address 0x" ++
        (numeralText 16 cr2.toNat ++ ((frames 0).stray ++ [0x0A])) := by
  rw [output, format_call completeFormat_address, pieces_address,
    printed_literals]
  show _ ++ ((numeralText 16 cr2.toNat ++ (frames 0).stray) ++ [0x0A]) = _
  rw [List.append_assoc]

/--
For every page fault, and whatever is on the stack, `page_fault_handler` ends
its report, and a terminal that showed a screen shows the report behind it.
With equal strays the reports of two faults are equal exactly when the faults
were at the same address and agree in the reported bits of their error codes.
-/
theorem page_fault_reported
    {vga : Vga} {screen : TerminalScreen} (shows : Shows vga screen)
    (cr2 : BitVec 64) (r : Regs) (frames : Nat → Nat → Frame) :
    (∃ after,
      printAll vga (callsOn frames (pageFaultHandlerCalls cr2 r)) = some after ∧
      Shows after
        (((Report.of cr2 r).text (frames 0 0).stray).foldl displayChar
          screen)) ∧
    ∀ (cr2' : BitVec 64) (r' : Regs) (stray : List (BitVec 8)),
      (Report.of cr2 r).text stray = (Report.of cr2' r').text stray ↔
        cr2 = cr2' ∧ ReportedAlike r.errCode r'.errCode := by
  constructor
  · have plain := (Report.of cr2 r).texts_plain
    have complete : ∀ request ∈ pageFaultHandlerCalls cr2 r,
        CompleteFormat request.fmt := by
      rw [pageFaultHandlerCalls_eq, List.forall_mem_cons]
      constructor
      · exact completeFormat_address
      · intro request member
        rcases List.mem_map.mp member with ⟨text, among, rfl⟩
        exact completeFormat_of_plain (plain text among)
    have whole : (callsOn frames (pageFaultHandlerCalls cr2 r)).flatMap output =
        (Report.of cr2 r).text (frames 0 0).stray := by
      have rest := flatMap_output_said plain fun i => frames (i + 1)
      rw [pageFaultHandlerCalls_eq, callsOn, List.mapIdx_cons,
        List.flatMap_cons, output_address, Report.text]
      rw [callsOn] at rest
      rw [rest]
      simp only [List.append_assoc, List.cons_append, List.nil_append]
      rfl
    rw [← whole]
    exact printAll_shown shows (not_dangling_callsOn complete frames)
  · intro cr2' r' stray
    rw [← Report.of_eq_iff]
    exact (Report.text_injective stray).eq_iff

/-- A read at the null pointer, and that a write is reported otherwise. -/
theorem page_fault_reported_nullRead :
    (∃ after,
      printAll (Vga.vgaTerminalInitialize ⟨0, 0, 0, fun _ => 0⟩)
          (callsOn (fun _ _ => Call.uniformFrame 0)
            (pageFaultHandlerCalls 0 (interruptedRegs quietCpu 14 0))) =
        some after ∧
      Shows after
        (((Report.of 0 (interruptedRegs quietCpu 14 0)).text []).foldl
          displayChar blankScreen)) ∧
    (Report.of 0 (interruptedRegs quietCpu 14 0)).text [] ≠
      (Report.of 0 (interruptedRegs quietCpu 14 2)).text [] := by
  rcases page_fault_reported
      (shows_vgaTerminalInitialize ⟨0, 0, 0, fun _ => 0⟩) 0
      (interruptedRegs quietCpu 14 0) (fun _ _ => Call.uniformFrame 0) with
    ⟨shown, told⟩
  refine ⟨shown, fun same => ?_⟩
  have alike := ((told _ _ _).mp same).2.data (by decide)
  exact absurd alike (by decide)

end Kernull.PageFault
