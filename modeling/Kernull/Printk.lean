import Mathlib.Data.List.GetD
import Kernull.Itoa
import Kernull.VgaPrint

/-!
# Formatted printing

`vprintk` of `kernel/printk.c`.  The scan position is advanced once behind a
`%` and once at the end of every round, so a `%` that ends the format takes
the scan past the terminator.  The format is read as a list of pieces; what
the loop prints for each piece is compared with what the piece stands for.
-/

namespace Kernull.Printk

open Kernull.Library.ByteMemory
open Kernull.Itoa
open Kernull.VgaPrint

/-! ## The loop of the source -/

/-- `'%'`. -/
def percent : BitVec 8 := 0x25

/--
What `va_arg` finds in one place of the list: a word, and the string that the
word points to where it is taken as a `char *`.
-/
structure VaArg where
  word : BitVec 64
  string : CString

/-- The stack around `char str[24]` when a number is printed. -/
structure Frame where
  memory : Memory
  str : Nat
  positive : 0 < str
  fits : str + 24 ≤ 2 ^ 64

/-- `char str[24] = {0}`. -/
def Frame.cleared (frame : Frame) : Memory := fun address =>
  if frame.str ≤ address ∧ address < frame.str + 24 then 0
  else frame.memory address

/--
The characters from an address up to the first zero, where there is one within
`limit` bytes.
-/
def stringAt (memory : Memory) : Nat → Nat → Option (List (BitVec 8))
  | _, 0 => none
  | address, limit + 1 =>
      if memory address = 0 then
        some []
      else do
        let others ← stringAt memory (address + 1) limit
        some (memory address :: others)

/-- The characters of a C string. -/
def characters (s : CString) : List (BitVec 8) :=
  (List.range (strlen s)).map s.bytes

/-- `vga_print` hands the characters of its string to `vga_putchar`. -/
theorem vgaPrint_eq_foldl (vga : Vga) (s : CString) :
    vga.vgaPrint s = (characters s).foldl Vga.vgaPutchar vga := by
  rw [characters, List.foldl_map]
  rfl

/--
A call of `vprintk`: the format, the places of the argument list, and the
stack at the time each of the places is printed as a number.
-/
structure Call where
  fmt : CString
  list : Nat → VaArg
  frames : Nat → Frame

/--
The scan: the position of `c` in the format, the number of arguments taken,
the characters given to `vga_putchar`, directly or by `vga_print`, and the
positions of the format that were read.
-/
structure Scan where
  c : Nat
  taken : Nat
  passed : List (BitVec 8)
  reads : List Nat

namespace Scan

/-- The scan at the entry of `vprintk`. -/
def start : Scan where
  c := 0
  taken := 0
  passed := []
  reads := []

/-- Read the format at the position of the scan. -/
def read (scan : Scan) : Scan :=
  { scan with reads := scan.reads ++ [scan.c] }

/-- `++c`. -/
def step (scan : Scan) : Scan :=
  { scan with c := scan.c + 1 }

/-- Give characters to the terminal. -/
def pass (scan : Scan) (text : List (BitVec 8)) : Scan :=
  { scan with passed := scan.passed ++ text }

/-- `va_arg` moves on to the next argument. -/
def take (scan : Scan) : Scan :=
  { scan with taken := scan.taken + 1 }

end Scan

namespace Call

/-- The characters that `%d` and `%x` print. -/
def number (call : Call) (base place : Nat) : Option (List (BitVec 8)) := do
  let frame := call.frames place
  let num := (call.list place).word.toNat
  let after ← itoa frame.str num base frame.cleared
  stringAt after frame.str 24

/-- The `switch` on the character behind a `%`. -/
def convert (call : Call) (scan : Scan) : Option Scan :=
  let letter := call.fmt.bytes scan.c
  let argument := call.list scan.taken
  if letter = 0x63 then
    some (scan.take.pass [argument.word.setWidth 8])
  else if letter = 0x64 then do
    let text ← call.number 10 scan.taken
    some (scan.take.pass text)
  else if letter = 0x73 then
    some (scan.take.pass (characters argument.string))
  else if letter = 0x78 then do
    let text ← call.number 16 scan.taken
    some (scan.take.pass text)
  else
    some scan

/-- One round of the loop of `vprintk`, after the test of `*c`. -/
def round (call : Call) (scan : Scan) : Option Scan :=
  if call.fmt.bytes scan.c = percent then do
    let scan ← call.convert scan.step.read
    some scan.step
  else
    some (scan.pass [call.fmt.bytes scan.c]).step

/-- The loop of `vprintk`; there is no result while it goes on. -/
def loop (call : Call) : Nat → Scan → Option Scan
  | 0, _ => none
  | rounds + 1, scan =>
      let scan := scan.read
      if call.fmt.bytes scan.c = 0 then
        some scan
      else do
        let scan ← call.round scan
        call.loop rounds scan

/-- `vprintk`, with a bound on the number of rounds. -/
def vprintk (call : Call) (rounds : Nat) : Option Scan :=
  call.loop rounds Scan.start

end Call

/-! ## What a number prints -/

/-- A string that ends within the limit is read whole. -/
theorem stringAt_of_holdsString
    {memory : Memory} {address limit : Nat} {text : List (BitVec 8)}
    (holds : HoldsString memory address text)
    (inside : text.length < limit) :
    stringAt memory address limit = some text := by
  induction text generalizing address limit with
  | nil =>
      cases limit with
      | zero => exact absurd inside (Nat.not_lt_zero _)
      | succ limit =>
          rw [stringAt]
          exact if_pos holds.terminator
  | cons first others inductionHypothesis =>
      cases limit with
      | zero => exact absurd inside (Nat.not_lt_zero _)
      | succ limit =>
          rw [stringAt, if_neg holds.head_ne_zero,
            inductionHypothesis holds.tail (Nat.lt_of_succ_lt_succ inside),
            holds.head]
          rfl

/--
The byte before `str`, which `itoa` brings behind the number, as it is
printed: a zero ends the string there.
-/
def Frame.stray (frame : Frame) : List (BitVec 8) :=
  if frame.memory (frame.str - 1) = 0 then []
  else [frame.memory (frame.str - 1)]

/-- Numbers of 64 bits fit in `str` in base ten and above. -/
theorem numeralText_length_le_twenty
    {base : Nat} (atLeastTen : 10 ≤ base) (word : BitVec 64) :
    (numeralText base word.toNat).length ≤ 20 := by
  have power : 10 ^ 20 ≤ base ^ 20 := Nat.pow_le_pow_left atLeastTen 20
  have small := word.isLt
  rw [numeralText_length]
  exact
    Library.Numeral.numeral_length_le (by omega) (by decide) (by omega)

/-- `itoa` in a cleared `str` prints the number and the stray byte. -/
theorem holdsString_of_printed
    {frame : Frame} {after : Memory} {text : List (BitVec 8)}
    (printed : Printed frame.cleared after frame.str text)
    (nonzero : ∀ c ∈ text, c ≠ 0) (short : text.length ≤ 20) :
    HoldsString after frame.str (text ++ frame.stray) := by
  have before : frame.cleared (frame.str - 1) =
      frame.memory (frame.str - 1) := by
    have positive := frame.positive
    exact if_neg (by omega)
  have behind := printed.behind
  rw [before] at behind
  rw [Frame.stray]
  split_ifs with zero
  · rw [List.append_nil]
    exact ⟨printed.bytes, nonzero, by rw [behind, zero]⟩
  · constructor
    · intro i bound
      rw [List.getElem_append]
      split_ifs with early
      · exact printed.bytes i early
      · have last : i = text.length := by
          rw [List.length_append, List.length_singleton] at bound
          omega
        subst last
        rw [behind, List.getElem_singleton]
    · intro c member
      cases List.mem_append.mp member with
      | inl inText => exact nonzero c inText
      | inr single =>
          rw [List.mem_singleton.mp single]
          exact zero
    · rw [List.length_append, List.length_singleton,
        printed.rest _ (by omega)]
      exact if_pos (by omega)

/-- The characters of `%d` and `%x`: the numeral and then the stray byte. -/
theorem number_eq
    (call : Call) (place : Nat) {base : Nat}
    (atLeastTen : 10 ≤ base) (atMost : base ≤ 16) :
    call.number base place =
      some
        (numeralText base (call.list place).word.toNat ++
          (call.frames place).stray) := by
  have short :=
    numeralText_length_le_twenty atLeastTen (call.list place).word
  have fits := (call.frames place).fits
  rcases itoa_printed (call.frames place).cleared
      (call.frames place).positive (by omega) atMost
      (call.list place).word.isLt (by omega) with
    ⟨after, run, printed⟩
  have nonzero :
      ∀ c ∈ numeralText base (call.list place).word.toNat, c ≠ 0 :=
    numeralText_nonzero (by omega) atMost
  have string := holdsString_of_printed printed nonzero short
  have strayShort : (call.frames place).stray.length ≤ 1 := by
    rw [Frame.stray]
    split_ifs <;> simp
  have inside :
      (numeralText base (call.list place).word.toNat ++
        (call.frames place).stray).length < 24 := by
    rw [List.length_append]
    omega
  rw [Call.number]
  simp only [run, Option.bind_eq_bind, Option.bind_some]
  exact stringAt_of_holdsString string inside

/-! ## The pieces of a format -/

/-- What a format is made of. -/
inductive Piece where
  | literal (c : BitVec 8)
  | char
  | decimal
  | string
  | hexadecimal
  | percent
  | unknown (letter : BitVec 8)
  | dangling

/-- The piece that a `%` and the character behind it make. -/
def conversion (letter : BitVec 8) : Piece :=
  if letter = 0x63 then .char
  else if letter = 0x64 then .decimal
  else if letter = 0x73 then .string
  else if letter = 0x78 then .hexadecimal
  else if letter = percent then .percent
  else .unknown letter

/-- The pieces of a format; a `%` at its end is `dangling`. -/
def pieces : List (BitVec 8) → List Piece
  | [] => []
  | c :: rest =>
      if c = percent then
        match rest with
        | [] => [.dangling]
        | letter :: rest => conversion letter :: pieces rest
      else
        .literal c :: pieces rest

@[simp]
theorem pieces_nil : pieces [] = [] :=
  rfl

@[simp]
theorem pieces_dangling : pieces [percent] = [.dangling] :=
  if_pos rfl

@[simp]
theorem pieces_conversion (letter : BitVec 8) (rest : List (BitVec 8)) :
    pieces (percent :: letter :: rest) =
      conversion letter :: pieces rest :=
  if_pos rfl

theorem pieces_literal
    {c : BitVec 8} (rest : List (BitVec 8)) (ordinary : c ≠ percent) :
    pieces (c :: rest) = .literal c :: pieces rest := by
  rw [pieces.eq_def]
  exact if_neg ordinary

namespace Piece

/-- The number of arguments that a piece takes. -/
def arguments : Piece → Nat
  | .char | .decimal | .string | .hexadecimal => 1
  | .literal _ | .percent | .unknown _ | .dangling => 0

/-- What a piece stands for. -/
def expansion (argument : VaArg) : Piece → List (BitVec 8)
  | .literal c => [c]
  | .char => [argument.word.setWidth 8]
  | .decimal => numeralText 10 argument.word.toNat
  | .string => characters argument.string
  | .hexadecimal => numeralText 16 argument.word.toNat
  | .percent => [Printk.percent]
  | .unknown _ => []
  | .dangling => []

/-- What `vprintk` prints for a piece. -/
def printed (argument : VaArg) (frame : Frame) : Piece → List (BitVec 8)
  | .literal c => [c]
  | .char => [argument.word.setWidth 8]
  | .decimal => numeralText 10 argument.word.toNat ++ frame.stray
  | .string => characters argument.string
  | .hexadecimal => numeralText 16 argument.word.toNat ++ frame.stray
  | .percent => []
  | .unknown _ => []
  | .dangling => []

end Piece

/-- The arguments that a list of pieces takes. -/
def argumentCount (list : List Piece) : Nat :=
  (list.map Piece.arguments).sum

/-- The pieces that print a number. -/
def Piece.isNumber : Piece → Bool
  | .decimal | .hexadecimal => true
  | _ => false

/-- A `%%`. -/
def Piece.isPercent : Piece → Bool
  | .percent => true
  | _ => false

namespace Call

/-- What a list of pieces stands for, from a place of the arguments on. -/
def expansion (call : Call) : List Piece → Nat → List (BitVec 8)
  | [], _ => []
  | piece :: others, place =>
      piece.expansion (call.list place) ++
        call.expansion others (place + piece.arguments)

/-- What `vprintk` prints for a list of pieces. -/
def printed (call : Call) : List Piece → Nat → List (BitVec 8)
  | [], _ => []
  | piece :: others, place =>
      piece.printed (call.list place) (call.frames place) ++
        call.printed others (place + piece.arguments)

/-- The pieces of the format. -/
def format (call : Call) : List Piece :=
  pieces (characters call.fmt)

end Call

/-! ## The run of the loop -/

/-- The characters of a C string stand in front of its terminator. -/
theorem characters_holdsString (s : CString) :
    HoldsString s.bytes 0 (characters s) := by
  have length : (characters s).length = strlen s := by
    rw [characters, List.length_map, List.length_range]
  constructor
  · intro i bound
    simp [characters]
  · intro c member
    rcases List.mem_map.mp member with ⟨i, inside, equal⟩
    rw [← equal]
    exact Nat.find_min s.terminated (List.mem_range.mp inside)
  · rw [length, Nat.zero_add]
    exact Nat.find_spec s.terminated

namespace Call

variable {call : Call} {scan final : Scan} {rounds : Nat}

/-- The scan after an ordinary character. -/
def afterLiteral (scan : Scan) (c : BitVec 8) : Scan :=
  { scan with c := scan.c + 1, passed := scan.passed ++ [c] }

/-- The scan after a `%` and the character behind it. -/
def afterConversion (call : Call) (scan : Scan) (piece : Piece) : Scan where
  c := scan.c + 2
  taken := scan.taken + piece.arguments
  passed :=
    scan.passed ++
      piece.printed (call.list scan.taken) (call.frames scan.taken)
  reads := scan.reads ++ [scan.c + 1]

theorem round_of_literal (ordinary : call.fmt.bytes scan.c ≠ percent) :
    call.round scan =
      some (afterLiteral scan (call.fmt.bytes scan.c)) :=
  if_neg ordinary

/-- The `switch` does what is printed for the piece of the letter. -/
theorem convert_eq (call : Call) (scan : Scan) :
    call.convert scan =
      some
        { scan with
          taken :=
            scan.taken + (conversion (call.fmt.bytes scan.c)).arguments
          passed :=
            scan.passed ++
              (conversion (call.fmt.bytes scan.c)).printed
                (call.list scan.taken) (call.frames scan.taken) } := by
  have decimal :=
    number_eq call scan.taken (Nat.le_refl 10) (by decide : 10 ≤ 16)
  have hexadecimal :=
    number_eq call scan.taken (by decide : 10 ≤ 16) (Nat.le_refl 16)
  rw [convert, decimal, hexadecimal]
  simp only [conversion]
  split_ifs <;>
    simp [Piece.arguments, Piece.printed, Scan.take, Scan.pass]

theorem round_of_percent (marked : call.fmt.bytes scan.c = percent) :
    call.round scan =
      some
        (call.afterConversion scan
          (conversion (call.fmt.bytes (scan.c + 1)))) := by
  rw [round, if_pos marked, convert_eq]
  rfl

/-- A round forgets no position that was read. -/
theorem mem_reads_round {next : Scan}
    (run : call.round scan = some next) {position : Nat}
    (member : position ∈ scan.reads) : position ∈ next.reads := by
  by_cases marked : call.fmt.bytes scan.c = percent
  · rw [round_of_percent marked, Option.some_inj] at run
    subst run
    exact List.mem_append_left _ member
  · rw [round_of_literal marked, Option.some_inj] at run
    subst run
    exact member

/-- The loop, unfolded once where it is not at a zero. -/
theorem loop_succ (nonzero : call.fmt.bytes scan.c ≠ 0) :
    call.loop (rounds + 1) scan =
      (call.round scan.read).bind (call.loop rounds) := by
  rw [loop]
  exact if_neg nonzero

theorem loop_of_zero (zero : call.fmt.bytes scan.c = 0) :
    call.loop (rounds + 1) scan = some scan.read := by
  rw [loop]
  exact if_pos zero

/-- What a finished run has read includes what was read before it. -/
theorem mem_reads_of_loop
    (run : call.loop rounds scan = some final) {position : Nat}
    (member : position ∈ scan.reads ∨ position = scan.c) :
    position ∈ final.reads := by
  induction rounds generalizing scan with
  | zero => exact nomatch run
  | succ rounds inductionHypothesis =>
      have readHere : position ∈ scan.read.reads := by
        apply List.mem_append.mpr
        rwa [List.mem_singleton]
      by_cases zero : call.fmt.bytes scan.c = 0
      · rw [loop_of_zero zero, Option.some_inj] at run
        subst run
        exact readHere
      · rw [loop_succ zero] at run
        rcases Option.bind_eq_some_iff.mp run with ⟨next, first, others⟩
        exact
          inductionHypothesis others
            (Or.inl (mem_reads_round first readHere))

/-- A conversion is never a `%` without a letter. -/
theorem conversion_ne_dangling (letter : BitVec 8) :
    conversion letter ≠ .dangling := by
  rw [conversion]
  split_ifs <;> exact nofun

/-- What a run over some pieces does, which stand in so many characters. -/
structure Interprets
    (call : Call) (scan final : Scan) (list : List Piece)
    (length : Nat) : Prop where
  taken : final.taken = scan.taken + argumentCount list
  passed : final.passed = scan.passed ++ call.printed list scan.taken
  reads :
    ∀ position ∈ final.reads,
      position ∈ scan.reads ∨ position ≤ scan.c + length

theorem Interprets.literal
    {c : BitVec 8} {others : List Piece} {length : Nat}
    (rest :
      Interprets call (afterLiteral scan.read c) final others length) :
    Interprets call scan final (.literal c :: others) (length + 1) where
  taken := by
    rw [rest.taken, argumentCount, argumentCount, List.map_cons,
      List.sum_cons, Piece.arguments, Nat.zero_add]
    rfl
  passed := by
    rw [rest.passed, afterLiteral, List.append_assoc]
    rfl
  reads := by
    intro position member
    cases rest.reads position member with
    | inl earlier =>
        apply (List.mem_append.mp earlier).imp_right
        intro here
        rw [List.mem_singleton.mp here]
        exact Nat.le_add_right _ _
    | inr later =>
        right
        rwa [show scan.c + (length + 1) = scan.c + 1 + length by omega]

theorem Interprets.conversion
    {piece : Piece} {others : List Piece} {length : Nat}
    (rest :
      Interprets call (call.afterConversion scan.read piece) final others
        length) :
    Interprets call scan final (piece :: others) (length + 2) where
  taken := by
    rw [rest.taken, argumentCount, argumentCount, List.map_cons,
      List.sum_cons, ← Nat.add_assoc]
    rfl
  passed := by
    rw [rest.passed, afterConversion, List.append_assoc]
    rfl
  reads := by
    intro position member
    cases rest.reads position member with
    | inl earlier =>
        cases List.mem_append.mp earlier with
        | inl before =>
            apply (List.mem_append.mp before).imp_right
            intro here
            rw [List.mem_singleton.mp here]
            exact Nat.le_add_right _ _
        | inr behind =>
            right
            rw [List.mem_singleton.mp behind]
            exact Nat.add_le_add_left (by omega) scan.c
    | inr later =>
        right
        rwa [show scan.c + (length + 2) = scan.c + 2 + length by omega]

/--
In a format without a `%` at its end the loop stops at the terminator, having
printed the pieces one after the other.
-/
theorem loop_of_complete
    {text : List (BitVec 8)}
    (spelled : HoldsString call.fmt.bytes scan.c text)
    (complete : Piece.dangling ∉ pieces text)
    (enough : text.length < rounds) :
    ∃ final,
      call.loop rounds scan = some final ∧
        Interprets call scan final (pieces text) text.length := by
  induction rounds generalizing text scan with
  | zero => exact absurd enough (Nat.not_lt_zero _)
  | succ rounds inductionHypothesis =>
      cases text using pieces.fun_cases with
      | case1 =>
          refine ⟨scan.read, loop_of_zero spelled.terminator, rfl, ?_, ?_⟩
          · exact (List.append_nil _).symm
          · intro position member
            apply (List.mem_append.mp member).imp_right
            intro here
            exact Nat.le_of_eq (List.mem_singleton.mp here)
      | case2 =>
          exfalso
          apply complete
          rw [pieces_dangling]
          exact List.mem_singleton_self _
      | case3 letter rest =>
          have marked : call.fmt.bytes scan.read.c = percent :=
            spelled.head
          have letterHere : call.fmt.bytes (scan.read.c + 1) = letter :=
            spelled.tail.head
          rw [pieces_conversion] at complete ⊢
          rw [loop_succ spelled.head_ne_zero, round_of_percent marked,
            letterHere, Option.bind_some]
          rw [List.length_cons, List.length_cons] at enough
          have rest :
              ∃ final,
                call.loop rounds
                    (call.afterConversion scan.read (conversion letter)) =
                    some final ∧
                  Interprets call
                    (call.afterConversion scan.read (conversion letter))
                    final (pieces rest) rest.length :=
            inductionHypothesis spelled.tail.tail
              (fun member => complete (List.mem_cons_of_mem _ member))
              (by omega)
          rcases rest with ⟨final, run, interprets⟩
          exact ⟨final, run, interprets.conversion⟩
      | case4 c rest ordinary =>
          have here : call.fmt.bytes scan.read.c = c := spelled.head
          have notPercent : call.fmt.bytes scan.read.c ≠ percent := by
            rw [here]
            exact ordinary
          rw [pieces_literal rest ordinary] at complete ⊢
          rw [loop_succ spelled.head_ne_zero, round_of_literal notPercent,
            here, Option.bind_some]
          rw [List.length_cons] at enough
          have rest :
              ∃ final,
                call.loop rounds (afterLiteral scan.read c) = some final ∧
                  Interprets call (afterLiteral scan.read c) final
                    (pieces rest) rest.length :=
            inductionHypothesis spelled.tail
              (fun member => complete (List.mem_cons_of_mem _ member))
              (by omega)
          rcases rest with ⟨final, run, interprets⟩
          exact ⟨final, run, interprets.literal⟩

/--
In a format with a `%` at its end the loop, if it stops at all, has read behind
the terminator.
-/
theorem mem_reads_of_dangling
    {text : List (BitVec 8)}
    (spelled : HoldsString call.fmt.bytes scan.c text)
    (dangling : Piece.dangling ∈ pieces text)
    (run : call.loop rounds scan = some final) :
    scan.c + text.length + 1 ∈ final.reads := by
  induction rounds generalizing text scan with
  | zero => exact nomatch run
  | succ rounds inductionHypothesis =>
      cases text using pieces.fun_cases with
      | case1 => exact absurd dangling List.not_mem_nil
      | case2 =>
          have marked : call.fmt.bytes scan.read.c = percent :=
            spelled.head
          rw [loop_succ spelled.head_ne_zero, round_of_percent marked,
            Option.bind_some] at run
          exact mem_reads_of_loop run (Or.inr rfl)
      | case3 letter rest =>
          have marked : call.fmt.bytes scan.read.c = percent :=
            spelled.head
          rw [pieces_conversion] at dangling
          have later :=
            List.mem_of_ne_of_mem (conversion_ne_dangling letter).symm
              dangling
          rw [loop_succ spelled.head_ne_zero, round_of_percent marked,
            Option.bind_some] at run
          have behind :=
            inductionHypothesis spelled.tail.tail later run
          rwa [show scan.c + (percent :: letter :: rest).length + 1 =
            scan.c + 2 + rest.length + 1 by
              rw [List.length_cons, List.length_cons]
              omega]
      | case4 c rest ordinary =>
          have notPercent : call.fmt.bytes scan.read.c ≠ percent := by
            rw [show call.fmt.bytes scan.read.c = c from spelled.head]
            exact ordinary
          rw [pieces_literal rest ordinary] at dangling
          have different : Piece.dangling ≠ .literal c := nofun
          have later := List.mem_of_ne_of_mem different dangling
          rw [loop_succ spelled.head_ne_zero, round_of_literal notPercent,
            Option.bind_some] at run
          have behind := inductionHypothesis spelled.tail later run
          rwa [show scan.c + (c :: rest).length + 1 =
            scan.c + 1 + rest.length + 1 by
              rw [List.length_cons]
              omega]

/-- More rounds do not change what a run that stops does. -/
theorem loop_mono
    (run : call.loop rounds scan = some final) (more : Nat) :
    call.loop (rounds + more) scan = some final := by
  induction rounds generalizing scan with
  | zero => exact nomatch run
  | succ rounds inductionHypothesis =>
      rw [Nat.succ_add]
      by_cases zero : call.fmt.bytes scan.c = 0
      · rw [loop_of_zero zero] at run ⊢
        exact run
      · rw [loop_succ zero] at run ⊢
        rcases Option.bind_eq_some_iff.mp run with ⟨next, first, others⟩
        apply Option.bind_eq_some_iff.mpr
        exact ⟨next, first, inductionHypothesis others⟩

/-! ## What is printed and what should be -/

/--
`vprintk` terminates, reads nothing behind the terminator of the format, takes
an argument for each conversion and prints what the format stands for.
-/
def Interpreted (call : Call) : Prop :=
  ∃ rounds final,
    call.vprintk rounds = some final ∧
      (∀ position ∈ final.reads, position ≤ strlen call.fmt) ∧
      final.taken = argumentCount call.format ∧
      final.passed = call.expansion call.format 0

theorem characters_length (s : CString) :
    (characters s).length = strlen s := by
  rw [characters, List.length_map, List.length_range]

/-- The run over a whole format without a `%` at its end. -/
theorem vprintk_of_complete (complete : Piece.dangling ∉ call.format) :
    ∃ final,
      call.vprintk (strlen call.fmt + 1) = some final ∧
        Interprets call Scan.start final call.format (strlen call.fmt) := by
  rw [← characters_length]
  exact
    loop_of_complete (characters_holdsString call.fmt) complete
      (Nat.lt_succ_self _)

/-- The format is interpreted where it is complete and printed right. -/
theorem interpreted_iff :
    call.Interpreted ↔
      Piece.dangling ∉ call.format ∧
        call.printed call.format 0 = call.expansion call.format 0 := by
  constructor
  · rintro ⟨rounds, final, run, reads, taken, passed⟩
    have complete : Piece.dangling ∉ call.format := by
      intro dangling
      have spelled :
          HoldsString call.fmt.bytes Scan.start.c (characters call.fmt) :=
        characters_holdsString call.fmt
      have behind := mem_reads_of_dangling spelled dangling run
      have bounded := reads _ behind
      rw [characters_length, Scan.start] at bounded
      omega
    rcases vprintk_of_complete complete with ⟨other, otherRun, interprets⟩
    have longer := loop_mono otherRun rounds
    rw [Nat.add_comm] at longer
    have same : final = other :=
      Option.some_inj.mp ((loop_mono run _).symm.trans longer)
    constructor
    · exact complete
    · rw [← passed, same]
      exact interprets.passed.symm
  · rintro ⟨complete, right⟩
    rcases vprintk_of_complete complete with ⟨final, run, interprets⟩
    refine ⟨_, final, run, ?_, ?_, ?_⟩
    · intro position member
      cases interprets.reads position member with
      | inl earlier => exact absurd earlier List.not_mem_nil
      | inr inside => rwa [Scan.start, Nat.zero_add] at inside
    · rw [interprets.taken]
      exact Nat.zero_add _
    · rw [interprets.passed, ← right]
      rfl

/-- Pieces that print what they stand for print the whole format right. -/
theorem printed_eq_expansion
    {list : List Piece}
    (right : ∀ piece ∈ list, ∀ place,
      piece.printed (call.list place) (call.frames place) =
        piece.expansion (call.list place))
    (place : Nat) :
    call.printed list place = call.expansion list place := by
  induction list generalizing place with
  | nil => rfl
  | cons piece others inductionHypothesis =>
      rw [Call.printed, Call.expansion,
        right piece List.mem_cons_self place]
      congr 1
      apply inductionHypothesis
      intro other member
      exact right other (List.mem_cons_of_mem piece member)

/--
Where every stray byte prints as many characters, what is printed is short by
the `%%` and long by the stray bytes of the numbers.
-/
theorem printed_length
    {extra : Nat} (list : List Piece)
    (stray : ∀ place, (call.frames place).stray.length = extra)
    (place : Nat) :
    (call.printed list place).length + list.countP Piece.isPercent =
      (call.expansion list place).length +
        extra * list.countP Piece.isNumber := by
  induction list generalizing place with
  | nil => rfl
  | cons piece others inductionHypothesis =>
      have rest := inductionHypothesis (place + piece.arguments)
      rw [Call.printed, Call.expansion, List.length_append,
        List.length_append, List.countP_cons, List.countP_cons]
      cases piece <;>
        simp only [Piece.printed, Piece.expansion, Piece.isPercent,
          Piece.isNumber, List.length_append, stray, List.length_nil,
          List.length_singleton, if_true, Bool.false_eq_true, if_false,
          Nat.mul_add, Nat.mul_one, Nat.add_zero] <;>
        omega

/-- Only a `%%` and the numbers are not printed as they should be. -/
theorem printed_of_faithful
    {piece : Piece} (argument : VaArg) (frame : Frame)
    (notPercent : piece ≠ .percent)
    (clean : frame.stray = [] ∨ piece.isNumber = false) :
    piece.printed argument frame = piece.expansion argument := by
  cases clean with
  | inl empty =>
      cases piece <;>
        simp_all [Piece.printed, Piece.expansion]
  | inr noNumber =>
      cases piece <;>
        simp_all [Piece.printed, Piece.expansion, Piece.isNumber]

/-- No `%%` in a list that is printed as long as it should be. -/
theorem percents_of_length
    {list : List Piece} {place extra : Nat}
    (stray : ∀ place, (call.frames place).stray.length = extra)
    (right : call.printed list place = call.expansion list place) :
    list.countP Piece.isPercent = extra * list.countP Piece.isNumber := by
  have lengths := printed_length list stray place
  rw [right] at lengths
  exact Nat.add_left_cancel lengths

theorem eq_percent_of_isPercent
    {piece : Piece} (marked : piece.isPercent = true) :
    piece = .percent := by
  cases piece with
  | percent => rfl
  | _ => exact nomatch marked

theorem ne_percent_of_countP
    {list : List Piece} (none : list.countP Piece.isPercent = 0)
    {piece : Piece} (member : piece ∈ list) : piece ≠ .percent := by
  intro same
  have counted := List.countP_eq_zero.mp none piece member
  rw [same] at counted
  exact counted rfl

/-- A zero before `str` adds nothing to a number. -/
theorem stray_of_zero {frame : Frame}
    (zero : frame.memory (frame.str - 1) = 0) : frame.stray = [] :=
  if_pos zero

/--
Without a `%` at the end and a `%%`, a format is interpreted when a number in
it is printed with no stray byte behind it.
-/
theorem interpreted_of_clean
    (regular : ∀ piece ∈ call.format, piece ≠ .dangling ∧ piece ≠ .percent)
    (clean : ∀ piece ∈ call.format, ∀ place,
      (call.frames place).stray = [] ∨ piece.isNumber = false) :
    call.Interpreted := by
  apply interpreted_iff.mpr
  constructor
  · intro dangling
    exact (regular .dangling dangling).1 rfl
  · apply printed_eq_expansion
    intro piece member place
    exact
      printed_of_faithful _ _ (regular piece member).2
        (clean piece member place)

/--
With zeros before `str`, exactly the formats without a `%` at the end and
without a `%%` are interpreted.
-/
theorem interpreted_of_zeros_iff
    (zeros : ∀ place,
      (call.frames place).memory ((call.frames place).str - 1) = 0) :
    call.Interpreted ↔
      ∀ piece ∈ call.format, piece ≠ .dangling ∧ piece ≠ .percent := by
  have empty : ∀ place, (call.frames place).stray = [] :=
    fun place => stray_of_zero (zeros place)
  constructor
  · intro interpreted piece member
    rcases interpreted_iff.mp interpreted with ⟨complete, right⟩
    have lengths : ∀ place, (call.frames place).stray.length = 0 :=
      fun place => congrArg List.length (empty place)
    have none := percents_of_length lengths right
    rw [Nat.zero_mul] at none
    constructor
    · intro same
      exact complete (same ▸ member)
    · exact ne_percent_of_countP none member
  · intro regular
    apply interpreted_of_clean regular
    intro _ _ place
    exact Or.inl (empty place)

/-- A stack of one byte value, with `str` in it. -/
def uniformFrame (value : BitVec 8) : Frame where
  memory := fun _ => value
  str := 0x1000
  positive := by decide
  fits := by decide

/--
Whatever is on the stack, exactly the formats without a `%` at the end,
without a `%%` and without numbers are interpreted.
-/
theorem interpreted_on_every_stack_iff (fmt : CString) (list : Nat → VaArg) :
    (∀ frames, Interpreted { fmt := fmt, list := list, frames := frames }) ↔
      ∀ piece ∈ pieces (characters fmt),
        piece ≠ .dangling ∧ piece ≠ .percent ∧ piece.isNumber = false := by
  constructor
  · intro interpreted piece member
    have onZeros :=
      (interpreted_of_zeros_iff (fun _ => rfl)).mp
        (interpreted fun _ => uniformFrame 0)
    have noPercents :
        (pieces (characters fmt)).countP Piece.isPercent = 0 := by
      apply List.countP_eq_zero.mpr
      intro other otherMember marked
      exact (onZeros other otherMember).2 (eq_percent_of_isPercent marked)
    -- a stray byte behind every number makes up for a missing `%` each
    have onNoise :=
      (interpreted_iff.mp (interpreted fun _ => uniformFrame 0x21)).2
    have percents := percents_of_length (fun _ => rfl) onNoise
    have noNumbers :
        (pieces (characters fmt)).countP Piece.isNumber = 0 := by
      rw [← Nat.one_mul (List.countP _ _)]
      exact percents.symm.trans noPercents
    constructor
    · exact (onZeros piece member).1
    constructor
    · exact (onZeros piece member).2
    · exact
        Bool.eq_false_iff.mpr (List.countP_eq_zero.mp noNumbers piece member)
  · intro regular frames
    apply interpreted_of_clean
    · intro piece member
      exact ⟨(regular piece member).1, (regular piece member).2.1⟩
    · intro piece member _
      exact Or.inr (regular piece member).2.2

/--
What `printk` promises of its format, for every argument list: whatever is on
the stack, exactly the formats without a `%` at the end, without a `%%` and
without numbers are interpreted; with zeros before `str`, numbers are as well.
-/
theorem vprintk_interprets_iff (fmt : CString) (list : Nat → VaArg) :
    ((∀ frames,
        Interpreted { fmt := fmt, list := list, frames := frames }) ↔
      ∀ piece ∈ pieces (characters fmt),
        piece ≠ .dangling ∧ piece ≠ .percent ∧ piece.isNumber = false) ∧
    ∀ frames : Nat → Frame,
      (∀ place, (frames place).memory ((frames place).str - 1) = 0) →
      (Interpreted { fmt := fmt, list := list, frames := frames } ↔
        ∀ piece ∈ pieces (characters fmt),
          piece ≠ .dangling ∧ piece ≠ .percent) := by
  constructor
  · exact interpreted_on_every_stack_iff fmt list
  · intro frames zeros
    exact interpreted_of_zeros_iff zeros

end Call

/-! ## Formats that are interpreted and that are not -/

/-- The C string of some characters, with zeros behind it. -/
def cString (text : List (BitVec 8)) : CString where
  bytes := fun i => text.getD i 0
  terminated := ⟨text.length, List.getD_eq_default _ _ (Nat.le_refl _)⟩

theorem cString_bytes (text : List (BitVec 8)) (i : Nat) :
    (cString text).bytes i = text.getD i 0 :=
  rfl

theorem characters_cString
    {text : List (BitVec 8)} (nonzero : ∀ c ∈ text, c ≠ 0) :
    characters (cString text) = text := by
  have length : strlen (cString text) = text.length := by
    apply (Nat.find_eq_iff _).mpr
    constructor
    · exact List.getD_eq_default _ _ (Nat.le_refl _)
    · intro i inside
      rw [cString_bytes, List.getD_eq_getElem _ _ inside]
      exact nonzero _ (List.getElem_mem inside)
  apply List.ext_getElem
  · rw [Call.characters_length, length]
  · intro i left inside
    have value : (characters (cString text))[i] = text.getD i 0 := by
      simp only [characters, List.getElem_map, List.getElem_range,
        cString_bytes]
    rw [value]
    exact List.getD_eq_getElem _ _ inside

/-- `%d` prints its number where the byte before `str` is zero. -/
theorem vprintk_interprets_decimal :
    Call.Interpreted
      { fmt := cString [percent, 0x64]
        list := fun _ => { word := 1959, string := cString [] }
        frames := fun _ => Call.uniformFrame 0 } := by
  have text : characters (cString [percent, 0x64]) = [percent, 0x64] :=
    characters_cString (by decide)
  apply
    ((Call.vprintk_interprets_iff (cString [percent, 0x64]) _).2
      (fun _ => Call.uniformFrame 0) (fun _ => rfl)).mpr
  intro piece member
  rw [text] at member
  have only : piece = .decimal := List.mem_singleton.mp member
  rw [only]
  exact ⟨nofun, nofun⟩

/-- Nothing is printed for `%%`. -/
theorem vprintk_not_interprets :
    ¬ ∀ call : Call, call.Interpreted := by
  intro always
  let call : Call :=
    { fmt := cString [percent, percent]
      list := fun _ => { word := 0, string := cString [] }
      frames := fun _ => Call.uniformFrame 0 }
  have zeros :
      ∀ place,
        (call.frames place).memory ((call.frames place).str - 1) = 0 :=
    fun _ => rfl
  have text : characters call.fmt = [percent, percent] :=
    characters_cString (by decide)
  have regular := (Call.interpreted_of_zeros_iff zeros).mp (always call)
  rw [Call.format, text] at regular
  exact (regular .percent List.mem_cons_self).2 rfl

end Kernull.Printk
