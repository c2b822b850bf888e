import Kernull.BootVga

/-!
# Which messages are printed

What `protected_vga_print` should do to the screen, and when exactly it does:
for a message that is not empty, as long as the upper half of `edx` is zero,
the message ends within the first 128 cells and the string is not overwritten
before it has been read.
-/

namespace Kernull.BootMessages

open Kernull.BootVga
open Kernull.BootVga.Machine
open Kernull.Library.ByteMemory
open Kernull.Library.Registers
open Kernull.Library.StoreTrace

/-! ## What is to be printed -/

/-- The address of the cell at a position. -/
def cellAddress (position : Nat) : Nat :=
  0xB8000 + 2 * position

/-- A character and its colour at a cell. -/
def cellStores (color : BitVec 8) (position : Nat) (c : BitVec 8) :
    List Store :=
  [(cellAddress position, c), (cellAddress position + 1, color)]

/-- Characters at one cell after the other. -/
def textStores (color : BitVec 8) : Nat → List (BitVec 8) → List Store
  | _, [] => []
  | position, c :: rest =>
      cellStores color position c ++ textStores color (position + 1) rest

/--
Exactly the characters are written, each at its cell, and the cursor is behind
the last one.
-/
structure PrintsExactly (before after : Machine) (text : List (BitVec 8)) :
    Prop where
  stored : Stored before.traced after.traced
    (textStores before.color before.cursorPos.position text)
  onScreen : after.cursorPos.OnScreen
  cursor : after.cursorPos.position =
    (before.cursorPos.position + text.length) % (vgaWidth * vgaHeight)

/--
When the characters before it have been written to their cells, every character
is still in the string.
-/
def Undisturbed (color : BitVec 8) :
    Memory → BitVec 32 → Nat → List (BitVec 8) → Prop
  | _, _, _, [] => True
  | memory, esi, position, c :: rest =>
      memory esi.toNat = c ∧
        Undisturbed color
          (applyStores memory (cellStores color position c))
          (esi + 1) (position + 1) rest

/-! ## One character -/

/-- Only the first 128 cells are written where they belong. -/
theorem entryStores_eq_iff
    {upper : BitVec 16} {cursor : CursorPos} {color c expected : BitVec 8}
    (onScreen : cursor.position < vgaWidth * vgaHeight) :
    entryStores upper cursor color c =
        cellStores color cursor.position expected ↔
      upper = 0 ∧ cursor.position < 128 ∧ c = expected := by
  have offset := entryOffset_toNat upper cursor
  have upperBound := upper.isLt
  have screen : cursor.position < 2000 := onScreen
  constructor
  · intro same
    injection same with first rest
    injection first with place character
    rw [cellAddress] at place
    have position : upper.toNat * 2 ^ 16 + 2 * cursor.position % 2 ^ 8 =
        2 * cursor.position := by
      rw [← offset]
      bv_omega
    refine ⟨?_, by omega, character⟩
    apply BitVec.eq_of_toNat_eq
    have zero : (0 : BitVec 16).toNat = 0 := rfl
    rw [zero]
    omega
  · rintro ⟨rfl, low, rfl⟩
    have zero : (0 : BitVec 16).toNat = 0 := rfl
    rw [zero] at offset
    have first : (0xB8000 + entryOffset 0 cursor).toNat =
        cellAddress cursor.position := by
      rw [cellAddress]
      bv_omega
    have second : (0xB8001 + entryOffset 0 cursor).toNat =
        cellAddress cursor.position + 1 := by
      rw [cellAddress]
      bv_omega
    rw [entryStores, cellStores, first, second]

theorem textStores_length (color : BitVec 8) (position : Nat)
    (text : List (BitVec 8)) :
    (textStores color position text).length = 2 * text.length := by
  induction text generalizing position with
  | nil => rfl
  | cons c rest inductionHypothesis =>
      rw [textStores, List.length_append, inductionHypothesis,
        List.length_cons]
      exact (Nat.add_comm 2 _)

/-- Too few stores have been made. -/
theorem not_printsExactly_of_few
    {before after : Machine} {text : List (BitVec 8)} {added : List Store}
    (stores : after.traced.stores = before.traced.stores ++ added)
    (few : added.length < 2 * text.length) :
    ¬ PrintsExactly before after text := by
  intro prints
  have expected := prints.stored.stores
  rw [stores] at expected
  have same := List.append_cancel_left expected
  rw [same, textStores_length] at few
  exact absurd few (Nat.lt_irrefl _)

/-- The first two stores are those of the first character. -/
theorem PrintsExactly.first
    {before after : Machine} {c : BitVec 8} {rest : List (BitVec 8)}
    {entry added : List Store}
    (prints : PrintsExactly before after (c :: rest))
    (stores : after.traced.stores =
      before.traced.stores ++ (entry ++ added)) (two : entry.length = 2) :
    entry = cellStores before.color before.cursorPos.position c := by
  have expected := prints.stored.stores
  rw [stores, textStores] at expected
  exact List.append_inj_left (List.append_cancel_left expected) two

/-- The cell at which printing goes on matters only if it does. -/
theorem textStores_wrap
    (color : BitVec 8) {position : Nat} {rest : List (BitVec 8)}
    (room : position + rest.length ≤ vgaWidth * vgaHeight) :
    textStores color (position % (vgaWidth * vgaHeight)) rest =
      textStores color position rest := by
  cases rest with
  | nil => rfl
  | cons d rest =>
      rw [List.length_cons] at room
      rw [Nat.mod_eq_of_lt (by omega)]

/-- A text is printed when its first character is, and then the rest. -/
theorem printsExactly_cons_iff
    {machine after : Machine} {c : BitVec 8} {rest : List (BitVec 8)}
    {added : List Store} (onScreen : machine.cursorPos.OnScreen)
    (room : machine.cursorPos.position + (rest.length + 1) ≤
      vgaWidth * vgaHeight)
    (noNewline : c ≠ 0x0A)
    (stores : after.traced.stores =
      machine.writeRound.traced.stores ++ added)
    (few : added.length ≤ 2 * rest.length) :
    PrintsExactly machine after (c :: rest) ↔
      (machine.registers.edx.upper = 0 ∧
        machine.cursorPos.position < 128 ∧
        machine.traced.memory machine.registers.esi.toNat = c) ∧
      PrintsExactly machine.writeRound after rest := by
  by_cases linefeed :
      machine.traced.memory machine.registers.esi.toNat = 0x0A
  · -- a newline that the printing itself has put there: two stores lack
    rw [(machine.writeRound_linefeed linefeed).2] at stores
    apply iff_of_false
    · apply not_printsExactly_of_few stores
      rw [List.length_cons]
      omega
    · rintro ⟨⟨-, -, here⟩, -⟩
      exact noNewline (here.symm.trans linefeed)
  · rcases machine.writeRound_character rfl linefeed with ⟨done, stored, -⟩
    have nextPosition :=
      (writeRound_cursor onScreen rfl linefeed).2
    have inside : machine.cursorPos.position < vgaWidth * vgaHeight := by
      omega
    have textRest : textStores machine.writeRound.color
        machine.writeRound.cursorPos.position rest =
          textStores machine.color (machine.cursorPos.position + 1) rest := by
      rw [done.color, nextPosition]
      apply textStores_wrap
      omega
    have cursorRest : (machine.writeRound.cursorPos.position + rest.length) %
        (vgaWidth * vgaHeight) =
          (machine.cursorPos.position + (c :: rest).length) %
            (vgaWidth * vgaHeight) := by
      rw [nextPosition, List.length_cons, Nat.mod_add_mod]
      congr 1
      omega
    rw [← entryStores_eq_iff inside]
    constructor
    · intro prints
      have all := stores
      rw [stored.stores, List.append_assoc] at all
      have same := prints.first all rfl
      refine ⟨same, ⟨?_, prints.onScreen, ?_⟩⟩
      · have whole := prints.stored
        rw [textStores, ← same] at whole
        rw [textRest]
        exact whole.rest stored
      · rw [cursorRest]
        exact prints.cursor
    · rintro ⟨same, prints⟩
      refine ⟨?_, prints.onScreen, ?_⟩
      · have later := prints.stored
        rw [textRest] at later
        rw [same] at stored
        rw [textStores]
        exact stored.trans later
      · rw [← cursorRest]
        exact prints.cursor

/-- What has to hold for a text to be printed. -/
structure Printable (machine : Machine) (text : List (BitVec 8)) : Prop where
  upper : machine.registers.edx.upper = 0
  low : machine.cursorPos.position + text.length ≤ 128
  undisturbed : Undisturbed machine.color machine.traced.memory
    machine.registers.esi machine.cursorPos.position text

/-- Registers do not matter for what has been printed. -/
theorem printsExactly_popa
    (before after : Machine) (first last : Registers)
    (text : List (BitVec 8)) :
    PrintsExactly (before.popa first) after text ↔
      PrintsExactly before (after.popa last) text := by
  constructor
  · intro prints
    exact ⟨prints.stored, prints.onScreen, prints.cursor⟩
  · intro prints
    exact ⟨prints.stored, prints.onScreen, prints.cursor⟩

/-- After a character in its place, the rest is as printable as before. -/
theorem printable_rest_iff
    {machine : Machine} {c : BitVec 8} {rest : List (BitVec 8)}
    (onScreen : machine.cursorPos.OnScreen)
    (room : machine.cursorPos.position + 1 < vgaWidth * vgaHeight)
    (upper : machine.registers.edx.upper = 0)
    (low : machine.cursorPos.position < 128)
    (here : machine.traced.memory machine.registers.esi.toNat = c)
    (noNewline : c ≠ 0x0A) :
    Printable machine.writeRound.incEsi rest ↔
      Printable machine (c :: rest) := by
  rcases machine.writeRound_character here noNewline with ⟨done, stored, -⟩
  have position : machine.writeRound.incEsi.cursorPos.position =
      machine.cursorPos.position + 1 := by
    have next := (writeRound_cursor onScreen here noNewline).2
    rwa [Nat.mod_eq_of_lt room] at next
  have inPlace : entryStores machine.registers.edx.upper machine.cursorPos
      machine.color c =
        cellStores machine.color machine.cursorPos.position c := by
    rw [entryStores_eq_iff (by omega)]
    exact ⟨upper, low, rfl⟩
  have upper' : machine.writeRound.incEsi.registers.edx.upper = 0 :=
    done.upper.trans upper
  have color : machine.writeRound.incEsi.color = machine.color :=
    done.color
  have esi : machine.writeRound.incEsi.registers.esi =
      machine.registers.esi + 1 := congrArg (· + 1) done.esi
  have memory : machine.writeRound.incEsi.traced.memory =
      applyStores machine.traced.memory
        (cellStores machine.color machine.cursorPos.position c) := by
    rw [← inPlace]
    exact stored.memory
  have length : (c :: rest).length = rest.length + 1 := rfl
  constructor
  · intro printable
    have fits := printable.low
    have undisturbed := printable.undisturbed
    rw [position] at fits
    rw [color, memory, esi, position] at undisturbed
    exact ⟨upper, by omega, here, undisturbed⟩
  · intro printable
    have fits := printable.low
    refine ⟨upper', ?_, ?_⟩
    · rw [position]
      omega
    · rw [color, memory, esi, position]
      exact printable.undisturbed.2

/-! ## The loop -/

/-- A text that is not empty is printed exactly when it is printable. -/
theorem writeLoop_printsExactly_iff
    {machine : Machine} {rounds : Nat} {c : BitVec 8}
    {rest : List (BitVec 8)}
    (counter :
      machine.registers.ecx.word = BitVec.ofNat 16 (rest.length + 1))
    (enough : rest.length < rounds) (onScreen : machine.cursorPos.OnScreen)
    (room : machine.cursorPos.position + (rest.length + 1) ≤
      vgaWidth * vgaHeight)
    (noNewline : ∀ d ∈ c :: rest, d ≠ 0x0A) :
    ∃ after, writeLoop rounds machine = some after ∧
      (PrintsExactly machine after (c :: rest) ↔
        Printable machine (c :: rest)) := by
  have character : c ≠ 0x0A := noNewline c List.mem_cons_self
  induction rest generalizing machine rounds c with
  | nil =>
      cases rounds with
      | zero => exact absurd enough (Nat.not_lt_zero _)
      | succ rounds =>
          have done := machine.writeRound_adds.1
          refine ⟨machine.writeRound,
            writeLoop_last rounds (done.counted counter), ?_⟩
          rw [printsExactly_cons_iff onScreen room character
            (List.append_nil _).symm (Nat.le_refl 0)]
          constructor
          · rintro ⟨⟨upper, low, here⟩, -⟩
            exact ⟨upper, low, here, trivial⟩
          · intro printable
            have here := printable.undisturbed.1
            rcases writeRound_cursor onScreen here character with
              ⟨nextOnScreen, nextPosition⟩
            refine ⟨⟨printable.upper, printable.low, here⟩,
              Stored.nothing _, nextOnScreen, ?_⟩
            rw [nextPosition]
            exact (Nat.mod_mod _ _).symm
  | cons d rest inductionHypothesis =>
      cases rounds with
      | zero => exact absurd enough (Nat.not_lt_zero _)
      | succ rounds =>
          have done := machine.writeRound_adds.1
          have fits := room
          rw [List.length_cons] at counter enough fits
          have small : rest.length + 1 < 2 ^ 16 := by
            have screen : vgaWidth * vgaHeight = 2000 := rfl
            omega
          have counted := done.counted counter
          have goesOn : machine.writeRound.registers.ecx.word ≠ 0 := by
            rw [counted]
            exact ofNat_succ_ne_zero small
          have counted' : machine.writeRound.incEsi.registers.ecx.word =
              BitVec.ofNat 16 (rest.length + 1) := counted
          have enough' : rest.length < rounds :=
            Nat.lt_of_succ_lt_succ enough
          -- the rest ends whatever this round has printed
          rcases writeLoop_adds counted' (Nat.lt_of_succ_lt small) enough'
            with ⟨after, added, runs, later, few⟩
          refine ⟨after, (writeLoop_next rounds goesOn).trans runs, ?_⟩
          rw [printsExactly_cons_iff onScreen room character later.stores few]
          by_cases here :
              machine.traced.memory machine.registers.esi.toNat = c
          · rcases writeRound_cursor onScreen here character with
              ⟨nextOnScreen, nextPosition⟩
            rw [Nat.mod_eq_of_lt (by omega)] at nextPosition
            have room' : machine.writeRound.incEsi.cursorPos.position +
                (rest.length + 1) ≤ vgaWidth * vgaHeight := by
              change machine.writeRound.cursorPos.position + _ ≤ _
              omega
            have later : ∀ e ∈ d :: rest, e ≠ 0x0A := by
              intro e member
              exact noNewline e (List.mem_cons_of_mem c member)
            rcases inductionHypothesis counted' enough' nextOnScreen room'
                later (later d List.mem_cons_self) with
              ⟨same, sameRuns, prints⟩
            rw [runs] at sameRuns
            have registers :
                PrintsExactly machine.writeRound.incEsi after (d :: rest) ↔
                  PrintsExactly machine.writeRound after (d :: rest) :=
              printsExactly_popa _ _ machine.writeRound.incEsi.registers
                after.registers _
            rw [← Option.some.inj sameRuns, registers] at prints
            rw [prints]
            constructor
            · rintro ⟨⟨upper, low, -⟩, printable⟩
              exact (printable_rest_iff onScreen (by omega) upper low here
                character).mp printable
            · intro printable
              have low : machine.cursorPos.position < 128 := by
                have below := printable.low
                rw [List.length_cons] at below
                omega
              refine ⟨⟨printable.upper, low, here⟩, ?_⟩
              exact (printable_rest_iff onScreen (by omega) printable.upper
                low here character).mpr printable
          · apply iff_of_false
            · rintro ⟨⟨-, -, same⟩, -⟩
              exact here same
            · intro printable
              exact here printable.undisturbed.1

/-- The loop takes the length 0 for 65536. -/
theorem writeLoop_empty
    {machine : Machine} (counter : machine.registers.ecx.word = 0)
    (ends : machine.traced.memory machine.registers.esi.toNat = 0) :
    ∃ after, writeLoop (2 ^ 16) machine = some after ∧
      ¬ PrintsExactly machine after [] := by
  -- the counter wraps before it is tested
  have counter' : machine.registers.ecx.word =
      BitVec.ofNat 16 (65535 + 1) := counter
  have nul : (0 : BitVec 8) ≠ 0x0A := by decide
  rcases machine.writeRound_character ends nul with ⟨done, stored, -⟩
  have counted := done.counted counter'
  have goesOn : machine.writeRound.registers.ecx.word ≠ 0 := by
    rw [counted]
    exact ofNat_succ_ne_zero (by omega)
  have counted' : machine.writeRound.incEsi.registers.ecx.word =
      BitVec.ofNat 16 (65534 + 1) := counted
  rcases writeLoop_adds counted' (by omega) (Nat.lt_succ_self 65534) with
    ⟨after, added, runs, later, -⟩
  refine ⟨after, (writeLoop_next 65535 goesOn).trans runs, ?_⟩
  intro prints
  have expected := prints.stored.stores
  have start : machine.writeRound.incEsi.traced.stores =
      machine.writeRound.traced.stores := rfl
  rw [later.stores, start, stored.stores, List.append_assoc] at expected
  exact nomatch List.append_cancel_left expected

/-! ## A call -/

/-- Nothing is printed as it should be when there is nothing to print. -/
theorem protectedVgaPrint_empty
    {machine : Machine}
    (stands : StandsAt machine.traced.memory machine.registers.esi []) :
    ∃ after, machine.protectedVgaPrint = some after ∧
      ¬ PrintsExactly machine after [] := by
  have ends : machine.traced.memory machine.registers.esi.toNat = 0 := stands
  have counter : (machine.measured 0).registers.ecx.word = 0 :=
    Register.word_ofValue 0
  rcases writeLoop_empty counter ends with ⟨after, runs, prints⟩
  refine ⟨after.popa machine.registers,
    protectedVgaPrint_eq stands (by decide) runs, ?_⟩
  rw [← printsExactly_popa]
  exact prints

/-- A message that is not empty is printed exactly when it is printable. -/
theorem protectedVgaPrint_cons
    {machine : Machine} {c : BitVec 8} {rest : List (BitVec 8)}
    (stands :
      StandsAt machine.traced.memory machine.registers.esi (c :: rest))
    (onScreen : machine.cursorPos.OnScreen)
    (room : machine.cursorPos.position + (c :: rest).length ≤
      vgaWidth * vgaHeight)
    (noNewline : ∀ d ∈ c :: rest, d ≠ 0x0A) :
    ∃ after, machine.protectedVgaPrint = some after ∧
      (PrintsExactly machine after (c :: rest) ↔
        Printable machine (c :: rest)) := by
  have screen : vgaWidth * vgaHeight = 2000 := rfl
  have length : (c :: rest).length = rest.length + 1 := rfl
  have counter : (machine.measured (c :: rest).length).registers.ecx.word =
      BitVec.ofNat 16 (rest.length + 1) := Register.word_ofValue _
  have enough : rest.length < 2 ^ 16 := by omega
  rcases writeLoop_printsExactly_iff counter enough onScreen room noNewline
    with ⟨after, runs, prints⟩
  refine ⟨after.popa machine.registers,
    protectedVgaPrint_eq stands (by omega) runs, ?_⟩
  have registers :
      PrintsExactly (machine.measured (c :: rest).length) after (c :: rest) ↔
        PrintsExactly machine (after.popa machine.registers) (c :: rest) :=
    printsExactly_popa machine after _ machine.registers (c :: rest)
  rw [← registers, prints]
  constructor
  · intro printable
    exact ⟨printable.upper, printable.low, printable.undisturbed⟩
  · intro printable
    exact ⟨printable.upper, printable.low, printable.undisturbed⟩

/-! ## Strings that are not on the screen -/

/-- No byte of a string lies on the screen. -/
def Apart (esi : BitVec 32) (text : List (BitVec 8)) : Prop :=
  ∀ i, i ≤ text.length →
    (esi + BitVec.ofNat 32 i).toNat < cellAddress 0 ∨
      cellAddress (vgaWidth * vgaHeight) ≤ (esi + BitVec.ofNat 32 i).toNat

/-- The rest of a string is apart if the string is. -/
theorem Apart.tail {esi : BitVec 32} {c : BitVec 8} {rest : List (BitVec 8)}
    (apart : Apart esi (c :: rest)) : Apart (esi + 1) rest := by
  intro i bound
  have shifted := apart (i + 1) (Nat.succ_le_succ bound)
  rwa [add_ofNat_succ] at shifted

/-- A string that is not on the screen does not change while it is printed. -/
theorem undisturbed_of_apart
    {color : BitVec 8} {memory : Memory} {esi : BitVec 32} {position : Nat}
    {text : List (BitVec 8)} (stands : StandsAt memory esi text)
    (apart : Apart esi text)
    (room : position + text.length ≤ vgaWidth * vgaHeight) :
    Undisturbed color memory esi position text := by
  induction text generalizing memory esi position with
  | nil => trivial
  | cons c rest inductionHypothesis =>
      rw [List.length_cons] at room
      refine ⟨stands.1, inductionHypothesis ?_ apart.tail (by omega)⟩
      apply stands.2.2.congr
      intro i bound
      apply applyStores_of_unwritten
      intro store member
      have outside := apart.tail i bound
      have place : store.1 = cellAddress position ∨
          store.1 = cellAddress position + 1 := by
        rcases List.mem_cons.mp member with rfl | later
        · exact Or.inl rfl
        · rw [List.mem_singleton.mp later]
          exact Or.inr rfl
      rw [cellAddress] at place
      rw [cellAddress, cellAddress] at outside
      omega

/--
A message without newlines for which there is room on the screen is printed as
it should be exactly when it is not empty, the upper half of `edx` is zero, the
message ends within the first 128 cells and does not change under its own
printing.
-/
theorem message_printed_iff
    {machine : Machine} {text : List (BitVec 8)}
    (stands : StandsAt machine.traced.memory machine.registers.esi text)
    (onScreen : machine.cursorPos.OnScreen)
    (room : machine.cursorPos.position + text.length ≤ vgaWidth * vgaHeight)
    (noNewline : ∀ c ∈ text, c ≠ 0x0A) :
    ∃ after, machine.protectedVgaPrint = some after ∧
      (PrintsExactly machine after text ↔
        text ≠ [] ∧ Printable machine text) := by
  cases text with
  | nil =>
      rcases protectedVgaPrint_empty stands with
        ⟨after, runs, prints⟩
      refine ⟨after, runs, ?_⟩
      apply iff_of_false prints
      rintro ⟨nonempty, -⟩
      exact nonempty rfl
  | cons c rest =>
      rcases protectedVgaPrint_cons stands onScreen room noNewline
        with ⟨after, runs, prints⟩
      refine ⟨after, runs, prints.trans ?_⟩
      constructor
      · intro printable
        exact ⟨List.cons_ne_nil c rest, printable⟩
      · rintro ⟨-, printable⟩
        exact printable

/-- The message A at 0x1000 and nothing else in memory. -/
def letterMachine (cursor : CursorPos) : Machine where
  registers :=
    { eax := ⟨0, 0, 0⟩
      ebx := 0
      ecx := ⟨0, 0, 0⟩
      edx := ⟨0, 0, 0⟩
      esi := 0x1000 }
  traced := untouched fun address => if address = 0x1000 then 0x41 else 0
  color := 0x0F
  cursorPos := cursor

theorem letterMachine_stands (cursor : CursorPos) :
    StandsAt (letterMachine cursor).traced.memory
      (letterMachine cursor).registers.esi [0x41] :=
  ⟨rfl, by decide, rfl⟩

theorem letter_apart : Apart 0x1000 [0x41] := by
  intro i bound
  left
  have two : i = 0 ∨ i = 1 := by
    have length : [(0x41 : BitVec 8)].length = 1 := rfl
    omega
  rcases two with rfl | rfl
  · decide
  · decide

theorem first_letter_printed :
    ∃ after, (letterMachine ⟨0, 0⟩).protectedVgaPrint = some after ∧
      PrintsExactly (letterMachine ⟨0, 0⟩) after [0x41] := by
  have stands := letterMachine_stands ⟨0, 0⟩
  have onScreen : (letterMachine ⟨0, 0⟩).cursorPos.OnScreen :=
    ⟨by decide, by decide⟩
  have room : (letterMachine ⟨0, 0⟩).cursorPos.position + 1 ≤
      vgaWidth * vgaHeight := by decide
  have low : (letterMachine ⟨0, 0⟩).cursorPos.position + 1 ≤ 128 := by decide
  rcases message_printed_iff stands onScreen room (by decide) with
    ⟨after, runs, prints⟩
  refine ⟨after, runs, prints.mpr ⟨List.cons_ne_nil _ _, rfl, low, ?_⟩⟩
  exact undisturbed_of_apart stands letter_apart room

/-- A letter at the cell 128 is not printed there. -/
theorem letter_not_printed :
    ¬ ∀ (machine : Machine) (text : List (BitVec 8)),
      StandsAt machine.traced.memory machine.registers.esi text →
      machine.cursorPos.OnScreen →
      machine.cursorPos.position + text.length ≤ vgaWidth * vgaHeight →
      (∀ c ∈ text, c ≠ 0x0A) →
      ∃ after, machine.protectedVgaPrint = some after ∧
        PrintsExactly machine after text := by
  intro always
  have stands := letterMachine_stands ⟨1, 48⟩
  have onScreen : (letterMachine ⟨1, 48⟩).cursorPos.OnScreen :=
    ⟨by decide, by decide⟩
  have room : (letterMachine ⟨1, 48⟩).cursorPos.position + 1 ≤
      vgaWidth * vgaHeight := by decide
  have noNewline : ∀ c ∈ [(0x41 : BitVec 8)], c ≠ 0x0A := by decide
  rcases always _ _ stands onScreen room noNewline with ⟨after, runs, right⟩
  rcases protectedVgaPrint_cons stands onScreen room noNewline with
    ⟨same, sameRuns, prints⟩
  rw [runs] at sameRuns
  rw [← Option.some.inj sameRuns] at prints
  have high : ¬ (letterMachine ⟨1, 48⟩).cursorPos.position + 1 ≤ 128 := by
    decide
  exact high (prints.mp right).low

end Kernull.BootMessages
