import Kernull.Library.Registers
import Kernull.Library.StoreTrace

/-!
# Messages before long mode

`protected_vga_print` of `arch/x86_64/boot/vga.asm` with the functions it
calls, on the registers they use.  The stack that `push` and `pusha` use is
apart from everything else here.

`getidx` computes the index of a cell in registers of eight bits, and
`put_entry_at` uses the whole of `edx` as that index: the first 128 cells are
written where they belong, and only while the upper half of `edx` is zero.
`write` decrements the length before it is tested, so that no length is taken
for zero.
-/

namespace Kernull.BootVga

open Kernull.Library.ByteMemory
open Kernull.Library.Registers
open Kernull.Library.StoreTrace

/-- `VGA_WIDTH`. -/
def vgaWidth : Nat := 80

/-- `VGA_HEIGHT`. -/
def vgaHeight : Nat := 25

/-! ## The code -/

/-- The registers that `pusha` saves, as far as they are used. -/
structure Registers where
  eax : Register
  ebx : BitVec 32
  ecx : Register
  edx : Register
  esi : BitVec 32

/-- The two bytes at `cursor_pos`; `putchar` takes the first one for y. -/
structure CursorPos where
  column : BitVec 8
  row : BitVec 8
deriving DecidableEq

/-- Registers, memory and the variables of the module. -/
structure Machine where
  registers : Registers
  traced : TracedMemory
  color : BitVec 8
  cursorPos : CursorPos

namespace Machine

/-- Write to `al`. -/
def setAl (machine : Machine) (byte : BitVec 8) : Machine :=
  { machine with
    registers.eax := { machine.registers.eax with low := byte } }

/-- Write to `ax`. -/
def setAx (machine : Machine) (word : BitVec 16) : Machine :=
  { machine with registers.eax := machine.registers.eax.setWord word }

/-- Write to `dl`. -/
def setDl (machine : Machine) (byte : BitVec 8) : Machine :=
  { machine with
    registers.edx := { machine.registers.edx with low := byte } }

/-- Write to `dh`. -/
def setDh (machine : Machine) (byte : BitVec 8) : Machine :=
  { machine with
    registers.edx := { machine.registers.edx with high := byte } }

/-- Store a byte. -/
def store (machine : Machine) (place : BitVec 32) (byte : BitVec 8) :
    Machine :=
  { machine with traced := machine.traced.store place.toNat byte }

/-- `popa`, after the `pusha` that has saved these registers. -/
def popa (machine : Machine) (saved : Registers) : Machine :=
  { machine with registers := saved }

/-- `getidx`. -/
def getidx (machine : Machine) : Machine :=
  let saved := machine.registers.eax.word
  let machine := machine.setDh (machine.registers.edx.high <<< 1)
  let machine := machine.setAl (BitVec.ofNat 8 vgaWidth)
  -- mul dl
  let machine := machine.setAx
    (machine.registers.eax.low.setWidth 16 *
      machine.registers.edx.low.setWidth 16)
  let machine := machine.setDl machine.registers.eax.low
  let machine := machine.setDl (machine.registers.edx.low <<< 1)
  let machine := machine.setDl
    (machine.registers.edx.low + machine.registers.edx.high)
  let machine := machine.setDh 0
  machine.setAx saved

/-- `put_entry_at`. -/
def putEntryAt (machine : Machine) : Machine :=
  let saved := machine.registers
  let machine := machine.getidx
  let machine :=
    { machine with registers.ebx := machine.registers.edx.value }
  let machine := machine.setDl machine.color
  let machine := machine.store (0xB8000 + machine.registers.ebx)
    machine.registers.eax.low
  let machine := machine.store (0xB8001 + machine.registers.ebx)
    machine.registers.edx.low
  machine.popa saved

/-- `mov dx, [cursor_pos]`. -/
def loadCursor (machine : Machine) : Machine :=
  (machine.setDl machine.cursorPos.column).setDh machine.cursorPos.row

/-- `.cursor_moved`: `mov [cursor_pos], dx`. -/
def cursorMoved (machine : Machine) : Machine :=
  { machine with
    cursorPos := ⟨machine.registers.edx.low, machine.registers.edx.high⟩ }

/-- `putchar` behind `put_entry_at`. -/
def moveCursor (machine : Machine) : Machine :=
  let machine := machine.setDh (machine.registers.edx.high + 1)
  if machine.registers.edx.high ≠ BitVec.ofNat 8 vgaWidth then
    machine.cursorMoved
  else
    let machine := machine.setDh 0
    let machine := machine.setDl (machine.registers.edx.low + 1)
    if machine.registers.edx.low ≠ BitVec.ofNat 8 vgaHeight then
      machine.cursorMoved
    else
      (machine.setDl 0).cursorMoved

/-- `putchar`. -/
def putchar (machine : Machine) : Machine :=
  let machine := machine.loadCursor
  if machine.registers.eax.low = 0x0A then
    (machine.setDh 0).cursorMoved
  else
    machine.putEntryAt.moveCursor

/-- A round of the loop of `write`, up to the test. -/
def writeRound (machine : Machine) : Machine :=
  let machine := machine.setAl
    (machine.traced.memory machine.registers.esi.toNat)
  let machine := machine.putchar
  { machine with
    registers.ecx :=
      machine.registers.ecx.setWord (machine.registers.ecx.word - 1) }

/-- `inc esi`. -/
def incEsi (machine : Machine) : Machine :=
  { machine with registers.esi := machine.registers.esi + 1 }

/-- The loop of `write`. -/
def writeLoop : Nat → Machine → Option Machine
  | 0, _ => none
  | rounds + 1, machine =>
      let machine := machine.writeRound
      if machine.registers.ecx.word = 0 then
        some machine
      else
        writeLoop rounds machine.incEsi

/-- `write`; the counter has 16 bits. -/
def write (machine : Machine) : Option Machine := do
  let saved := machine.registers
  let machine ← writeLoop (2 ^ 16) machine
  some (machine.popa saved)

/-- The loop of `strlen`. -/
def strlenLoop : Nat → Machine → Option Machine
  | 0, _ => none
  | rounds + 1, machine =>
      let machine := machine.setAl
        (machine.traced.memory machine.registers.esi.toNat)
      if machine.registers.eax.low = 0 then
        some machine
      else
        let machine := machine.incEsi
        strlenLoop rounds
          { machine with
            registers.ecx :=
              Register.ofValue (machine.registers.ecx.value + 1) }

/-- `strlen`; an address has 32 bits. -/
def strlen (machine : Machine) : Option Machine := do
  let eax := machine.registers.eax
  let esi := machine.registers.esi
  let machine := { machine with registers.ecx := Register.ofValue 0 }
  let machine ← strlenLoop (2 ^ 32) machine
  let machine := { machine with registers.esi := esi }
  some { machine with registers.eax := eax }

/-- `protected_vga_print`. -/
def protectedVgaPrint (machine : Machine) : Option Machine := do
  let saved := machine.registers
  let machine ← machine.strlen
  let machine ← machine.write
  some (machine.popa saved)

end Machine

/-! ## Strings and cursors -/

/-- A zero-terminated string at an address of 32 bits. -/
def StandsAt (memory : Memory) : BitVec 32 → List (BitVec 8) → Prop
  | esi, [] => memory esi.toNat = 0
  | esi, c :: rest =>
      memory esi.toNat = c ∧ c ≠ 0 ∧ StandsAt memory (esi + 1) rest

/-- One step, and then the others. -/
theorem add_ofNat_succ (start : BitVec 32) (count : Nat) :
    start + BitVec.ofNat 32 (count + 1) =
      start + 1 + BitVec.ofNat 32 count := by
  rw [BitVec.ofNat_add, BitVec.add_assoc]
  congr 1
  exact BitVec.add_comm _ _

/-- A string is still there when other bytes have been stored. -/
theorem StandsAt.congr {left right : Memory} {esi : BitVec 32}
    {text : List (BitVec 8)} (stands : StandsAt left esi text)
    (agree : ∀ i, i ≤ text.length →
      right (esi + BitVec.ofNat 32 i).toNat =
        left (esi + BitVec.ofNat 32 i).toNat) :
    StandsAt right esi text := by
  induction text generalizing esi with
  | nil =>
      have here := agree 0 (Nat.le_refl 0)
      rw [BitVec.add_zero] at here
      exact here.trans stands
  | cons c rest inductionHypothesis =>
      rcases stands with ⟨first, nonzero, later⟩
      have here := agree 0 (Nat.zero_le _)
      rw [BitVec.add_zero] at here
      refine ⟨here.trans first, nonzero, inductionHypothesis later ?_⟩
      intro i bound
      have shifted := agree (i + 1) (Nat.succ_le_succ bound)
      rwa [add_ofNat_succ] at shifted

/-- The position of a cursor, row by row. -/
def CursorPos.position (cursor : CursorPos) : Nat :=
  vgaWidth * cursor.column.toNat + cursor.row.toNat

/-- The cursor is on the screen. -/
structure CursorPos.OnScreen (cursor : CursorPos) : Prop where
  y : cursor.column.toNat < vgaHeight
  x : cursor.row.toNat < vgaWidth

/-! ## The length -/

namespace Machine

/-- The loop counts the characters, and changes `eax` and `esi`. -/
theorem strlenLoop_eq
    {machine : Machine} {rounds : Nat} {text : List (BitVec 8)}
    (stands : StandsAt machine.traced.memory machine.registers.esi text)
    (enough : text.length < rounds) :
    ∃ eax esi, strlenLoop rounds machine =
      some { machine with
        registers.eax := eax
        registers.esi := esi
        registers.ecx := Register.ofValue
          (machine.registers.ecx.value + BitVec.ofNat 32 text.length) } := by
  induction rounds generalizing machine text with
  | zero => exact absurd enough (Nat.not_lt_zero _)
  | succ rounds inductionHypothesis =>
      cases text with
      | nil =>
          have ends : machine.traced.memory machine.registers.esi.toNat = 0 :=
            stands
          have counted : Register.ofValue
              (machine.registers.ecx.value + BitVec.ofNat 32 0) =
                machine.registers.ecx := by
            rw [BitVec.add_zero, Register.ofValue_value]
          refine ⟨(machine.setAl 0).registers.eax, machine.registers.esi, ?_⟩
          rw [strlenLoop, ends, List.length_nil, counted]
          rfl
      | cons c rest =>
          rcases stands with ⟨here, nonzero, later⟩
          let machine' : Machine := { (machine.setAl c).incEsi with
            registers.ecx :=
              Register.ofValue (machine.registers.ecx.value + 1) }
          have stands' : StandsAt machine'.traced.memory
              machine'.registers.esi rest := later
          rcases inductionHypothesis stands'
              (Nat.lt_of_succ_lt_succ enough) with ⟨eax, esi, runs⟩
          have counted : machine'.registers.ecx.value +
              BitVec.ofNat 32 rest.length =
                machine.registers.ecx.value +
                  BitVec.ofNat 32 (c :: rest).length := by
            have counter : machine'.registers.ecx.value =
                machine.registers.ecx.value + 1 :=
              Register.value_ofValue _
            rw [counter, List.length_cons, add_ofNat_succ]
          refine ⟨eax, esi, ?_⟩
          have goesOn : ¬ (machine.setAl c).registers.eax.low = 0 := nonzero
          rw [strlenLoop, here, ← counted]
          simp only []
          rw [if_neg goesOn]
          exact runs

/-- `strlen` leaves the length in `ecx`. -/
theorem strlen_eq
    {machine : Machine} {text : List (BitVec 8)}
    (stands : StandsAt machine.traced.memory machine.registers.esi text)
    (small : text.length < 2 ^ 32) :
    machine.strlen =
      some { machine with
        registers.ecx :=
          Register.ofValue (BitVec.ofNat 32 text.length) } := by
  let started : Machine :=
    { machine with registers.ecx := Register.ofValue 0 }
  have fromStart : StandsAt started.traced.memory started.registers.esi
      text := stands
  rcases strlenLoop_eq fromStart small with ⟨eax, esi, runs⟩
  have counted : started.registers.ecx.value +
      BitVec.ofNat 32 text.length = BitVec.ofNat 32 text.length := by
    rw [Register.value_ofValue]
    exact BitVec.zero_add _
  rw [counted] at runs
  rw [strlen, runs]
  rfl

end Machine

/-! ## The place of an entry -/

/-- What `getidx` computes for a cursor. -/
def cellIndex (cursor : CursorPos) : BitVec 8 :=
  BitVec.ofNat 8 (2 * cursor.position)

/-- The whole of `edx` after `getidx`. -/
def entryOffset (upper : BitVec 16) (cursor : CursorPos) : BitVec 32 :=
  (Register.mk upper 0 (cellIndex cursor)).value

/-- The stores of `put_entry_at`. -/
def entryStores (upper : BitVec 16) (cursor : CursorPos)
    (color c : BitVec 8) : List Store :=
  [((0xB8000 + entryOffset upper cursor).toNat, c),
    ((0xB8001 + entryOffset upper cursor).toNat, color)]

theorem entryOffset_toNat (upper : BitVec 16) (cursor : CursorPos) :
    (entryOffset upper cursor).toNat =
      upper.toNat * 2 ^ 16 + 2 * cursor.position % 2 ^ 8 := by
  rw [entryOffset, Register.value_toNat, Register.word_toNat, cellIndex,
    BitVec.toNat_ofNat]
  have zero : (0 : BitVec 8).toNat = 0 := rfl
  rw [zero, Nat.zero_mul, Nat.zero_add]

namespace Machine

theorem getidx_eax (machine : Machine) :
    machine.getidx.registers.eax = machine.registers.eax :=
  Register.setWord_word machine.registers.eax

/-- The index is computed from y in `dl` and x in `dh`. -/
theorem getidx_edx
    {machine : Machine} {cursor : CursorPos}
    (y : machine.registers.edx.low = cursor.column)
    (x : machine.registers.edx.high = cursor.row) :
    machine.getidx.registers.edx.value =
      entryOffset machine.registers.edx.upper cursor := by
  have low : machine.getidx.registers.edx.low = cellIndex cursor := by
    have computed : machine.getidx.registers.edx.low =
        ((BitVec.ofNat 8 vgaWidth).setWidth 16 *
            machine.registers.edx.low.setWidth 16).extractLsb' 0 8 <<< 1 +
          machine.registers.edx.high <<< 1 := rfl
    have columnBound := cursor.column.isLt
    have rowBound := cursor.row.isLt
    apply BitVec.eq_of_toNat_eq
    rw [computed, y, x, cellIndex, CursorPos.position]
    simp only [BitVec.toNat_add, BitVec.toNat_shiftLeft,
      BitVec.extractLsb'_toNat, BitVec.toNat_mul, BitVec.toNat_setWidth,
      BitVec.toNat_ofNat, Nat.shiftLeft_eq, Nat.shiftRight_zero, vgaWidth,
      Nat.reducePow, Nat.reduceMod]
    omega
  rw [entryOffset, ← low]
  rfl

/-- `put_entry_at` makes two stores and changes nothing else. -/
theorem putEntryAt_eq
    {machine : Machine} {cursor : CursorPos}
    (y : machine.registers.edx.low = cursor.column)
    (x : machine.registers.edx.high = cursor.row) :
    machine.putEntryAt =
      { machine with
        traced := (machine.traced.store
            (0xB8000 +
              entryOffset machine.registers.edx.upper cursor).toNat
            machine.registers.eax.low).store
          (0xB8001 + entryOffset machine.registers.edx.upper cursor).toNat
          machine.color } := by
  have offset := getidx_edx y x
  have al := congrArg Register.low machine.getidx_eax
  rw [← offset, ← al]
  rfl

end Machine

/-! ## One character -/

/-- The cursor behind a character. -/
def CursorPos.next (cursor : CursorPos) : CursorPos :=
  if cursor.row + 1 ≠ BitVec.ofNat 8 vgaWidth then
    ⟨cursor.column, cursor.row + 1⟩
  else if cursor.column + 1 ≠ BitVec.ofNat 8 vgaHeight then
    ⟨cursor.column + 1, 0⟩
  else
    ⟨0, 0⟩

/-- It is at the next cell, or at the first one behind the last. -/
theorem CursorPos.next_position
    {cursor : CursorPos} (onScreen : cursor.OnScreen) :
    cursor.next.OnScreen ∧
      cursor.next.position =
        (cursor.position + 1) % (vgaWidth * vgaHeight) := by
  have y : cursor.column.toNat < 25 := onScreen.y
  have x : cursor.row.toNat < 80 := onScreen.x
  have zero : (0 : BitVec 8).toNat = 0 := rfl
  have width : (BitVec.ofNat 8 vgaWidth).toNat = 80 := rfl
  have height : (BitVec.ofNat 8 vgaHeight).toNat = 25 := rfl
  have nextRow : (cursor.row + 1).toNat = cursor.row.toNat + 1 := by
    bv_omega
  have nextColumn : (cursor.column + 1).toNat = cursor.column.toNat + 1 := by
    bv_omega
  rw [CursorPos.next]
  split_ifs with inRow lastRow
  · have moved : cursor.row.toNat + 1 ≠ 80 := by
      rw [← nextRow, ← width]
      exact fun same => inRow (BitVec.eq_of_toNat_eq same)
    refine ⟨⟨y, ?_⟩, ?_⟩
    · rw [vgaWidth]
      simp only [nextRow]
      omega
    · simp only [CursorPos.position, nextRow, vgaWidth, vgaHeight]
      omega
  · have moved : cursor.column.toNat + 1 ≠ 25 := by
      rw [← nextColumn, ← height]
      exact fun same => lastRow (BitVec.eq_of_toNat_eq same)
    have ended : cursor.row.toNat + 1 = 80 := by
      rw [← nextRow, ← width, not_not.mp inRow]
    refine ⟨⟨?_, ?_⟩, ?_⟩
    · rw [vgaHeight]
      simp only [nextColumn]
      omega
    · exact Nat.succ_pos 79
    · simp only [CursorPos.position, nextColumn, zero, vgaWidth, vgaHeight]
      omega
  · have ended : cursor.row.toNat + 1 = 80 := by
      rw [← nextRow, ← width, not_not.mp inRow]
    have lastEnded : cursor.column.toNat + 1 = 25 := by
      rw [← nextColumn, ← height, not_not.mp lastRow]
    refine ⟨⟨Nat.succ_pos 24, Nat.succ_pos 79⟩, ?_⟩
    simp only [CursorPos.position, zero, vgaWidth, vgaHeight]
    omega

namespace Machine

/-- A cursor in `dx` and in its variable. -/
def withCursor (machine : Machine) (cursor : CursorPos) : Machine :=
  ((machine.setDl cursor.column).setDh cursor.row).cursorMoved

/-- The cursor in `dx` is moved on. -/
theorem moveCursor_eq (machine : Machine) :
    machine.moveCursor =
      machine.withCursor
        (CursorPos.mk machine.registers.edx.low
          machine.registers.edx.high).next := by
  by_cases inRow :
      machine.registers.edx.high + 1 ≠ BitVec.ofNat 8 vgaWidth
  · rw [CursorPos.next, if_pos inRow]
    exact if_pos inRow
  · rw [CursorPos.next, if_neg inRow]
    by_cases lastRow :
        machine.registers.edx.low + 1 ≠ BitVec.ofNat 8 vgaHeight
    · rw [if_pos lastRow]
      exact (if_neg inRow).trans (if_pos lastRow)
    · rw [if_neg lastRow]
      exact (if_neg inRow).trans (if_neg lastRow)

/-- A linefeed stores nothing. -/
theorem putchar_linefeed
    {machine : Machine} (linefeed : machine.registers.eax.low = 0x0A) :
    machine.putchar =
      machine.withCursor ⟨machine.cursorPos.column, 0⟩ :=
  if_pos linefeed

/-- A character is stored, and the cursor moves on. -/
theorem putchar_character
    {machine : Machine} (character : machine.registers.eax.low ≠ 0x0A) :
    machine.putchar =
      ({ machine with
        traced := (machine.traced.store
            (0xB8000 + entryOffset machine.registers.edx.upper
              machine.cursorPos).toNat machine.registers.eax.low).store
          (0xB8001 + entryOffset machine.registers.edx.upper
            machine.cursorPos).toNat machine.color } : Machine).withCursor
        machine.cursorPos.next := by
  have put : machine.putchar =
      machine.loadCursor.putEntryAt.moveCursor := if_neg character
  have y : machine.loadCursor.registers.edx.low =
      machine.cursorPos.column := rfl
  have x : machine.loadCursor.registers.edx.high =
      machine.cursorPos.row := rfl
  have entry := putEntryAt_eq y x
  rw [put, entry, moveCursor_eq]
  rfl

/-! ## One round -/

/-- What a round of `write` does, whatever it prints. -/
structure RoundDone (before after : Machine) : Prop where
  color : after.color = before.color
  upper : after.registers.edx.upper = before.registers.edx.upper
  esi : after.registers.esi = before.registers.esi
  counter : after.registers.ecx.word = before.registers.ecx.word - 1

/-- A round that reads a linefeed stores nothing. -/
theorem writeRound_linefeed
    {machine : Machine}
    (linefeed :
      machine.traced.memory machine.registers.esi.toNat = 0x0A) :
    RoundDone machine machine.writeRound ∧
      machine.writeRound.traced = machine.traced := by
  have read : (machine.setAl (machine.traced.memory
      machine.registers.esi.toNat)).registers.eax.low = 0x0A := linefeed
  have printed := putchar_linefeed read
  rw [writeRound]
  simp only [printed]
  exact ⟨⟨rfl, rfl, rfl, Register.word_setWord _ _⟩, rfl⟩

/-- A round that reads a character stores it and moves on. -/
theorem writeRound_character
    {machine : Machine} {c : BitVec 8}
    (here : machine.traced.memory machine.registers.esi.toNat = c)
    (character : c ≠ 0x0A) :
    RoundDone machine machine.writeRound ∧
      Stored machine.traced machine.writeRound.traced
        (entryStores machine.registers.edx.upper machine.cursorPos
          machine.color c) ∧
      machine.writeRound.cursorPos = machine.cursorPos.next := by
  have read : (machine.setAl (machine.traced.memory
      machine.registers.esi.toNat)).registers.eax.low ≠ 0x0A := by
    rw [here]
    exact character
  have printed := putchar_character read
  rw [writeRound]
  simp only [printed]
  refine ⟨⟨rfl, rfl, rfl, Register.word_setWord _ _⟩, ?_, rfl⟩
  rw [← here]
  exact (Stored.single _ _ _).trans (Stored.single _ _ _)

/-- After a round that prints a character the cursor is at the next cell. -/
theorem writeRound_cursor
    {machine : Machine} {c : BitVec 8}
    (onScreen : machine.cursorPos.OnScreen)
    (here : machine.traced.memory machine.registers.esi.toNat = c)
    (character : c ≠ 0x0A) :
    machine.writeRound.cursorPos.OnScreen ∧
      machine.writeRound.cursorPos.position =
        (machine.cursorPos.position + 1) % (vgaWidth * vgaHeight) := by
  rw [(writeRound_character here character).2.2]
  exact CursorPos.next_position onScreen

/-- The counter goes down by one in a round. -/
theorem RoundDone.counted
    {before after : Machine} {count : Nat} (done : RoundDone before after)
    (counter : before.registers.ecx.word = BitVec.ofNat 16 (count + 1)) :
    after.registers.ecx.word = BitVec.ofNat 16 count := by
  rw [done.counter, counter, BitVec.ofNat_add]
  exact BitVec.add_sub_cancel _ _

/-- A round makes two stores at most. -/
theorem writeRound_adds (machine : Machine) :
    RoundDone machine machine.writeRound ∧
      ∃ added, Stored machine.traced machine.writeRound.traced added ∧
        added.length ≤ 2 := by
  by_cases linefeed :
      machine.traced.memory machine.registers.esi.toNat = 0x0A
  · rcases writeRound_linefeed linefeed with ⟨done, same⟩
    refine ⟨done, [], ?_, Nat.zero_le 2⟩
    rw [same]
    exact Stored.nothing _
  · rcases writeRound_character rfl linefeed with ⟨done, stored, -⟩
    exact ⟨done, _, stored, Nat.le_refl 2⟩

/-! ## All rounds -/

/-- The loop ends when the counter is zero after a round. -/
theorem writeLoop_last
    {machine : Machine} (rounds : Nat)
    (last : machine.writeRound.registers.ecx.word = 0) :
    writeLoop (rounds + 1) machine = some machine.writeRound := by
  rw [writeLoop]
  exact if_pos last

/-- Otherwise it goes on with the next byte. -/
theorem writeLoop_next
    {machine : Machine} (rounds : Nat)
    (goesOn : machine.writeRound.registers.ecx.word ≠ 0) :
    writeLoop (rounds + 1) machine =
      writeLoop rounds machine.writeRound.incEsi := by
  rw [writeLoop]
  exact if_neg goesOn

/-- A count that fits in the counter is not taken for zero. -/
theorem ofNat_succ_ne_zero {count : Nat} (small : count + 1 < 2 ^ 16) :
    BitVec.ofNat 16 (count + 1) ≠ 0 := by
  intro zero
  have value := congrArg BitVec.toNat zero
  rw [BitVec.toNat_ofNat, Nat.mod_eq_of_lt small] at value
  exact nomatch value

/-- The loop ends, and every round has made two stores at most. -/
theorem writeLoop_adds
    {machine : Machine} {rounds count : Nat}
    (counter : machine.registers.ecx.word = BitVec.ofNat 16 (count + 1))
    (small : count < 2 ^ 16) (enough : count < rounds) :
    ∃ after added, writeLoop rounds machine = some after ∧
      Stored machine.traced after.traced added ∧
      added.length ≤ 2 * (count + 1) := by
  induction count generalizing machine rounds with
  | zero =>
      cases rounds with
      | zero => exact absurd enough (Nat.not_lt_zero _)
      | succ rounds =>
          rcases machine.writeRound_adds with ⟨done, added, stored, few⟩
          exact ⟨_, added, writeLoop_last rounds (done.counted counter),
            stored, few⟩
  | succ count inductionHypothesis =>
      cases rounds with
      | zero => exact absurd enough (Nat.not_lt_zero _)
      | succ rounds =>
          rcases machine.writeRound_adds with ⟨done, added, stored, few⟩
          have counted := done.counted counter
          have goesOn : machine.writeRound.registers.ecx.word ≠ 0 := by
            rw [counted]
            exact ofNat_succ_ne_zero small
          have counted' : machine.writeRound.incEsi.registers.ecx.word =
              BitVec.ofNat 16 (count + 1) := counted
          rcases inductionHypothesis counted' (Nat.lt_of_succ_lt small)
              (Nat.lt_of_succ_lt_succ enough) with
            ⟨after, others, runs, later, laterFew⟩
          refine ⟨after, added ++ others, ?_, stored.trans later, ?_⟩
          · rw [writeLoop_next rounds goesOn]
            exact runs
          · rw [List.length_append]
            omega

/-! ## A call -/

/-- What `protected_vga_print` hands to the loop of `write`. -/
def measured (machine : Machine) (length : Nat) : Machine :=
  machine.popa { machine.registers with
    ecx := Register.ofValue (BitVec.ofNat 32 length) }

/-- The whole call, from a run of the loop. -/
theorem protectedVgaPrint_eq
    {machine after : Machine} {text : List (BitVec 8)}
    (stands : StandsAt machine.traced.memory machine.registers.esi text)
    (small : text.length < 2 ^ 32)
    (runs : writeLoop (2 ^ 16) (machine.measured text.length) = some after) :
    machine.protectedVgaPrint = some (after.popa machine.registers) := by
  have length : machine.strlen = some (machine.measured text.length) :=
    strlen_eq stands small
  rw [protectedVgaPrint, length, Option.bind_eq_bind, Option.bind_some,
    write, runs]
  rfl

/-! ## The cursor between calls -/

/-- A character or a linefeed leaves the cursor on the screen. -/
theorem putchar_onScreen
    {machine : Machine} (onScreen : machine.cursorPos.OnScreen) :
    machine.putchar.cursorPos.OnScreen := by
  by_cases linefeed : machine.registers.eax.low = 0x0A
  · rw [putchar_linefeed linefeed]
    constructor
    · exact onScreen.y
    · exact Nat.succ_pos 79
  · rw [putchar_character linefeed]
    exact (CursorPos.next_position onScreen).1

theorem writeLoop_onScreen
    {machine after : Machine} {rounds : Nat}
    (onScreen : machine.cursorPos.OnScreen)
    (runs : writeLoop rounds machine = some after) :
    after.cursorPos.OnScreen := by
  induction rounds generalizing machine with
  | zero => exact nomatch runs
  | succ rounds inductionHypothesis =>
      have next : machine.writeRound.cursorPos.OnScreen := by
        apply putchar_onScreen
        exact onScreen
      by_cases last : machine.writeRound.registers.ecx.word = 0
      · rw [writeLoop_last rounds last] at runs
        rw [← Option.some.inj runs]
        exact next
      · rw [writeLoop_next rounds last] at runs
        have nextByte : machine.writeRound.incEsi.cursorPos.OnScreen := next
        exact inductionHypothesis nextByte runs

/-- Counting does not move the cursor. -/
theorem strlenLoop_cursorPos
    {machine after : Machine} {rounds : Nat}
    (runs : strlenLoop rounds machine = some after) :
    after.cursorPos = machine.cursorPos := by
  induction rounds generalizing machine with
  | zero => exact nomatch runs
  | succ rounds inductionHypothesis =>
      rw [strlenLoop] at runs
      simp only [] at runs
      split_ifs at runs
      · rw [← Option.some.inj runs]
        rfl
      · have same := inductionHypothesis runs
        exact same

/-- The cursor stays on the screen, whatever is printed. -/
theorem protectedVgaPrint_onScreen
    {machine after : Machine} (onScreen : machine.cursorPos.OnScreen)
    (runs : machine.protectedVgaPrint = some after) :
    after.cursorPos.OnScreen := by
  rcases Option.bind_eq_some_iff.mp runs with ⟨counted, counts, runs⟩
  rcases Option.bind_eq_some_iff.mp counts with ⟨looped, loops, counts⟩
  rcases Option.bind_eq_some_iff.mp runs with ⟨written, writes, runs⟩
  rcases Option.bind_eq_some_iff.mp writes with ⟨printed, prints, writes⟩
  have start : counted.cursorPos.OnScreen := by
    rw [← Option.some.inj counts]
    change looped.cursorPos.OnScreen
    rw [strlenLoop_cursorPos loops]
    exact onScreen
  have kept := writeLoop_onScreen start prints
  rw [← Option.some.inj runs, ← Option.some.inj writes]
  exact kept

end Machine

end Kernull.BootVga
