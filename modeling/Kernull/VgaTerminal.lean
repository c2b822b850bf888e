import Kernull.Library.ScrollingScreen
import Kernull.VgaPrint

/-!
# The VGA text buffer shows a scrolling screen

The character bytes of the buffer and the cursor are those of a scrolling
screen of 25 rows and 80 columns, whatever is printed in whatever colours.
The scrolling loop of the source works in place on the flat buffer; it is
described index by index before it is compared with the screen.
-/

namespace Kernull.VgaTerminal

open Kernull.VgaPrint
open Kernull.Library.ScrollingScreen

/-! ## Entries -/

/-- The character byte of an entry. -/
def character (value : BitVec 16) : BitVec 8 :=
  value.setWidth 8

@[simp]
theorem character_entry (uc color : BitVec 8) :
    character (entry uc color) = uc := by
  ext index inside
  simp [character, entry, BitVec.getLsbD_signExtend, inside]
  omega

/-! ## In-place loops -/

/-- Replace the buffer and nothing else. -/
def withBuffer (vga : Vga) (buffer : Nat → BitVec 16) : Vga :=
  { vga with vgaBuffer := buffer }

/-- The buffer with the cells of a range of indices blanked. -/
def blanked (vga : Vga) (first count : Nat) (index : Nat) : BitVec 16 :=
  if first ≤ index ∧ index < first + count then entry space vga.vgaColor
  else vga.vgaBuffer index

theorem blanked_zero (vga : Vga) (first : Nat) :
    withBuffer vga (blanked vga first 0) = vga := by
  have unchanged : blanked vga first 0 = vga.vgaBuffer := by
    funext index
    rw [blanked, if_neg (by omega)]
  rw [unchanged]
  rfl

/-- The inner loop of `vga_terminal_initialize`. -/
theorem foldl_blank_row (vga : Vga) (y count : Nat) :
    (List.range count).foldl (fun vga x =>
        vga.store (y * vgaWidth + x) (entry space vga.vgaColor)) vga =
      withBuffer vga (blanked vga (y * vgaWidth) count) := by
  induction count with
  | zero => exact (blanked_zero vga _).symm
  | succ count inductionHypothesis =>
      rw [List.range_succ, List.foldl_append, inductionHypothesis]
      simp only [List.foldl_cons, List.foldl_nil, Vga.store, withBuffer]
      congr 1
      funext index
      rw [Function.update_apply]
      simp only [blanked]
      split_ifs <;> first | rfl | omega

/-- Both loops of `vga_terminal_initialize`, up to a row. -/
theorem foldl_blank_rows (vga : Vga) (count : Nat) :
    (List.range count).foldl (fun vga y =>
        (List.range vgaWidth).foldl (fun vga x =>
          vga.store (y * vgaWidth + x) (entry space vga.vgaColor)) vga)
        vga =
      withBuffer vga (blanked vga 0 (count * vgaWidth)) := by
  induction count with
  | zero => simpa using (blanked_zero vga 0).symm
  | succ count inductionHypothesis =>
      rw [List.range_succ, List.foldl_append, inductionHypothesis]
      simp only [List.foldl_cons, List.foldl_nil, foldl_blank_row,
        withBuffer]
      have next : (count + 1) * vgaWidth = count * vgaWidth + vgaWidth :=
        Nat.succ_mul count vgaWidth
      congr 1
      funext index
      simp only [blanked]
      split_ifs <;> first | rfl | omega

/-- The cursor and the colour that `vga_terminal_initialize` sets. -/
def cleared (vga : Vga) : Vga :=
  { vga with
    vgaRow := 0
    vgaColumn := 0
    vgaColor := entryColor vgaColorLightGrey vgaColorBlack }

/-- What `vga_terminal_initialize` leaves. -/
theorem vgaTerminalInitialize_eq (vga : Vga) :
    vga.vgaTerminalInitialize =
      withBuffer (cleared vga)
        (blanked (cleared vga) 0 (vgaHeight * vgaWidth)) :=
  foldl_blank_rows (cleared vga) vgaHeight

/-- The buffer while row `y` is moved up, with `count` columns done. -/
def rowMoved (vga : Vga) (y count : Nat) (index : Nat) : BitVec 16 :=
  if (y - 1) * vgaWidth ≤ index ∧ index < (y - 1) * vgaWidth + count then
    vga.vgaBuffer (index + vgaWidth)
  else
    blanked vga (y * vgaWidth) count index

/-- The inner loop of `scroll(1)`. -/
theorem foldl_scrollCell (vga : Vga) {y count : Nat}
    (positive : 0 < y) (inside : count ≤ vgaWidth) :
    (List.range count).foldl (Vga.scrollCell 1 y) vga =
      withBuffer vga (rowMoved vga y count) := by
  have above : y * vgaWidth = (y - 1) * vgaWidth + vgaWidth := by
    rw [← Nat.succ_mul, Nat.succ_eq_add_one, Nat.sub_add_cancel positive]
  induction count with
  | zero =>
      have unchanged : rowMoved vga y 0 = vga.vgaBuffer := by
        funext index
        rw [rowMoved, if_neg (by omega), blanked, if_neg (by omega)]
      rw [unchanged]
      rfl
  | succ count inductionHypothesis =>
      rw [List.range_succ, List.foldl_append,
        inductionHypothesis (Nat.le_of_succ_le inside)]
      simp only [List.foldl_cons, List.foldl_nil, Vga.scrollCell,
        Vga.vgaPutentryat, Vga.store, withBuffer]
      congr 1
      funext index
      simp only [Function.update_apply, rowMoved, blanked]
      split_ifs <;> first | rfl | omega | (congr 1; omega)

/-- The buffer once the rows up to `y` have been moved up. -/
def rowsMoved (vga : Vga) (y : Nat) (index : Nat) : BitVec 16 :=
  if index < y * vgaWidth then vga.vgaBuffer (index + vgaWidth)
  else blanked vga (y * vgaWidth) vgaWidth index

/-- The outer loop of `scroll(1)`, after at least one row. -/
theorem foldl_scroll_rows (vga : Vga) (count : Nat) :
    (List.range' 1 (count + 1)).foldl (fun vga y =>
        (List.range vgaWidth).foldl (Vga.scrollCell 1 y) vga) vga =
      withBuffer vga (rowsMoved vga (count + 1)) := by
  induction count with
  | zero =>
      rw [List.range'_one, List.foldl_cons, List.foldl_nil,
        foldl_scrollCell vga (by decide) (Nat.le_refl _)]
      congr 1
      funext index
      simp only [rowMoved, rowsMoved, blanked, Nat.sub_self, Nat.zero_mul,
        Nat.zero_add, Nat.one_mul]
      split_ifs <;> first | rfl | omega
  | succ count inductionHypothesis =>
      rw [List.range'_concat, List.foldl_append, inductionHypothesis,
        List.foldl_cons, List.foldl_nil,
        foldl_scrollCell _ (by omega) (Nat.le_refl _)]
      have above : 1 + 1 * (count + 1) - 1 = count + 1 := by omega
      have next : (1 + 1 * (count + 1)) * vgaWidth =
          (count + 1) * vgaWidth + vgaWidth := by
        rw [Nat.one_mul, Nat.add_comm, Nat.succ_mul]
      have last : (count + 1 + 1) * vgaWidth =
          (count + 1) * vgaWidth + vgaWidth :=
        Nat.succ_mul (count + 1) vgaWidth
      simp only [withBuffer]
      congr 1
      funext index
      simp only [rowMoved, rowsMoved, blanked, above]
      split_ifs <;> first | rfl | omega

/-- `scroll(1)` drops the first row and blanks the last. -/
theorem scroll_one_eq (vga : Vga) :
    vga.scroll 1 = withBuffer vga (rowsMoved vga 24) :=
  foldl_scroll_rows vga 23

/-! ## The cursor and the colour -/

/-- `scroll(1)` leaves the cursor and the colour alone. -/
theorem scrollIfPast_vgaColumn (vga : Vga) :
    vga.scrollIfPast.vgaColumn = vga.vgaColumn := by
  rw [Vga.scrollIfPast, scroll_one_eq]
  split_ifs <;> rfl

theorem scrollIfPast_vgaColor (vga : Vga) :
    vga.scrollIfPast.vgaColor = vga.vgaColor := by
  rw [Vga.scrollIfPast, scroll_one_eq]
  split_ifs <;> rfl

/-- Only the row just past the last one is corrected. -/
theorem scrollIfPast_vgaRow (vga : Vga) :
    vga.scrollIfPast.vgaRow =
      if vga.vgaRow = vgaHeight then vgaHeight - 1 else vga.vgaRow := by
  rw [Vga.scrollIfPast, scroll_one_eq]
  split_ifs with past
  · exact congrArg (· - 1) past
  · rfl

theorem advance_of_lineFeed (vga : Vga) :
    vga.advance lineFeed = vga.nextRow :=
  if_pos rfl

/-- The cursor after an ordinary character, before the screen scrolls. -/
theorem advance_cursor (vga : Vga) {c : BitVec 8} (ordinary : c ≠ lineFeed) :
    (vga.vgaColumn + 1 = vgaWidth ∧ (vga.advance c).vgaColumn = 0 ∧
        (vga.advance c).vgaRow = vga.vgaRow + 1) ∨
      (vga.vgaColumn + 1 ≠ vgaWidth ∧
        (vga.advance c).vgaColumn = vga.vgaColumn + 1 ∧
        (vga.advance c).vgaRow = vga.vgaRow) := by
  rw [Vga.advance, if_neg ordinary]
  dsimp only
  split_ifs with last
  · exact Or.inl ⟨last, rfl, rfl⟩
  · exact Or.inr ⟨last, rfl, rfl⟩

theorem advance_vgaColor (vga : Vga) (c : BitVec 8) :
    (vga.advance c).vgaColor = vga.vgaColor := by
  rw [Vga.advance]
  dsimp only
  split_ifs <;> rfl

theorem vgaPutchar_vgaColor (vga : Vga) (c : BitVec 8) :
    (vga.vgaPutchar c).vgaColor = vga.vgaColor := by
  rw [Vga.vgaPutchar, scrollIfPast_vgaColor, advance_vgaColor]

/-! ## The screen that is shown -/

/-- The screen of the terminal: character bytes in 25 rows of 80. -/
abbrev TerminalScreen : Type :=
  Screen vgaHeight vgaWidth (BitVec 8)

/--
The cursor is the screen's, and each cell of the buffer is related to the
screen's, for whatever the screen shows of a cell.
-/
structure Displays {Cell : Type} (relates : BitVec 16 → Cell → Prop)
    (vga : Vga) (screen : Screen vgaHeight vgaWidth Cell) : Prop where
  row : vga.vgaRow = screen.row
  column : vga.vgaColumn = screen.column
  cells : ∀ row column,
    relates (vga.vgaBuffer (row.val * vgaWidth + column.val))
      (screen.cell row column)

/-- A blank screen with the cursor in its first cell. -/
def blankScreen : TerminalScreen where
  cell := fun _ _ => space
  row := ⟨0, by decide⟩
  column := ⟨0, by decide⟩

/-- The cursor and the character bytes of the buffer are the screen's. -/
structure Shows (vga : Vga) (screen : TerminalScreen) : Prop where
  row : vga.vgaRow = screen.row
  column : vga.vgaColumn = screen.column
  cells : ∀ row column,
    character (vga.vgaBuffer (row.val * vgaWidth + column.val)) =
      screen.cell row column

/-- Cells of the buffer that coincide are the same cell. -/
theorem index_eq_iff
    {row row' : Nat} {column column' : Fin vgaWidth} :
    row * vgaWidth + column.val = row' * vgaWidth + column'.val ↔
      row = row' ∧ column = column' := by
  have inside := column.isLt
  have inside' := column'.isLt
  rw [Fin.ext_iff]
  simp only [vgaWidth] at inside inside' ⊢
  omega

/-- A screen of one value, with the cursor in its first cell. -/
def uniformScreen {Cell : Type} (blank : Cell) :
    Screen vgaHeight vgaWidth Cell where
  cell := fun _ _ => blank
  row := ⟨0, by decide⟩
  column := ⟨0, by decide⟩

theorem displays_vgaTerminalInitialize
    {Cell : Type} {relates : BitVec 16 → Cell → Prop} {blank : Cell}
    (vga : Vga)
    (related :
      relates (entry space (entryColor vgaColorLightGrey vgaColorBlack))
        blank) :
    Displays relates vga.vgaTerminalInitialize (uniformScreen blank) := by
  rw [vgaTerminalInitialize_eq]
  refine ⟨rfl, rfl, fun row column => ?_⟩
  have inside : row.val * vgaWidth + column.val <
      0 + vgaHeight * vgaWidth := by
    have rowInside := row.isLt
    have columnInside := column.isLt
    simp only [vgaHeight, vgaWidth] at rowInside columnInside ⊢
    omega
  simp only [withBuffer, blanked]
  rw [if_pos ⟨Nat.zero_le _, inside⟩]
  exact related

theorem shows_iff {vga : Vga} {screen : TerminalScreen} :
    Shows vga screen ↔
      Displays (fun value c => character value = c) vga screen :=
  ⟨fun shows => ⟨shows.row, shows.column, shows.cells⟩,
    fun displays => ⟨displays.row, displays.column, displays.cells⟩⟩

theorem shows_vgaTerminalInitialize (vga : Vga) :
    Shows vga.vgaTerminalInitialize blankScreen := by
  apply shows_iff.mpr
  exact displays_vgaTerminalInitialize vga (character_entry space _)

/-- Inside the buffer nothing scrolls. -/
theorem scrollIfPast_of_inside
    {vga : Vga} (inside : vga.vgaRow ≠ vgaHeight) :
    vga.scrollIfPast = vga :=
  if_neg inside

namespace Displays

variable
  {Cell : Type} {relates : BitVec 16 → Cell → Prop} {vga : Vga}
  {screen : Screen vgaHeight vgaWidth Cell} {blank value : Cell}

/-- A character placed at the cursor. -/
theorem place (displays : Displays relates vga screen) {c : BitVec 8}
    (related : relates (entry c vga.vgaColor) value) :
    Displays relates
      (vga.vgaPutentryat c vga.vgaColor vga.vgaColumn vga.vgaRow)
      (screen.place value) := by
  refine ⟨displays.row, displays.column, fun row column => ?_⟩
  simp only [Vga.vgaPutentryat, Vga.store, Screen.place,
    Function.update_apply, displays.row, displays.column, index_eq_iff,
    ← Fin.ext_iff]
  split_ifs
  · exact related
  · exact displays.cells row column

/-- The cursor moves to the next row, and the screen scrolls if needed. -/
theorem newline (displays : Displays relates vga screen)
    (related : relates (entry space vga.vgaColor) blank) :
    Displays relates vga.nextRow.scrollIfPast (screen.newline blank) := by
  have bound := screen.row.isLt
  rw [Vga.scrollIfPast, scroll_one_eq]
  by_cases below : screen.row.val + 1 < vgaHeight
  · have notPast : vga.nextRow.vgaRow ≠ vgaHeight := by
      rw [Vga.nextRow, displays.row]
      exact Nat.ne_of_lt below
    rw [if_neg notPast, Screen.newline, dif_pos below]
    exact ⟨congrArg (· + 1) displays.row, rfl, displays.cells⟩
  · have past : vga.nextRow.vgaRow = vgaHeight := by
      rw [Vga.nextRow, displays.row]
      exact Nat.le_antisymm bound (Nat.not_lt.mp below)
    rw [if_pos past, Screen.newline, dif_neg below]
    refine ⟨displays.row, rfl, fun row column => ?_⟩
    have inside := column.isLt
    have rowInside := row.isLt
    simp only [withBuffer, rowsMoved, blanked, Screen.scroll, Vga.nextRow]
    by_cases above : row.val + 1 < vgaHeight
    · have next : (row.val + 1) * vgaWidth + column.val =
          row.val * vgaWidth + column.val + vgaWidth := by
        rw [Nat.succ_mul]
        omega
      have moved : row.val * vgaWidth + column.val < 24 * vgaWidth := by
        simp only [vgaHeight, vgaWidth] at above inside ⊢
        omega
      rw [if_pos moved, dif_pos above, ← next]
      exact displays.cells ⟨row.val + 1, above⟩ column
    · have last : row.val = 24 := by
        simp only [vgaHeight] at above rowInside
        omega
      rw [if_neg (by rw [last]; omega), if_pos (by rw [last]; omega),
        dif_neg above]
      exact related

/-- `vga_putchar`: a newline, or the character's cell and the cursor on. -/
theorem vgaPutchar (displays : Displays relates vga screen) {c : BitVec 8}
    (relatedSpace : relates (entry space vga.vgaColor) blank)
    (related : relates (entry c vga.vgaColor) value) :
    Displays relates (vga.vgaPutchar c)
      (if c = lineFeed then screen.newline blank
        else screen.put blank value) := by
  rw [Vga.vgaPutchar, Vga.advance]
  dsimp only
  split_ifs with feed last
  · exact displays.newline relatedSpace
  · have placed := displays.place related
    have column : ¬ screen.column.val + 1 < vgaWidth := by
      rw [placed.column] at last
      exact Nat.not_lt.mpr (Nat.le_of_eq last.symm)
    rw [Screen.put, dif_neg column]
    exact placed.newline relatedSpace
  · have placed := displays.place related
    have inside := screen.column.isLt
    have column : screen.column.val + 1 < vgaWidth := by
      rw [placed.column] at last
      exact Nat.lt_of_le_of_ne inside last
    have notPast : vga.vgaRow ≠ vgaHeight := by
      rw [displays.row]
      exact Nat.ne_of_lt screen.row.isLt
    rw [Screen.put, dif_pos column, scrollIfPast_of_inside]
    · exact ⟨placed.row, congrArg (· + 1) placed.column, placed.cells⟩
    · exact notPast

end Displays

/-- `vga_putchar` on the screen. -/
def displayChar (screen : TerminalScreen) (c : BitVec 8) :
    TerminalScreen :=
  if c = lineFeed then screen.newline space else screen.put space c

theorem Shows.vgaPutchar
    {vga : Vga} {screen : TerminalScreen} (shows : Shows vga screen)
    (c : BitVec 8) :
    Shows (vga.vgaPutchar c) (displayChar screen c) := by
  have displays := shows_iff.mp shows
  apply shows_iff.mpr
  exact
    displays.vgaPutchar (character_entry space vga.vgaColor)
      (character_entry c vga.vgaColor)

/-! ## Sequences of calls -/

/-- The calls that print on the terminal or change its colour. -/
inductive TerminalCall where
  | putchar (c : BitVec 8)
  | write (s : Nat → BitVec 8) (size : Nat)
  | print (s : CString)
  | setColor (color : BitVec 8)

/-- The call in the source. -/
def perform (vga : Vga) : TerminalCall → Vga
  | .putchar c => vga.vgaPutchar c
  | .write s size => vga.vgaWrite s size
  | .print s => vga.vgaPrint s
  | .setColor color => vga.vgaSetColor color

/-- The call on the reference terminal, which has no colours. -/
def display (screen : TerminalScreen) : TerminalCall → TerminalScreen
  | .putchar c => displayChar screen c
  | .write s size => ((List.range size).map s).foldl displayChar screen
  | .print s =>
      ((List.range (strlen s)).map s.bytes).foldl displayChar screen
  | .setColor _ => screen

theorem Shows.vgaWrite
    {vga : Vga} {screen : TerminalScreen} (shows : Shows vga screen)
    (s : Nat → BitVec 8) (size : Nat) :
    Shows (vga.vgaWrite s size)
      (((List.range size).map s).foldl displayChar screen) := by
  rw [Vga.vgaWrite, List.foldl_map]
  induction List.range size generalizing vga screen with
  | nil => exact shows
  | cons index rest inductionHypothesis =>
      exact inductionHypothesis (shows.vgaPutchar (s index))

theorem Shows.perform
    {vga : Vga} {screen : TerminalScreen} (shows : Shows vga screen)
    (call : TerminalCall) :
    Shows (perform vga call) (display screen call) := by
  cases call with
  | putchar c => exact shows.vgaPutchar c
  | write s size => exact shows.vgaWrite s size
  | print s => exact shows.vgaWrite s.bytes (strlen s)
  | setColor color => exact ⟨shows.row, shows.column, shows.cells⟩

/--
After `vga_terminal_initialize`, every sequence of calls leaves the cursor
inside the buffer, and the character bytes and the cursor of the reference
terminal.
-/
theorem terminal_shows_scrolling_screen
    (vga : Vga) (calls : List TerminalCall) :
    let final := calls.foldl perform vga.vgaTerminalInitialize
    final.vgaRow < 25 ∧ final.vgaColumn < 80 ∧
      Shows final (calls.foldl display blankScreen) := by
  have shown : Shows (calls.foldl perform vga.vgaTerminalInitialize)
      (calls.foldl display blankScreen) := by
    have start := shows_vgaTerminalInitialize vga
    revert start
    generalize vga.vgaTerminalInitialize = current
    generalize blankScreen = screen
    intro start
    induction calls generalizing current screen with
    | nil => exact start
    | cons call rest inductionHypothesis =>
        exact inductionHypothesis _ _ (start.perform call)
  refine ⟨?_, ?_, shown⟩
  · rw [shown.row]
    exact Fin.isLt _
  · rw [shown.column]
    exact Fin.isLt _

end Kernull.VgaTerminal
