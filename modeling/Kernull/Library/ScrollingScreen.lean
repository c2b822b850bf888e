import Mathlib.Logic.Function.Basic
import Mathlib.Tactic.Common

/-!
# A scrolling screen

A grid of cells with a cursor inside it.  Writing places a value at the
cursor and moves right, past the last column to the next row at once; a new
row past the last one drops the top row, shifts the others up and appends a
blank row.  What holds of the blank and of every value written holds of every
cell, and a value just written is in some cell.
-/

namespace Kernull.Library.ScrollingScreen

/-- A grid of cells and a cursor that is inside it. -/
structure Screen (rows columns : Nat) (Cell : Type) where
  cell : Fin rows → Fin columns → Cell
  row : Fin rows
  column : Fin columns

namespace Screen

variable {rows columns : Nat} {Cell : Type}

/-- Drop the top row, shift the others up and append a blank row. -/
def scroll (blank : Cell) (screen : Screen rows columns Cell) :
    Screen rows columns Cell :=
  { screen with
    cell := fun row column =>
      if below : row.val + 1 < rows then
        screen.cell ⟨row.val + 1, below⟩ column
      else
        blank }

/-- Move the cursor to the first column of the next row. -/
def newline (blank : Cell) (screen : Screen rows columns Cell) :
    Screen rows columns Cell :=
  let returned :=
    { screen with column := ⟨0, Nat.zero_lt_of_lt screen.column.isLt⟩ }
  if below : screen.row.val + 1 < rows then
    { returned with row := ⟨screen.row.val + 1, below⟩ }
  else
    returned.scroll blank

/-- Place a value at the cursor. -/
def place (value : Cell) (screen : Screen rows columns Cell) :
    Screen rows columns Cell :=
  { screen with
    cell := fun row column =>
      if row = screen.row ∧ column = screen.column then value
      else screen.cell row column }

/-- Place a value at the cursor and move the cursor on. -/
def put (blank value : Cell) (screen : Screen rows columns Cell) :
    Screen rows columns Cell :=
  if right : screen.column.val + 1 < columns then
    { screen.place value with column := ⟨screen.column.val + 1, right⟩ }
  else
    (screen.place value).newline blank

/-! ## What all cells have in common -/

/-- Every cell has a property. -/
def Everywhere (property : Cell → Prop)
    (screen : Screen rows columns Cell) : Prop :=
  ∀ row column, property (screen.cell row column)

section Everywhere

variable
  {property : Cell → Prop} {blank value : Cell}
  {screen : Screen rows columns Cell}

theorem Everywhere.newline
    (everywhere : screen.Everywhere property) (ofBlank : property blank) :
    (screen.newline blank).Everywhere property := by
  intro row column
  rw [Screen.newline]
  split_ifs with inside
  · exact everywhere row column
  · simp only [scroll]
    split_ifs with below
    · exact everywhere _ column
    · exact ofBlank

theorem Everywhere.place
    (everywhere : screen.Everywhere property) (ofValue : property value) :
    (screen.place value).Everywhere property := by
  intro row column
  simp only [Screen.place]
  split_ifs
  · exact ofValue
  · exact everywhere row column

theorem Everywhere.put
    (everywhere : screen.Everywhere property) (ofBlank : property blank)
    (ofValue : property value) :
    (screen.put blank value).Everywhere property := by
  have placed := everywhere.place ofValue
  rw [Screen.put]
  split_ifs with right
  · exact placed
  · exact placed.newline ofBlank

end Everywhere

theorem cell_place (value : Cell) (screen : Screen rows columns Cell) :
    (screen.place value).cell screen.row screen.column = value :=
  if_pos ⟨rfl, rfl⟩

/-- A value just written is shown, if a scroll leaves more than one row. -/
theorem exists_cell_put
    (several : 1 < rows) (blank value : Cell)
    (screen : Screen rows columns Cell) :
    ∃ row column, (screen.put blank value).cell row column = value := by
  have placed := cell_place value screen
  rw [put]
  split_ifs with right
  · exact ⟨screen.row, screen.column, placed⟩
  · rw [newline]
    split_ifs with below
    · exact ⟨screen.row, screen.column, placed⟩
    · -- the cursor was in the last row, which is now the last but one
      have bound : screen.row.val < rows := screen.row.isLt
      have last : ¬ screen.row.val + 1 < rows := below
      refine ⟨⟨screen.row.val - 1, by omega⟩, screen.column, ?_⟩
      have next : screen.row.val - 1 + 1 = screen.row.val := by omega
      simp only [scroll, next, dif_pos bound]
      exact placed

end Screen

end Kernull.Library.ScrollingScreen
