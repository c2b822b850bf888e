import Mathlib.Data.Nat.Find
import Mathlib.Logic.Function.Basic

/-!
# Text output to the VGA buffer

`arch/x86_64/vga_print.c`: the cursor, the colour and the flat buffer of
character and colour pairs, with the loops of the source as folds over the
rows and columns they run through.
-/

namespace Kernull.VgaPrint

/-- `VGA_WIDTH`. -/
def vgaWidth : Nat := 80

/-- `VGA_HEIGHT`. -/
def vgaHeight : Nat := 25

/-- `VGA_COLOR_BLACK`. -/
def vgaColorBlack : BitVec 8 := 0

/-- `VGA_COLOR_LIGHT_GREY`. -/
def vgaColorLightGrey : BitVec 8 := 7

/--
The global variables; `vgaBuffer` is what `vga_buffer` points to.  The row and
the column are `size_t` in C and do not wrap here: `set_pos` takes bytes, so a
wrap needs about 2 ^ 64 characters.
-/
structure Vga where
  vgaRow : Nat
  vgaColumn : Nat
  vgaColor : BitVec 8
  vgaBuffer : Nat → BitVec 16

/-- `entry_color`. -/
def entryColor (fg bg : BitVec 8) : BitVec 8 :=
  fg ||| (bg <<< 4)

/-- `entry`; a `char` is signed, so its conversion to `u16` extends the sign. -/
def entry (uc color : BitVec 8) : BitVec 16 :=
  uc.signExtend 16 ||| (color.setWidth 16 <<< 8)

/-- The blank character. -/
def space : BitVec 8 := 0x20

/-- The newline character. -/
def lineFeed : BitVec 8 := 0x0A

/-- A C string: bytes that end in a zero. -/
structure CString where
  bytes : Nat → BitVec 8
  terminated : ∃ length, bytes length = 0

/-- `strlen`. -/
def strlen (s : CString) : Nat :=
  Nat.find s.terminated

namespace Vga

/-- A store to `vga_buffer[index]`. -/
def store (vga : Vga) (index : Nat) (value : BitVec 16) : Vga :=
  { vga with vgaBuffer := Function.update vga.vgaBuffer index value }

/-- `vga_terminal_initialize`. -/
def vgaTerminalInitialize (vga : Vga) : Vga :=
  let vga := { vga with
    vgaRow := 0
    vgaColumn := 0
    vgaColor := entryColor vgaColorLightGrey vgaColorBlack }
  (List.range vgaHeight).foldl (fun vga y =>
    (List.range vgaWidth).foldl (fun vga x =>
      vga.store (y * vgaWidth + x) (entry space vga.vgaColor)) vga) vga

/-- `vga_set_color`. -/
def vgaSetColor (vga : Vga) (color : BitVec 8) : Vga :=
  { vga with vgaColor := color }

/-- `vga_set_pos`. -/
def vgaSetPos (vga : Vga) (x y : BitVec 8) : Vga :=
  { vga with vgaColumn := x.toNat, vgaRow := y.toNat }

/-- `vga_putentryat`. -/
def vgaPutentryat (vga : Vga) (c color : BitVec 8) (x y : Nat) : Vga :=
  vga.store (y * vgaWidth + x) (entry c color)

/-- One pass of the inner loop of `scroll`. -/
def scrollCell (amount y : Nat) (vga : Vga) (x : Nat) : Vga :=
  (vga.store ((y - amount) * vgaWidth + x)
    (vga.vgaBuffer (y * vgaWidth + x))).vgaPutentryat
      space vga.vgaColor x y

/-- `scroll`, for amounts of at most `VGA_HEIGHT`. -/
def scroll (vga : Vga) (amount : Nat) : Vga :=
  (List.range' amount (vgaHeight - amount)).foldl (fun vga y =>
    (List.range vgaWidth).foldl (scrollCell amount y) vga) vga

/-- `vga_column = 0; ++vga_row`. -/
def nextRow (vga : Vga) : Vga :=
  { vga with vgaColumn := 0, vgaRow := vga.vgaRow + 1 }

/-- The cursor after a character, which may be past the last row. -/
def advance (vga : Vga) (c : BitVec 8) : Vga :=
  if c = lineFeed then
    vga.nextRow
  else
    let vga := vga.vgaPutentryat c vga.vgaColor vga.vgaColumn vga.vgaRow
    if vga.vgaColumn + 1 = vgaWidth then
      vga.nextRow
    else
      { vga with vgaColumn := vga.vgaColumn + 1 }

/-- The last statement of `vga_putchar`: scroll when past the last row. -/
def scrollIfPast (vga : Vga) : Vga :=
  if vga.vgaRow = vgaHeight then
    { vga.scroll 1 with vgaRow := (vga.scroll 1).vgaRow - 1 }
  else
    vga

/-- `vga_putchar`. -/
def vgaPutchar (vga : Vga) (c : BitVec 8) : Vga :=
  (vga.advance c).scrollIfPast

/-- `vga_write`. -/
def vgaWrite (vga : Vga) (s : Nat → BitVec 8) (size : Nat) : Vga :=
  (List.range size).foldl (fun vga i => vga.vgaPutchar (s i)) vga

/-- `vga_print`. -/
def vgaPrint (vga : Vga) (s : CString) : Vga :=
  vga.vgaWrite s.bytes (strlen s)

end Vga

end Kernull.VgaPrint
