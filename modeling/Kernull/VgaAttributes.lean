import Mathlib.Data.List.Induction
import Kernull.VgaTerminal

/-!
# Cell attributes of the VGA terminal

The reference terminal keeps, in every cell, the character and the colour it
was written in.  `entry` packs the two with the sign of the character, so the
buffer holds the packed pairs of the reference terminal in every run, and the
attribute byte is the colour wherever the character is not negative.
-/

namespace Kernull.VgaAttributes

open Kernull.VgaPrint
open Kernull.VgaTerminal
open Kernull.Library.ScrollingScreen

/-- The attribute byte of an entry. -/
def attributeByte (value : BitVec 16) : BitVec 8 :=
  (value >>> 8).setWidth 8

/-- The attribute byte of a negative character. -/
def signAttribute : BitVec 8 := 0xFF

/-- The sign of a character fills the attribute byte. -/
theorem attributeByte_entry (uc color : BitVec 8) :
    attributeByte (entry uc color) =
      if uc.msb then signAttribute else color := by
  ext index inside
  have high : ¬ 8 + index < 8 := by omega
  have low : 8 + index < 16 := by omega
  have ones : signAttribute[index] = true :=
    BitVec.getElem_allOnes index inside
  cases negative : uc.msb with
  | false =>
      simp [attributeByte, entry, BitVec.getElem_signExtend, negative, high,
        low, BitVec.getLsbD_eq_getElem inside]
  | true =>
      simp [attributeByte, entry, BitVec.getElem_signExtend, negative, ones,
        high, low]

/-! ## The coloured reference terminal -/

/-- A cell of the reference terminal: a character and its colour. -/
structure Glyph where
  char : BitVec 8
  color : BitVec 8

/-- The reference terminal with the colour in force. -/
structure ColouredTerminal where
  screen : Screen vgaHeight vgaWidth Glyph
  color : BitVec 8

/-- The calls, character by character. -/
inductive Stroke where
  | putchar (c : BitVec 8)
  | setColor (color : BitVec 8)

/-- What a call does, character by character. -/
def strokes : TerminalCall → List Stroke
  | .putchar c => [.putchar c]
  | .write s size => ((List.range size).map s).map Stroke.putchar
  | .print s => ((List.range (strlen s)).map s.bytes).map Stroke.putchar
  | .setColor color => [.setColor color]

/-- A stroke in the source. -/
def performStroke (vga : Vga) : Stroke → Vga
  | .putchar c => vga.vgaPutchar c
  | .setColor color => vga.vgaSetColor color

/-- A stroke on the reference terminal. -/
def paint (terminal : ColouredTerminal) : Stroke → ColouredTerminal
  | .putchar c =>
      { terminal with
        screen :=
          if c = lineFeed then
            terminal.screen.newline ⟨space, terminal.color⟩
          else
            terminal.screen.put ⟨space, terminal.color⟩
              ⟨c, terminal.color⟩ }
  | .setColor color => { terminal with color := color }

/-- The colour that `vga_terminal_initialize` sets. -/
def initialColor : BitVec 8 :=
  entryColor vgaColorLightGrey vgaColorBlack

/-- The reference terminal after `vga_terminal_initialize`. -/
def initialTerminal : ColouredTerminal where
  screen := uniformScreen ⟨space, initialColor⟩
  color := initialColor

/-- The colour in force after some strokes. -/
def colorAfter (history : List Stroke) : BitVec 8 :=
  history.foldl
    (fun color stroke =>
      match stroke with
      | .putchar _ => color
      | .setColor chosen => chosen)
    initialColor

/-- Every call is the run of its strokes. -/
theorem perform_eq_foldl (vga : Vga) (call : TerminalCall) :
    perform vga call = (strokes call).foldl performStroke vga := by
  cases call with
  | putchar c => rfl
  | write s size =>
      rw [strokes, List.foldl_map, List.foldl_map]
      rfl
  | print s =>
      rw [strokes, List.foldl_map, List.foldl_map]
      rfl
  | setColor color => rfl

theorem foldl_perform_eq (vga : Vga) (calls : List TerminalCall) :
    calls.foldl perform vga =
      (calls.flatMap strokes).foldl performStroke vga := by
  induction calls generalizing vga with
  | nil => rfl
  | cons call others inductionHypothesis =>
      rw [List.foldl_cons, List.flatMap_cons, List.foldl_append,
        ← perform_eq_foldl]
      exact inductionHypothesis _

theorem color_foldl_paint (history : List Stroke) :
    (history.foldl paint initialTerminal).color = colorAfter history := by
  induction history using List.reverseRecOn with
  | nil => rfl
  | append_singleton earlier stroke inductionHypothesis =>
      rw [colorAfter, List.foldl_append, List.foldl_append]
      cases stroke with
      | putchar c => exact inductionHypothesis
      | setColor color => rfl

/-! ## The buffer holds the packed glyphs -/

/-- The buffer holds the packed glyphs, and the colours are the same. -/
structure Paints (vga : Vga) (terminal : ColouredTerminal) : Prop where
  displays :
    Displays
      (fun value (glyph : Glyph) => value = entry glyph.char glyph.color)
      vga terminal.screen
  color : vga.vgaColor = terminal.color

theorem paints_vgaTerminalInitialize (vga : Vga) :
    Paints vga.vgaTerminalInitialize initialTerminal := by
  constructor
  · exact displays_vgaTerminalInitialize vga rfl
  · rw [vgaTerminalInitialize_eq]
    rfl

theorem Paints.performStroke
    {vga : Vga} {terminal : ColouredTerminal} (paints : Paints vga terminal)
    (stroke : Stroke) :
    Paints (performStroke vga stroke) (paint terminal stroke) := by
  have displays := paints.displays
  have color := paints.color
  cases stroke with
  | putchar c =>
      constructor
      · apply displays.vgaPutchar
        · rw [color]
        · rw [color]
      · exact (vgaPutchar_vgaColor vga c).trans color
  | setColor chosen =>
      exact ⟨⟨displays.row, displays.column, displays.cells⟩, rfl⟩

/-- In every run the buffer holds the packed glyphs. -/
theorem paints_foldl (vga : Vga) (history : List Stroke) :
    Paints (history.foldl performStroke vga.vgaTerminalInitialize)
      (history.foldl paint initialTerminal) := by
  induction history using List.reverseRecOn with
  | nil =>
      rw [List.foldl_nil, List.foldl_nil]
      exact paints_vgaTerminalInitialize vga
  | append_singleton earlier stroke inductionHypothesis =>
      rw [List.foldl_append, List.foldl_append]
      exact inductionHypothesis.performStroke stroke

/-! ## Attributes -/

/-- Every attribute byte is the colour of the reference terminal's cell. -/
def AttributesKept (vga : Vga) (terminal : ColouredTerminal) : Prop :=
  ∀ row column,
    attributeByte (vga.vgaBuffer (row.val * vgaWidth + column.val)) =
      (terminal.screen.cell row column).color

/-- A glyph whose colour survives the packing. -/
def Glyph.Packs (glyph : Glyph) : Prop :=
  glyph.char.msb = false ∨ glyph.color = signAttribute

theorem Glyph.packs_iff (glyph : Glyph) :
    glyph.Packs ↔
      attributeByte (entry glyph.char glyph.color) = glyph.color := by
  rw [attributeByte_entry, Glyph.Packs]
  cases glyph.char.msb with
  | false => simp
  | true => simp [eq_comm]

/-- The attributes are kept where every shown glyph survives the packing. -/
theorem attributesKept_iff
    {vga : Vga} {terminal : ColouredTerminal}
    (paints : Paints vga terminal) :
    AttributesKept vga terminal ↔
      terminal.screen.Everywhere Glyph.Packs := by
  apply forall_congr'
  intro row
  apply forall_congr'
  intro column
  rw [paints.displays.cells row column]
  exact (Glyph.packs_iff _).symm

/-- Blanks are packed in any colour. -/
theorem packs_blank (color : BitVec 8) :
    Glyph.Packs ⟨space, color⟩ :=
  Or.inl (by decide : space.msb = false)

/-- A stroke that leaves only glyphs that survive the packing. -/
theorem packs_paint
    {terminal : ColouredTerminal} {stroke : Stroke}
    (everywhere : terminal.screen.Everywhere Glyph.Packs)
    (survives :
      ∀ c, stroke = .putchar c → Glyph.Packs ⟨c, terminal.color⟩) :
    (paint terminal stroke).screen.Everywhere Glyph.Packs := by
  cases stroke with
  | putchar c =>
      simp only [paint]
      split_ifs
      · exact everywhere.newline (packs_blank _)
      · exact everywhere.put (packs_blank _) (survives c rfl)
  | setColor color => exact everywhere

/-- A character that is shown and does not survive the packing is seen. -/
theorem packs_of_paint
    {terminal : ColouredTerminal} {c : BitVec 8}
    (everywhere :
      (paint terminal (.putchar c)).screen.Everywhere Glyph.Packs) :
    Glyph.Packs ⟨c, terminal.color⟩ := by
  by_cases feed : c = lineFeed
  · left
    rw [feed]
    exact (by decide : lineFeed.msb = false)
  · have painted :
        (paint terminal (.putchar c)).screen =
          terminal.screen.put ⟨space, terminal.color⟩
            ⟨c, terminal.color⟩ :=
      if_neg feed
    rw [painted] at everywhere
    rcases Screen.exists_cell_put (by decide : 1 < vgaHeight)
        ⟨space, terminal.color⟩ ⟨c, terminal.color⟩ terminal.screen with
      ⟨row, column, shown⟩
    rw [← shown]
    exact everywhere row column

/--
In every state of a run, after each character of its calls, the attributes are
the colours the cells were written in, exactly when every negative character
is written in the colour whose bits are all set.
-/
theorem attributes_kept_iff (vga : Vga) (calls : List TerminalCall) :
    calls.foldl perform vga.vgaTerminalInitialize =
        (calls.flatMap strokes).foldl performStroke
          vga.vgaTerminalInitialize ∧
      ((∀ past future, calls.flatMap strokes = past ++ future →
          AttributesKept
            (past.foldl performStroke vga.vgaTerminalInitialize)
            (past.foldl paint initialTerminal)) ↔
        ∀ past c future,
          calls.flatMap strokes = past ++ .putchar c :: future →
            c.msb = false ∨ colorAfter past = signAttribute) := by
  refine ⟨foldl_perform_eq _ calls, ?_, ?_⟩
  · intro kept past c future split
    have shown :=
      kept (past ++ [.putchar c]) future
        (by rw [split, List.append_assoc, List.singleton_append])
    have packed := (attributesKept_iff (paints_foldl vga _)).mp shown
    rw [List.foldl_append] at packed
    have glyph := packs_of_paint packed
    rwa [Glyph.Packs, color_foldl_paint] at glyph
  · intro survives past
    induction past using List.reverseRecOn with
    | nil =>
        intro future _
        apply (attributesKept_iff (paints_foldl vga [])).mpr
        exact fun row column => packs_blank initialColor
    | append_singleton earlier stroke inductionHypothesis =>
        intro future split
        rw [List.append_assoc, List.singleton_append] at split
        have before :=
          (attributesKept_iff (paints_foldl vga earlier)).mp
            (inductionHypothesis (stroke :: future) split)
        apply (attributesKept_iff (paints_foldl vga _)).mpr
        rw [List.foldl_append]
        apply packs_paint before
        intro c same
        subst same
        rw [Glyph.Packs, color_foldl_paint]
        exact survives earlier c future split

/-- The character `0x80` in the first cell makes its colour 0xFF. -/
theorem attribute_not_kept :
    ¬ ∀ (vga : Vga) (calls : List TerminalCall),
      AttributesKept (calls.foldl perform vga.vgaTerminalInitialize)
        ((calls.flatMap strokes).foldl paint initialTerminal) := by
  intro always
  have kept :=
    always
      { vgaRow := 0, vgaColumn := 0, vgaColor := 0, vgaBuffer := fun _ => 0 }
      [.putchar 0x80]
  rw [foldl_perform_eq] at kept
  have packed := (attributesKept_iff (paints_foldl _ _)).mp kept
  rw [show [TerminalCall.putchar 0x80].flatMap strokes =
    [] ++ [.putchar 0x80] from rfl, List.foldl_append] at packed
  have glyph := packs_of_paint packed
  cases glyph with
  | inl positive => exact absurd positive (by decide)
  | inr allOnes => exact absurd allOnes (by decide)

end Kernull.VgaAttributes
