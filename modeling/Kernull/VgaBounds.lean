import Kernull.VgaTerminal

/-!
# Stores to the VGA buffer

The indices at which each exported function of `vga_print.c` stores, listed
beside the loops that store there.  `vga_set_pos` takes the cursor anywhere;
from inside the screen the other functions keep it inside, from outside they
bring it back only by a newline on a row of the screen or by a scroll.
-/

namespace Kernull.VgaBounds

open Kernull.VgaPrint
open Kernull.VgaTerminal

/-! ## Calls and where they store -/

/-- The exported functions, with their arguments. -/
inductive ScreenCall where
  | terminalInitialize
  | putchar (c : BitVec 8)
  | print (s : CString)
  | setColor (color : BitVec 8)
  | setPos (x y : BitVec 8)

/-- The calls with texts taken character by character. -/
inductive Step where
  | terminalInitialize
  | putchar (c : BitVec 8)
  | setColor (color : BitVec 8)
  | setPos (x y : BitVec 8)

/-- The call in the source. -/
def performCall (vga : Vga) : ScreenCall → Vga
  | .terminalInitialize => vga.vgaTerminalInitialize
  | .putchar c => vga.vgaPutchar c
  | .print s => vga.vgaPrint s
  | .setColor color => vga.vgaSetColor color
  | .setPos x y => vga.vgaSetPos x y

/-- The step in the source. -/
def performStep (vga : Vga) : Step → Vga
  | .terminalInitialize => vga.vgaTerminalInitialize
  | .putchar c => vga.vgaPutchar c
  | .setColor color => vga.vgaSetColor color
  | .setPos x y => vga.vgaSetPos x y

/-- The steps of a call. -/
def steps : ScreenCall → List Step
  | .terminalInitialize => [.terminalInitialize]
  | .putchar c => [.putchar c]
  | .print s => ((List.range (strlen s)).map s.bytes).map Step.putchar
  | .setColor color => [.setColor color]
  | .setPos x y => [.setPos x y]

/-- A call is the run of its steps. -/
theorem performCall_eq_foldl (vga : Vga) (call : ScreenCall) :
    performCall vga call = (steps call).foldl performStep vga := by
  cases call with
  | terminalInitialize =>
      rw [steps, List.foldl_cons, List.foldl_nil, performCall, performStep]
  | putchar c => rfl
  | print s =>
      rw [steps, List.foldl_map, List.foldl_map]
      rfl
  | setColor color => rfl
  | setPos x y => rfl

/-- The number of cells of the screen. -/
def screenSize : Nat := vgaWidth * vgaHeight

/-- The stores of the loops of `vga_terminal_initialize`. -/
def initializeStores : List Nat :=
  (List.range vgaHeight).flatMap fun y =>
    (List.range vgaWidth).map fun x => y * vgaWidth + x

/-- The stores of the loops of `scroll`: `dest`, and then the blank. -/
def scrollStores (amount : Nat) : List Nat :=
  (List.range' amount (vgaHeight - amount)).flatMap fun y =>
    (List.range vgaWidth).flatMap fun x =>
      [(y - amount) * vgaWidth + x, y * vgaWidth + x]

/-- The stores of `vga_putchar`: the character, and the scroll. -/
def putcharStores (vga : Vga) (c : BitVec 8) : List Nat :=
  (if c = lineFeed then []
    else [vga.vgaRow * vgaWidth + vga.vgaColumn]) ++
  (if (vga.advance c).vgaRow = vgaHeight then scrollStores 1 else [])

/-- The stores of a step. -/
def stepStores (vga : Vga) : Step → List Nat
  | .terminalInitialize => initializeStores
  | .putchar c => putcharStores vga c
  | .setColor _ => []
  | .setPos _ _ => []

/-- The stores of a run. -/
def runStores (vga : Vga) : List Step → List Nat
  | [] => []
  | step :: others =>
      stepStores vga step ++ runStores (performStep vga step) others

theorem mem_initializeStores {index : Nat} :
    index ∈ initializeStores ↔ index < screenSize := by
  rw [initializeStores, List.mem_flatMap]
  constructor
  · rintro ⟨y, row, stored⟩
    rcases List.mem_map.mp stored with ⟨x, column, equal⟩
    rw [List.mem_range] at row column
    rw [screenSize]
    simp only [vgaHeight, vgaWidth] at row column equal ⊢
    omega
  · intro inside
    rw [screenSize] at inside
    refine ⟨index / vgaWidth, List.mem_range.mpr ?_,
      List.mem_map.mpr ⟨index % vgaWidth, List.mem_range.mpr ?_, ?_⟩⟩
    · simp only [vgaHeight, vgaWidth] at inside ⊢
      omega
    · exact Nat.mod_lt _ (by decide)
    · rw [Nat.mul_comm]
      exact Nat.div_add_mod index vgaWidth

theorem mem_scrollStores_one {index : Nat} :
    index ∈ scrollStores 1 ↔ index < screenSize := by
  rw [scrollStores, List.mem_flatMap]
  constructor
  · rintro ⟨y, row, stored⟩
    rcases List.mem_flatMap.mp stored with ⟨x, column, equal⟩
    rw [List.mem_range] at column
    rw [List.mem_range'_1] at row
    rw [List.mem_cons, List.mem_singleton] at equal
    rw [screenSize]
    simp only [vgaHeight, vgaWidth] at row column equal ⊢
    omega
  · intro inside
    rw [screenSize] at inside
    have column : index % vgaWidth < vgaWidth := Nat.mod_lt _ (by decide)
    have split : index / vgaWidth * vgaWidth + index % vgaWidth = index := by
      rw [Nat.mul_comm]
      exact Nat.div_add_mod index vgaWidth
    by_cases first : index / vgaWidth = 0
    · refine ⟨1, by decide, ?_⟩
      apply List.mem_flatMap.mpr
      refine ⟨index % vgaWidth, List.mem_range.mpr column, ?_⟩
      rw [first] at split
      rw [List.mem_cons, List.mem_singleton]
      exact Or.inl split.symm
    · refine ⟨index / vgaWidth, ?_, ?_⟩
      · rw [List.mem_range'_1]
        simp only [vgaHeight, vgaWidth] at inside first ⊢
        omega
      · apply List.mem_flatMap.mpr
        refine ⟨index % vgaWidth, List.mem_range.mpr column, ?_⟩
        rw [List.mem_cons, List.mem_singleton]
        exact Or.inr split.symm

/-! ## Cells that are not stored to -/

theorem withBuffer_blanked_frame
    {vga : Vga} {count index : Nat} (outside : count ≤ index) :
    (withBuffer vga (blanked vga 0 count)).vgaBuffer index =
      vga.vgaBuffer index := by
  exact if_neg (by omega)

theorem scrollIfPast_frame
    {vga : Vga} {index : Nat}
    (outside :
      index ∉ if vga.vgaRow = vgaHeight then scrollStores 1 else []) :
    vga.scrollIfPast.vgaBuffer index = vga.vgaBuffer index := by
  rw [Vga.scrollIfPast, scroll_one_eq]
  split_ifs at outside ⊢ with past
  · rw [mem_scrollStores_one, screenSize] at outside
    have beyond : 24 * vgaWidth + vgaWidth ≤ index := by
      simp only [vgaHeight, vgaWidth] at outside ⊢
      omega
    simp only [withBuffer, rowsMoved, blanked]
    rw [if_neg (by omega), if_neg (by omega)]
  · rfl

theorem vgaPutchar_frame
    {vga : Vga} {c : BitVec 8} {index : Nat}
    (outside : index ∉ putcharStores vga c) :
    (vga.vgaPutchar c).vgaBuffer index = vga.vgaBuffer index := by
  rw [putcharStores, List.mem_append, not_or] at outside
  rw [Vga.vgaPutchar, scrollIfPast_frame outside.2]
  by_cases feed : c = lineFeed
  · rw [feed, advance_of_lineFeed]
    rfl
  · have different :
        index ≠ vga.vgaRow * vgaWidth + vga.vgaColumn := by
      have unlisted := outside.1
      rwa [if_neg feed, List.mem_singleton] at unlisted
    have stored :
        (vga.vgaPutentryat c vga.vgaColor vga.vgaColumn
          vga.vgaRow).vgaBuffer index = vga.vgaBuffer index :=
      Function.update_of_ne different _ _
    rw [Vga.advance, if_neg feed]
    dsimp only
    split_ifs <;> exact stored

/-- A run changes no cell but those that it stores to. -/
theorem runStores_frame
    (vga : Vga) (run : List Step) {index : Nat}
    (outside : index ∉ runStores vga run) :
    (run.foldl performStep vga).vgaBuffer index = vga.vgaBuffer index := by
  induction run generalizing vga with
  | nil => rfl
  | cons step others inductionHypothesis =>
      rw [runStores, List.mem_append, not_or] at outside
      rw [List.foldl_cons, inductionHypothesis _ outside.2]
      cases step with
      | terminalInitialize =>
          have beyond := outside.1
          rw [stepStores, mem_initializeStores, screenSize] at beyond
          rw [performStep, vgaTerminalInitialize_eq,
            withBuffer_blanked_frame]
          · rfl
          · rw [Nat.mul_comm]
            exact Nat.not_lt.mp beyond
      | putchar c => exact vgaPutchar_frame outside.1
      | setColor color => rfl
      | setPos x y => rfl

/-! ## Cursors from which nothing is stored outside -/

/--
The number of characters that are printed before a newline or before the cursor
is set anew.
-/
def lineLength : List Step → Nat
  | .putchar c :: others => if c = lineFeed then 0 else lineLength others + 1
  | .setColor _ :: others => lineLength others
  | _ => 0

/-- Only newlines are printed before the cursor is set anew. -/
def Quiet : List Step → Prop
  | .putchar c :: others => c = lineFeed ∧ Quiet others
  | .setColor _ :: others => Quiet others
  | _ => True

/--
The cursor is inside the screen; or to the right of a row, and what is printed
on this row still ends inside the buffer; or below the screen, and nothing is
printed there.
-/
def Harmless (column row : Nat) (future : List Step) : Prop :=
  (column < vgaWidth ∧ row < vgaHeight) ∨
    (row < vgaHeight ∧
      (lineLength future = 0 ∨
        row * vgaWidth + column + lineLength future ≤ screenSize)) ∨
    (vgaHeight ≤ row ∧ Quiet future)

/-- All stores of a list are on the screen. -/
def Inside (stores : List Nat) : Prop :=
  ∀ index ∈ stores, index < screenSize

theorem inside_append {first second : List Nat} :
    Inside (first ++ second) ↔ Inside first ∧ Inside second :=
  List.forall_mem_append

theorem inside_nil : Inside [] :=
  fun _ member => absurd member List.not_mem_nil

/-- A character's own store decides: a scroll stays on the screen. -/
theorem inside_putcharStores (vga : Vga) (c : BitVec 8) :
    Inside (putcharStores vga c) ↔
      (c ≠ lineFeed →
        vga.vgaRow * vgaWidth + vga.vgaColumn < screenSize) := by
  have scrolled :
      Inside
        (if (vga.advance c).vgaRow = vgaHeight then scrollStores 1
          else []) := by
    split_ifs
    · exact fun index member => mem_scrollStores_one.mp member
    · exact inside_nil
  rw [putcharStores, inside_append, and_iff_left scrolled]
  by_cases feed : c = lineFeed
  · rw [if_pos feed]
    exact ⟨fun _ other => absurd feed other, fun _ => inside_nil⟩
  · rw [if_neg feed]
    exact
      ⟨fun inside _ => inside _ (List.mem_singleton_self _),
        fun bound index member => by
          rw [List.mem_singleton.mp member]
          exact bound feed⟩

/-- The cursor after a newline. -/
theorem vgaPutchar_lineFeed (vga : Vga) :
    (vga.vgaPutchar lineFeed).vgaColumn = 0 ∧
      (vga.vgaPutchar lineFeed).vgaRow =
        if vga.vgaRow + 1 = vgaHeight then vgaHeight - 1
        else vga.vgaRow + 1 := by
  rw [Vga.vgaPutchar, advance_of_lineFeed, scrollIfPast_vgaColumn,
    scrollIfPast_vgaRow]
  exact ⟨rfl, rfl⟩

/-- The cursor after an ordinary character. -/
theorem vgaPutchar_ordinary (vga : Vga) {c : BitVec 8}
    (ordinary : c ≠ lineFeed) :
    (vga.vgaColumn + 1 = vgaWidth ∧ (vga.vgaPutchar c).vgaColumn = 0 ∧
        (vga.vgaPutchar c).vgaRow =
          if vga.vgaRow + 1 = vgaHeight then vgaHeight - 1
          else vga.vgaRow + 1) ∨
      (vga.vgaColumn + 1 ≠ vgaWidth ∧
        (vga.vgaPutchar c).vgaColumn = vga.vgaColumn + 1 ∧
        (vga.vgaPutchar c).vgaRow =
          if vga.vgaRow = vgaHeight then vgaHeight - 1
          else vga.vgaRow) := by
  rw [Vga.vgaPutchar, scrollIfPast_vgaColumn, scrollIfPast_vgaRow]
  rcases advance_cursor vga ordinary with
    ⟨last, column, row⟩ | ⟨notLast, column, row⟩
  · left
    rw [column, row]
    exact ⟨last, rfl, rfl⟩
  · right
    rw [column, row]
    exact ⟨notLast, rfl, rfl⟩

/-- Inside the screen any future is harmless. -/
theorem harmless_of_inside {column row : Nat} (future : List Step)
    (insideRow : column < vgaWidth) (insideScreen : row < vgaHeight) :
    Harmless column row future :=
  Or.inl ⟨insideRow, insideScreen⟩

/-- After a wrap the column is inside, and only the row decides. -/
theorem harmless_wrapped {row : Nat} (future : List Step) :
    Harmless 0 (if row + 1 = vgaHeight then vgaHeight - 1 else row + 1)
        future ↔
      row < vgaHeight ∨ Quiet future := by
  have insideRow : 0 < vgaWidth := by decide
  by_cases last : row + 1 = vgaHeight
  · rw [if_pos last]
    constructor
    · intro _
      exact Or.inl (Nat.lt_of_succ_le (Nat.le_of_eq last))
    · intro _
      exact harmless_of_inside future insideRow (by decide)
  · rw [if_neg last]
    constructor
    · rintro (⟨_, inside⟩ | ⟨inside, _⟩ | ⟨_, quiet⟩)
      · exact Or.inl (Nat.lt_of_succ_lt inside)
      · exact Or.inl (Nat.lt_of_succ_lt inside)
      · exact Or.inr quiet
    · rintro (inside | quiet)
      · exact
          harmless_of_inside future insideRow
            (Nat.lt_of_le_of_ne inside last)
      · by_cases below : row + 1 < vgaHeight
        · exact harmless_of_inside future insideRow below
        · exact Or.inr (Or.inr ⟨Nat.not_lt.mp below, quiet⟩)

/-- A newline stores nothing and wraps. -/
theorem harmless_lineFeed (column row : Nat) (future : List Step) :
    Harmless column row (.putchar lineFeed :: future) ↔
      row < vgaHeight ∨ Quiet future := by
  simp only [Harmless, lineLength, Quiet, if_true, true_and, true_or,
    and_true]
  constructor
  · rintro (⟨_, inside⟩ | inside | ⟨_, quiet⟩)
    · exact Or.inl inside
    · exact Or.inl inside
    · exact Or.inr quiet
  · rintro (inside | quiet)
    · exact Or.inr (Or.inl inside)
    · by_cases inside : row < vgaHeight
      · exact Or.inr (Or.inl inside)
      · exact Or.inr (Or.inr ⟨Nat.not_lt.mp inside, quiet⟩)

/-- On a row of the screen the end of what is printed there decides. -/
theorem harmless_on_row
    {column row : Nat} (future : List Step) (inside : row < vgaHeight) :
    Harmless column row future ↔
      column < vgaWidth ∨ lineLength future = 0 ∨
        row * vgaWidth + column + lineLength future ≤ screenSize := by
  have notBelow : ¬ vgaHeight ≤ row := Nat.not_le.mpr inside
  simp only [Harmless, inside, notBelow, and_true, true_and, false_and,
    or_false]

/-- Below the screen nothing but newlines is harmless. -/
theorem harmless_below
    {column row : Nat} (future : List Step) (below : vgaHeight ≤ row) :
    Harmless column row future ↔ Quiet future := by
  have outside : ¬ row < vgaHeight := Nat.not_lt.mpr below
  simp only [Harmless, below, outside, and_false, true_and, false_and,
    false_or]

/-- The store of a character on a row of the screen, or below it. -/
theorem store_lt_screenSize (column row : Nat) :
    (row < vgaHeight ∧ column < vgaWidth →
        row * vgaWidth + column < screenSize) ∧
      (vgaHeight ≤ row → ¬ row * vgaWidth + column < screenSize) := by
  simp only [screenSize, vgaWidth, vgaHeight]
  constructor <;> omega

/--
What a character must meet: its own store is on the screen and the cursor
after it is harmless again.
-/
theorem harmless_putchar
    (vga : Vga) (c : BitVec 8) (future : List Step) :
    Harmless vga.vgaColumn vga.vgaRow (.putchar c :: future) ↔
      Inside (putcharStores vga c) ∧
        Harmless (vga.vgaPutchar c).vgaColumn (vga.vgaPutchar c).vgaRow
          future := by
  have stores := store_lt_screenSize vga.vgaColumn vga.vgaRow
  rw [inside_putcharStores]
  by_cases feed : c = lineFeed
  · subst feed
    have cursor := vgaPutchar_lineFeed vga
    rw [cursor.1, cursor.2, harmless_lineFeed, harmless_wrapped]
    exact ⟨fun either => ⟨fun other => absurd rfl other, either⟩, And.right⟩
  by_cases below : vgaHeight ≤ vga.vgaRow
  · rw [harmless_below _ below]
    exact
      ⟨fun quiet => absurd quiet.1 feed,
        fun both => absurd (both.1 feed) (stores.2 below)⟩
  have inside : vga.vgaRow < vgaHeight := Nat.not_le.mp below
  rcases vgaPutchar_ordinary vga feed with
    ⟨last, column, row⟩ | ⟨notLast, column, row⟩
  · -- the last column of a row, from which the cursor wraps
    have insideRow : vga.vgaColumn < vgaWidth :=
      Nat.lt_of_succ_le (Nat.le_of_eq last)
    rw [column, row, harmless_wrapped]
    exact
      ⟨fun _ => ⟨fun _ => stores.1 ⟨inside, insideRow⟩, Or.inl inside⟩,
        fun _ => harmless_of_inside _ insideRow inside⟩
  · rw [column, row, if_neg (Nat.ne_of_lt inside),
      harmless_on_row _ inside, harmless_on_row _ inside, lineLength,
      if_neg feed]
    simp only [feed, screenSize, vgaWidth, vgaHeight, ne_eq,
      not_false_eq_true, forall_const] at inside notLast ⊢
    omega

/-- Where the cursor is set anew, its place before does not matter. -/
theorem harmless_of_quiet
    {column row : Nat} {future : List Step}
    (short : lineLength future = 0) (quiet : Quiet future) :
    Harmless column row future := by
  by_cases inside : row < vgaHeight
  · exact (harmless_on_row future inside).mpr (Or.inr (Or.inl short))
  · exact (harmless_below future (Nat.not_lt.mp inside)).mpr quiet

/-! ## Runs -/

/-- Every place that the cursor is set to is harmless. -/
def PlacesHarmless (run : List Step) : Prop :=
  ∀ past x y future, run = past ++ .setPos x y :: future →
    Harmless x.toNat y.toNat future

theorem placesHarmless_cons {step : Step} {others : List Step} :
    PlacesHarmless (step :: others) ↔
      (∀ x y, step = .setPos x y → Harmless x.toNat y.toNat others) ∧
        PlacesHarmless others := by
  constructor
  · intro harmless
    constructor
    · intro x y same
      exact harmless [] x y others (by rw [same, List.nil_append])
    · intro past x y future split
      exact
        harmless (step :: past) x y future
          (by rw [split, List.cons_append])
  · rintro ⟨first, rest⟩ past x y future split
    cases past with
    | nil =>
        rw [List.nil_append, List.cons.injEq] at split
        rw [← split.2]
        exact first x y split.1
    | cons head past =>
        rw [List.cons_append, List.cons.injEq] at split
        exact rest past x y future split.2

/-- A run stores on the screen only. -/
theorem inside_runStores_iff (vga : Vga) (run : List Step) :
    Inside (runStores vga run) ↔
      Harmless vga.vgaColumn vga.vgaRow run ∧ PlacesHarmless run := by
  induction run generalizing vga with
  | nil =>
      constructor
      · intro _
        constructor
        · exact harmless_of_quiet rfl trivial
        · intro past x y future split
          exact absurd split (by simp)
      · intro _
        exact inside_nil
  | cons step others inductionHypothesis =>
      rw [runStores, inside_append, inductionHypothesis,
        placesHarmless_cons]
      cases step with
      | terminalInitialize =>
          have stored : Inside initializeStores :=
            fun index member => mem_initializeStores.mp member
          have next :
              Harmless vga.vgaTerminalInitialize.vgaColumn
                vga.vgaTerminalInitialize.vgaRow others := by
            rw [vgaTerminalInitialize_eq]
            exact
              harmless_of_inside _ (show 0 < vgaWidth by decide)
                (show 0 < vgaHeight by decide)
          have here :
              Harmless vga.vgaColumn vga.vgaRow
                (.terminalInitialize :: others) :=
            harmless_of_quiet rfl trivial
          constructor
          · rintro ⟨_, _, rest⟩
            exact ⟨here, nofun, rest⟩
          · rintro ⟨_, _, rest⟩
            exact ⟨stored, next, rest⟩
      | putchar c =>
          rw [harmless_putchar]
          constructor
          · rintro ⟨stored, next, rest⟩
            exact ⟨⟨stored, next⟩, nofun, rest⟩
          · rintro ⟨⟨stored, next⟩, _, rest⟩
            exact ⟨stored, next, rest⟩
      | setColor color =>
          constructor
          · rintro ⟨_, next, rest⟩
            exact ⟨next, nofun, rest⟩
          · rintro ⟨here, _, rest⟩
            exact ⟨inside_nil, here, rest⟩
      | setPos x y =>
          constructor
          · rintro ⟨_, next, rest⟩
            refine ⟨harmless_of_quiet rfl trivial, ?_, rest⟩
            rintro _ _ ⟨⟩
            exact next
          · rintro ⟨_, first, rest⟩
            exact ⟨inside_nil, first x y rfl, rest⟩

/-- The run of the calls after `vga_terminal_initialize`. -/
def runOf (calls : List ScreenCall) : List Step :=
  .terminalInitialize :: calls.flatMap steps

theorem foldl_performCall_eq (vga : Vga) (calls : List ScreenCall) :
    calls.foldl performCall vga =
      (calls.flatMap steps).foldl performStep vga := by
  induction calls generalizing vga with
  | nil => rfl
  | cons call others inductionHypothesis =>
      rw [List.foldl_cons, List.flatMap_cons, List.foldl_append,
        ← performCall_eq_foldl]
      exact inductionHypothesis _

/--
After `vga_terminal_initialize` every store is on the screen exactly when every
`vga_set_pos` puts the cursor inside the screen, or to the right of a row on
which what is printed still ends inside the buffer, or below the screen with
nothing but newlines printed there.
-/
theorem stores_on_screen_iff (vga : Vga) (calls : List ScreenCall) :
    calls.foldl performCall vga.vgaTerminalInitialize =
        (runOf calls).foldl performStep vga ∧
      (Inside (runStores vga (runOf calls)) ↔
        PlacesHarmless (runOf calls)) := by
  have start : Harmless vga.vgaColumn vga.vgaRow (runOf calls) :=
    harmless_of_quiet rfl trivial
  constructor
  · rw [runOf, List.foldl_cons, performStep]
    exact foldl_performCall_eq _ calls
  · rw [inside_runStores_iff, and_iff_right start]

/-- With the cursor set to the first row below, a character is stored there. -/
theorem store_below_screen :
    ¬ ∀ (vga : Vga) (calls : List ScreenCall),
      Inside (runStores vga (runOf calls)) := by
  intro always
  have stored :=
    always
      { vgaRow := 0, vgaColumn := 0, vgaColor := 0, vgaBuffer := fun _ => 0 }
      [.setPos 0 25, .putchar 0x41]
  have harmless := ((inside_runStores_iff _ _).mp stored).2
  have place := harmless [.terminalInitialize] 0 25 [.putchar 0x41] rfl
  have quiet := (harmless_below _ (by decide)).mp place
  exact absurd quiet.1 (by decide)

end Kernull.VgaBounds
