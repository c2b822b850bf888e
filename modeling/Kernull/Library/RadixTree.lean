import Mathlib.Data.List.Nodup
import Mathlib.Logic.Basic

/-!
# Radix trees stored in tables

A radix tree is held in a memory of tables: every frame is a table of entries,
and an entry is absent, ends the lookup, or leads to the table of the next
level.  A lookup follows one index for each level.  Insertion follows the same
path to its last level, takes a fresh table wherever one is missing, and
changes the entry it arrives at.

The memory is a graph in general.  It is a tree below a frame when no table is
reached along two different paths.  Then insertion into clean fresh tables
makes the path found, and leaves the outcome of every other lookup as it was.
-/

namespace Kernull.Library.RadixTree

variable {Frame Index Entry : Type}

/-- A memory of tables. -/
abbrev Tables (Frame Index Entry : Type) : Type :=
  Frame → Index → Entry

/-- How entries are read; an entry may end the lookup at some depths only. -/
structure Shape (Frame Entry : Type) where
  present : Entry → Bool
  stops : Nat → Entry → Bool
  child : Entry → Frame

/-- The depth at which a lookup ends, with the entry if it is present. -/
inductive Outcome (Entry : Type) where
  | absent (depth : Nat)
  | found (depth : Nat) (entry : Entry)

/-- Follow a path of indices from a table at the given depth. -/
def lookup (shape : Shape Frame Entry) (tables : Tables Frame Index Entry) :
    Nat → Frame → List Index → Outcome Entry
  | depth, _, [] => .absent depth
  | depth, frame, [index] =>
      if shape.present (tables frame index) then
        .found depth (tables frame index)
      else .absent depth
  | depth, frame, index :: next :: rest =>
      if shape.present (tables frame index) then
        if shape.stops depth (tables frame index) then
          .found depth (tables frame index)
        else
          lookup shape tables (depth + 1)
            (shape.child (tables frame index)) (next :: rest)
      else .absent depth

/-- The table a path leads to. -/
def tableAt (shape : Shape Frame Entry) (tables : Tables Frame Index Entry) :
    Nat → Frame → List Index → Option Frame
  | _, frame, [] => some frame
  | depth, frame, index :: rest =>
      if shape.present (tables frame index) &&
          !shape.stops depth (tables frame index) then
        tableAt shape tables (depth + 1) (shape.child (tables frame index))
          rest
      else none

/-- The tables below `frame`, down to the given level, form a tree. -/
def Unshared (shape : Shape Frame Entry) (tables : Tables Frame Index Entry)
    (depth : Nat) (frame : Frame) (levels : Nat) : Prop :=
  ∀ left right other, left.length ≤ levels → right.length ≤ levels →
    tableAt shape tables depth frame left = some other →
    tableAt shape tables depth frame right = some other → left = right

/-- None of the tables below `frame` is one of the given frames. -/
def Avoids (shape : Shape Frame Entry) (tables : Tables Frame Index Entry)
    (depth : Nat) (frame : Frame) (levels : Nat) (fresh : List Frame) :
    Prop :=
  ∀ path other, path.length ≤ levels →
    tableAt shape tables depth frame path = some other → other ∉ fresh

/-- The given frames hold no present entry. -/
def Clean (shape : Shape Frame Entry) (tables : Tables Frame Index Entry)
    (fresh : List Frame) : Prop :=
  ∀ frame ∈ fresh, ∀ index, shape.present (tables frame index) = false

/-- Present entries of the given frames lead to the given frames. -/
def Closed (shape : Shape Frame Entry) (tables : Tables Frame Index Entry)
    (region : List Frame) : Prop :=
  ∀ frame ∈ region, ∀ index, shape.present (tables frame index) = true →
    shape.child (tables frame index) ∈ region

/-- No entry on the path ends the lookup before its last level. -/
def Unstopped (shape : Shape Frame Entry)
    (tables : Tables Frame Index Entry) :
    Nat → Frame → List Index → Prop
  | depth, frame, index :: next :: rest =>
      shape.present (tables frame index) = true →
        shape.stops depth (tables frame index) = false ∧
          Unstopped shape tables (depth + 1)
            (shape.child (tables frame index)) (next :: rest)
  | _, _, _ => True

/-- The number of tables that are missing on a path. -/
def missing (shape : Shape Frame Entry)
    (tables : Tables Frame Index Entry) : Frame → List Index → Nat
  | frame, index :: next :: rest =>
      if shape.present (tables frame index) then
        missing shape tables (shape.child (tables frame index))
          (next :: rest)
      else rest.length + 1
  | _, _ => 0

/-- A path that passes two tables has a level to go. -/
theorem exists_level
    {index next : Index} {rest : List Index} {levels : Nat}
    (length : (index :: next :: rest).length ≤ levels + 1) :
    ∃ less, levels = less + 1 :=
  Nat.exists_eq_add_one.mpr
    (Nat.lt_of_lt_of_le (Nat.succ_pos rest.length)
      (Nat.le_of_succ_le_succ length))

section Write

variable [DecidableEq Frame] [DecidableEq Index]

/-- Replace one entry. -/
def write (tables : Tables Frame Index Entry) (frame : Frame)
    (index : Index) (entry : Entry) : Tables Frame Index Entry :=
  fun otherFrame otherIndex =>
    if otherFrame = frame ∧ otherIndex = index then entry
    else tables otherFrame otherIndex

@[simp]
theorem write_same
    (tables : Tables Frame Index Entry) (frame : Frame) (index : Index)
    (entry : Entry) :
    write tables frame index entry frame index = entry :=
  if_pos ⟨rfl, rfl⟩

theorem write_of_frame_ne
    (tables : Tables Frame Index Entry) {frame other : Frame} (index : Index)
    (entry : Entry) (different : other ≠ frame) :
    write tables frame index entry other = tables other :=
  funext fun _ => if_neg fun same => different same.1

theorem write_of_index_ne
    (tables : Tables Frame Index Entry) (frame : Frame) {index other : Index}
    (entry : Entry) (different : other ≠ index) :
    write tables frame index entry frame other = tables frame other :=
  if_neg fun same => different same.2

/-- Replace the entries of a list of cells, one after the other. -/
def writeAll (tables : Tables Frame Index Entry)
    (cells : List (Frame × Index × Entry)) : Tables Frame Index Entry :=
  cells.foldl (fun tables cell => write tables cell.1 cell.2.1 cell.2.2)
    tables

/-- Entries no cell is about are kept. -/
theorem writeAll_of_unwritten
    (tables : Tables Frame Index Entry) {frame : Frame} {index : Index}
    {cells : List (Frame × Index × Entry)}
    (unwritten : ∀ cell ∈ cells, ¬ (cell.1 = frame ∧ cell.2.1 = index)) :
    writeAll tables cells frame index = tables frame index := by
  induction cells generalizing tables with
  | nil => rfl
  | cons cell cells inductionHypothesis =>
      have step := inductionHypothesis
        (write tables cell.1 cell.2.1 cell.2.2)
        fun other member => unwritten other (List.mem_cons_of_mem cell member)
      refine step.trans (if_neg ?_)
      rintro ⟨sameFrame, sameIndex⟩
      exact unwritten cell List.mem_cons_self
        ⟨sameFrame.symm, sameIndex.symm⟩

/-- If all cells about a place agree, the place holds what they say. -/
theorem writeAll_of_agreed
    (tables : Tables Frame Index Entry) {frame : Frame} {index : Index}
    {entry : Entry} {cells : List (Frame × Index × Entry)}
    (agreed : ∀ cell ∈ cells, cell.1 = frame → cell.2.1 = index →
      cell.2.2 = entry)
    (settled : tables frame index = entry ∨
      ∃ cell ∈ cells, cell.1 = frame ∧ cell.2.1 = index) :
    writeAll tables cells frame index = entry := by
  induction cells generalizing tables with
  | nil => exact settled.resolve_right (by simp)
  | cons cell cells inductionHypothesis =>
      refine inductionHypothesis (write tables cell.1 cell.2.1 cell.2.2)
        (fun other member => agreed other (List.mem_cons_of_mem cell member))
        ?_
      by_cases here : frame = cell.1 ∧ index = cell.2.1
      · left
        exact (if_pos here).trans
          (agreed cell List.mem_cons_self here.1.symm here.2.symm)
      · have kept : write tables cell.1 cell.2.1 cell.2.2 frame index =
            tables frame index := if_neg here
        rcases settled with held | ⟨other, member, sameFrame, sameIndex⟩
        · exact Or.inl (kept.trans held)
        · rcases List.mem_cons.mp member with rfl | later
          · exact absurd ⟨sameFrame.symm, sameIndex.symm⟩ here
          · exact Or.inr ⟨other, later, sameFrame, sameIndex⟩

/--
Follow a path to its last level, linking fresh tables where they are missing,
and change the entry there.  The second component is what is left of the
fresh tables.
-/
def insert (shape : Shape Frame Entry) (link : Frame → Entry)
    (final : Entry → Entry) :
    Tables Frame Index Entry → List Frame → Frame → List Index →
      Tables Frame Index Entry × List Frame
  | tables, fresh, _, [] => (tables, fresh)
  | tables, fresh, frame, [index] =>
      (write tables frame index (final (tables frame index)), fresh)
  | tables, fresh, frame, index :: next :: rest =>
      if shape.present (tables frame index) then
        insert shape link final tables fresh
          (shape.child (tables frame index)) (next :: rest)
      else
        match fresh with
        | [] => (tables, [])
        | table :: fresh =>
            insert shape link final (write tables frame index (link table))
              fresh (shape.child (link table)) (next :: rest)

end Write

/-! ## Walks -/

section Walks

variable {shape : Shape Frame Entry} {tables : Tables Frame Index Entry}
  {depth levels : Nat} {frame other : Frame} {index next : Index}
  {rest path : List Index}

/-- A path continues through a present entry that does not stop. -/
theorem tableAt_cons
    (present : shape.present (tables frame index) = true)
    (goesOn : shape.stops depth (tables frame index) = false) :
    tableAt shape tables depth frame (index :: path) =
      tableAt shape tables (depth + 1) (shape.child (tables frame index))
        path := by
  rw [tableAt, present, goesOn]
  rfl

/-- A lookup continues through a present entry that does not stop. -/
theorem lookup_of_entry
    {entry : Entry} (holds : tables frame index = entry)
    (present : shape.present entry = true)
    (goesOn : shape.stops depth entry = false) :
    lookup shape tables depth frame (index :: next :: rest) =
      lookup shape tables (depth + 1) (shape.child entry)
        (next :: rest) := by
  rw [lookup, holds, if_pos present, if_neg (by rw [goesOn]; simp)]

/-- A lookup ends at a present entry that stops. -/
theorem lookup_of_stop
    {entry : Entry} (holds : tables frame index = entry)
    (present : shape.present entry = true)
    (stops : shape.stops depth entry = true) :
    lookup shape tables depth frame (index :: next :: rest) =
      .found depth entry := by
  rw [lookup, holds, if_pos present, if_pos stops]

/-- A lookup ends at an entry that is absent. -/
theorem lookup_of_absent
    {entry : Entry} (holds : tables frame index = entry)
    (absent : shape.present entry = false) :
    lookup shape tables depth frame (index :: rest) = .absent depth := by
  cases rest with
  | nil => rw [lookup, holds, if_neg (by rw [absent]; simp)]
  | cons next rest => rw [lookup, holds, if_neg (by rw [absent]; simp)]

/-- In a table without present entries no path leads on. -/
theorem tableAt_of_clean
    (clean : ∀ index, shape.present (tables frame index) = false)
    (reached : tableAt shape tables depth frame path = some other) :
    path = [] ∧ other = frame := by
  cases path with
  | nil => exact ⟨rfl, (Option.some.inj reached).symm⟩
  | cons index rest =>
      rw [tableAt, clean index] at reached
      exact absurd reached (by simp)

theorem unstopped_of_clean
    (clean : ∀ index, shape.present (tables frame index) = false) :
    Unstopped shape tables depth frame path := by
  rcases path with _ | ⟨index, _ | ⟨next, rest⟩⟩
  · trivial
  · trivial
  · intro present
    rw [clean index] at present
    exact absurd present (by simp)

/-- A table without present entries is a tree by itself. -/
theorem unshared_of_clean
    (clean : ∀ index, shape.present (tables frame index) = false) :
    Unshared shape tables depth frame levels := by
  intro left right other _ _ leftReaches rightReaches
  rw [(tableAt_of_clean clean leftReaches).1,
    (tableAt_of_clean clean rightReaches).1]

theorem avoids_of_clean
    {fresh : List Frame}
    (clean : ∀ index, shape.present (tables frame index) = false)
    (outside : frame ∉ fresh) :
    Avoids shape tables depth frame levels fresh := by
  intro path other _ reaches
  rw [(tableAt_of_clean clean reaches).2]
  exact outside

/-- A path that leads on starts with a present entry that does not stop. -/
theorem tableAt_cons_some
    (reaches : tableAt shape tables depth frame (index :: path) =
      some other) :
    shape.present (tables frame index) = true ∧
      shape.stops depth (tables frame index) = false ∧
      tableAt shape tables (depth + 1) (shape.child (tables frame index))
        path = some other := by
  rw [tableAt] at reaches
  split_ifs at reaches with both
  obtain ⟨present, goesOn⟩ := Bool.and_eq_true_iff.mp both
  exact ⟨present, by simpa using goesOn, reaches⟩

/-- A lookup goes on from the tables its path leads through. -/
theorem lookup_of_tableAt
    (reaches : tableAt shape tables depth frame path = some other) :
    lookup shape tables depth frame (path ++ index :: rest) =
      lookup shape tables (depth + path.length) other (index :: rest) := by
  induction path generalizing depth frame with
  | nil =>
      obtain rfl := Option.some.inj reaches
      rfl
  | cons first path inductionHypothesis =>
      obtain ⟨present, goesOn, below⟩ := tableAt_cons_some reaches
      have depths : depth + (first :: path).length =
          depth + 1 + path.length := by
        rw [List.length_cons]
        omega
      rw [depths, ← inductionHypothesis below]
      rcases path with _ | ⟨second, path⟩
      · exact lookup_of_entry rfl present goesOn
      · exact lookup_of_entry rfl present goesOn

/-- Nothing is found in a table without present entries. -/
theorem lookup_of_clean
    (clean : ∀ index, shape.present (tables frame index) = false) :
    lookup shape tables depth frame path = .absent depth := by
  rcases path with _ | ⟨index, _ | ⟨next, rest⟩⟩
  · rfl
  · rw [lookup, if_neg (by rw [clean index]; simp)]
  · rw [lookup, if_neg (by rw [clean index]; simp)]

/-- The tree below an entry of a tree. -/
theorem Unshared.child
    (unshared : Unshared shape tables depth frame (levels + 1))
    (present : shape.present (tables frame index) = true)
    (goesOn : shape.stops depth (tables frame index) = false) :
    Unshared shape tables (depth + 1) (shape.child (tables frame index))
      levels := by
  intro left right other leftShort rightShort leftReaches rightReaches
  rw [← tableAt_cons present goesOn] at leftReaches rightReaches
  exact (List.cons.inj (unshared _ _ other (Nat.succ_le_succ leftShort)
    (Nat.succ_le_succ rightShort) leftReaches rightReaches)).2

theorem Avoids.child
    {fresh : List Frame}
    (avoids : Avoids shape tables depth frame (levels + 1) fresh)
    (present : shape.present (tables frame index) = true)
    (goesOn : shape.stops depth (tables frame index) = false) :
    Avoids shape tables (depth + 1) (shape.child (tables frame index))
      levels fresh := by
  intro path other short reaches
  rw [← tableAt_cons present goesOn] at reaches
  exact avoids (index :: path) other (Nat.succ_le_succ short) reaches

/-- A table does not lie below one of its own entries in a tree. -/
theorem Unshared.not_below
    (unshared : Unshared shape tables depth frame (levels + 1))
    (present : shape.present (tables frame index) = true)
    (goesOn : shape.stops depth (tables frame index) = false)
    (path : List Index) (short : path.length ≤ levels) :
    tableAt shape tables (depth + 1) (shape.child (tables frame index))
      path ≠ some frame := by
  intro reaches
  rw [← tableAt_cons present goesOn] at reaches
  exact absurd (unshared (index :: path) [] frame (Nat.succ_le_succ short)
    (Nat.zero_le _) reaches rfl) (by simp)

/-- A lookup reads only the tables its own path leads to. -/
theorem lookup_congr
    {changed : Tables Frame Index Entry}
    (agree : ∀ path other, path.length ≤ levels →
      tableAt shape tables depth frame path = some other →
        changed other = tables other)
    (length : path.length ≤ levels + 1) :
    lookup shape changed depth frame path =
      lookup shape tables depth frame path := by
  induction path generalizing depth frame levels with
  | nil => rfl
  | cons index tail inductionHypothesis =>
      have here : changed frame = tables frame :=
        agree [] frame (Nat.zero_le _) rfl
      cases tail with
      | nil => simp only [lookup, here]
      | cons next rest =>
          obtain ⟨levels, rfl⟩ := exists_level length
          simp only [lookup, here]
          split_ifs with present stops
          · rfl
          · have goesOn := Bool.eq_false_iff.mpr stops
            refine inductionHypothesis ?_ (Nat.le_of_succ_le_succ length)
            intro path other short reaches
            rw [← tableAt_cons present goesOn] at reaches
            exact agree (index :: path) other (Nat.succ_le_succ short)
              reaches
          · rfl

/-- A path is determined by the tables it leads through. -/
theorem tableAt_congr
    {changed : Tables Frame Index Entry}
    (agree : ∀ path other, path.length ≤ levels →
      tableAt shape tables depth frame path = some other →
        changed other = tables other)
    (length : path.length ≤ levels + 1) :
    tableAt shape changed depth frame path =
      tableAt shape tables depth frame path := by
  induction path generalizing depth frame levels with
  | nil => rfl
  | cons index rest inductionHypothesis =>
      have here : changed frame = tables frame :=
        agree [] frame (Nat.zero_le _) rfl
      simp only [tableAt, here]
      split_ifs with both
      · obtain ⟨present, goesOn⟩ := Bool.and_eq_true_iff.mp both
        rw [Bool.not_eq_true'] at goesOn
        rcases levels with _ | levels
        · obtain rfl : rest = [] := by
            simpa using length
          rfl
        · refine inductionHypothesis ?_ (Nat.le_of_succ_le_succ length)
          intro path other short reaches
          rw [← tableAt_cons present goesOn] at reaches
          exact agree (index :: path) other (Nat.succ_le_succ short) reaches
      · rfl

/-- The parts of a walk that stops at no entry do not depend on the rest. -/
theorem unstopped_congr
    {changed : Tables Frame Index Entry}
    (agree : ∀ path other, path.length ≤ levels →
      tableAt shape tables depth frame path = some other →
        changed other = tables other)
    (length : path.length = levels + 1)
    (unstopped : Unstopped shape tables depth frame path) :
    Unstopped shape changed depth frame path ∧
      missing shape changed frame path = missing shape tables frame path := by
  induction path generalizing depth frame levels with
  | nil => exact ⟨trivial, rfl⟩
  | cons index tail inductionHypothesis =>
      have here : changed frame = tables frame :=
        agree [] frame (Nat.zero_le _) rfl
      rcases tail with _ | ⟨next, rest⟩
      · exact ⟨trivial, rfl⟩
      · obtain ⟨levels, rfl⟩ := exists_level (Nat.le_of_eq length)
        simp only [Unstopped, missing, here]
        by_cases present : shape.present (tables frame index) = true
        · obtain ⟨goesOn, below⟩ := unstopped present
          have agreeBelow : ∀ path other, path.length ≤ levels →
              tableAt shape tables (depth + 1)
                (shape.child (tables frame index)) path = some other →
                changed other = tables other :=
            fun path other short reaches => agree (index :: path) other
              (Nat.succ_le_succ short)
              ((tableAt_cons present goesOn).trans reaches)
          have step :=
            inductionHypothesis agreeBelow (Nat.succ.inj length) below
          rw [if_pos present, if_pos present]
          exact ⟨fun _ => ⟨goesOn, step.1⟩, step.2⟩
        · rw [if_neg present, if_neg present]
          exact ⟨fun holds => absurd holds present, rfl⟩

/-- The tree below a frame does not depend on other frames. -/
theorem Unshared.congr
    {changed : Tables Frame Index Entry}
    (unshared : Unshared shape tables depth frame levels)
    (agree : ∀ path other, path.length ≤ levels →
      tableAt shape tables depth frame path = some other →
        changed other = tables other) :
    Unshared shape changed depth frame levels := by
  intro left right other leftShort rightShort leftReaches rightReaches
  rw [tableAt_congr agree (Nat.le_succ_of_le leftShort)] at leftReaches
  rw [tableAt_congr agree (Nat.le_succ_of_le rightShort)] at rightReaches
  exact unshared left right other leftShort rightShort leftReaches
    rightReaches

theorem Avoids.congr
    {changed : Tables Frame Index Entry} {fresh : List Frame}
    (avoids : Avoids shape tables depth frame levels fresh)
    (agree : ∀ path other, path.length ≤ levels →
      tableAt shape tables depth frame path = some other →
        changed other = tables other) :
    Avoids shape changed depth frame levels fresh := by
  intro path other short reaches
  rw [tableAt_congr agree (Nat.le_succ_of_le short)] at reaches
  exact avoids path other short reaches

/-- At most all levels but the last are missing on a path. -/
theorem missing_le_length
    (tables : Tables Frame Index Entry) (frame : Frame)
    (path : List Index) :
    missing shape tables frame path ≤ path.length - 1 := by
  induction path generalizing frame with
  | nil => exact Nat.zero_le _
  | cons index tail inductionHypothesis =>
      rcases tail with _ | ⟨next, rest⟩
      · exact Nat.zero_le _
      · rw [missing]
        split_ifs
        · exact Nat.le_trans (inductionHypothesis _)
            (by simp only [List.length_cons]; omega)
        · simp only [List.length_cons]
          omega

/-- The first missing table of a path. -/
theorem exists_absent_of_missing
    (unstopped : Unstopped shape tables depth frame path)
    (lacking : missing shape tables frame path ≠ 0) :
    ∃ before index next rest source,
      path = before ++ index :: next :: rest ∧
      tableAt shape tables depth frame before = some source ∧
      ¬ shape.present (tables source index) = true ∧
      missing shape tables frame path = rest.length + 1 := by
  induction path generalizing depth frame with
  | nil => exact absurd rfl lacking
  | cons index tail inductionHypothesis =>
      rcases tail with _ | ⟨next, rest⟩
      · exact absurd rfl lacking
      · by_cases present : shape.present (tables frame index) = true
        · obtain ⟨goesOn, below⟩ := unstopped present
          rw [missing, if_pos present] at lacking ⊢
          obtain ⟨before, position, second, others, source, split, reaches,
            absent, count⟩ := inductionHypothesis below lacking
          refine ⟨index :: before, position, second, others, source, ?_, ?_,
            absent, count⟩
          · rw [split, List.cons_append]
          · rw [tableAt_cons present goesOn]
            exact reaches
        · exact ⟨[], index, next, rest, frame, rfl, rfl, present, by
            rw [missing, if_neg present]⟩

end Walks

end Kernull.Library.RadixTree
