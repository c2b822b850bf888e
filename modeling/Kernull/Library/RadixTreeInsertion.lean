import Kernull.Library.RadixTree

/-!
# Insertion into radix trees

What insertion changes, and what lookups find afterwards.  Below a frame that
is the root of a tree, insertion changes the entry at which the first table is
missing, or the last entry of the path, and fresh tables.  The content of the
fresh tables matters as soon as two levels are missing, since insertion reads
the first of them.
-/

namespace Kernull.Library.RadixTree

variable {Frame Index Entry : Type}

/-- What a lookup may do when another path is inserted. -/
def Preserved : Outcome Entry → Outcome Entry → Prop
  | .found depth entry, after => after = .found depth entry
  | .absent _, after => ∃ depth, after = .absent depth

theorem Preserved.refl (outcome : Outcome Entry) :
    Preserved outcome outcome := by
  cases outcome with
  | absent depth => exact ⟨depth, rfl⟩
  | found depth entry => rfl

/-! ## Insertion -/

/-- The entries that link fresh tables lead to these tables. -/
structure Links (shape : Shape Frame Entry) (link : Frame → Entry)
    (fresh : List Frame) : Prop where
  present : ∀ table ∈ fresh, shape.present (link table) = true
  goesOn : ∀ table ∈ fresh, ∀ depth, shape.stops depth (link table) = false
  child : ∀ table ∈ fresh, shape.child (link table) = table

theorem Links.tail
    {shape : Shape Frame Entry} {link : Frame → Entry} {table : Frame}
    {fresh : List Frame} (links : Links shape link (table :: fresh)) :
    Links shape link fresh where
  present := fun other member =>
    links.present other (List.mem_cons_of_mem table member)
  goesOn := fun other member =>
    links.goesOn other (List.mem_cons_of_mem table member)
  child := fun other member =>
    links.child other (List.mem_cons_of_mem table member)

theorem Clean.tail
    {shape : Shape Frame Entry} {tables : Tables Frame Index Entry}
    {table : Frame} {fresh : List Frame}
    (clean : Clean shape tables (table :: fresh)) :
    Clean shape tables fresh :=
  fun other member => clean other (List.mem_cons_of_mem table member)

theorem Clean.closed
    {shape : Shape Frame Entry} {tables : Tables Frame Index Entry}
    {fresh : List Frame} (clean : Clean shape tables fresh) :
    Closed shape tables fresh := by
  intro frame member index present
  rw [clean frame member index] at present
  exact absurd present (by simp)

section Insertion

variable [DecidableEq Frame] [DecidableEq Index]
  {shape : Shape Frame Entry} {link : Frame → Entry}
  {final : Entry → Entry} {tables : Tables Frame Index Entry}
  {fresh : List Frame} {table frame other : Frame} {index next : Index}
  {rest path : List Index} {depth levels : Nat}

/-- Writing outside of clean tables keeps them clean. -/
theorem Clean.write
    {entry : Entry} (clean : Clean shape tables fresh)
    (outside : frame ∉ fresh) :
    Clean shape (write tables frame index entry) fresh := by
  intro other member position
  rw [write_of_frame_ne tables index entry
    (by rintro rfl; exact outside member)]
  exact clean other member position

theorem insert_of_present
    (present : shape.present (tables frame index) = true) :
    insert shape link final tables fresh frame (index :: next :: rest) =
      insert shape link final tables fresh
        (shape.child (tables frame index)) (next :: rest) := by
  cases fresh <;> rw [insert, if_pos present]

theorem insert_of_absent
    (absent : ¬ shape.present (tables frame index) = true)
    (leads : shape.child (link table) = table) :
    insert shape link final tables (table :: fresh) frame
        (index :: next :: rest) =
      insert shape link final (write tables frame index (link table)) fresh
        table (next :: rest) := by
  rw [insert, if_neg absent, leads]

theorem insert_of_exhausted
    (absent : ¬ shape.present (tables frame index) = true) :
    insert shape link final tables [] frame (index :: next :: rest) =
      (tables, []) := by
  rw [insert, if_neg absent]

/--
What the fresh tables have to satisfy for a path: they are clean, or so few
are missing that the entries in them are never followed.
-/
def Usable (shape : Shape Frame Entry) (tables : Tables Frame Index Entry)
    (fresh : List Frame) (frame : Frame) (path : List Index)
    (needed : Nat) : Prop :=
  missing shape tables frame path ≤ needed ∨ Clean shape tables fresh

/--
The entries in the fresh tables do not lead an insertion out of these tables.
-/
def Contained (shape : Shape Frame Entry) (tables : Tables Frame Index Entry)
    (fresh : List Frame) (frame : Frame) (path : List Index) : Prop :=
  missing shape tables frame path ≤ 1 ∨ Closed shape tables fresh

omit [DecidableEq Frame] [DecidableEq Index] in
theorem Usable.contained
    {needed : Nat} (few : needed ≤ 1)
    (usable : Usable shape tables fresh frame path needed) :
    Contained shape tables fresh frame path :=
  usable.imp (fun count => Nat.le_trans count few) Clean.closed

omit [DecidableEq Frame] [DecidableEq Index] in
/-- With two tables missing the fresh tables have to be closed. -/
theorem Contained.closed_of_absent
    {third : Index}
    (contained : Contained shape tables fresh frame
      (index :: next :: third :: rest))
    (absent : ¬ shape.present (tables frame index) = true) :
    Closed shape tables fresh := by
  refine contained.resolve_left ?_
  rw [missing, if_neg absent, List.length_cons]
  omega

/-- Writing outside of a region keeps it closed. -/
theorem Closed.write
    {region : List Frame} {entry : Entry}
    (closed : Closed shape tables region) (outside : frame ∉ region) :
    Closed shape (write tables frame index entry) region := by
  intro other member position
  rw [write_of_frame_ne tables index entry
    (by rintro rfl; exact outside member)]
  exact closed other member position

/-- Insertion that starts in a closed region stays in it. -/
theorem insert_within
    {region : List Frame}
    (closed : Closed shape tables region)
    (starts : frame ∈ region) (freshInside : ∀ table ∈ fresh, table ∈ region)
    (links : Links shape link fresh) (outside : other ∉ region) :
    (insert shape link final tables fresh frame path).1 other =
      tables other := by
  have notHere : other ≠ frame := by
    rintro rfl
    exact outside starts
  induction path generalizing tables fresh frame with
  | nil => rfl
  | cons index tail inductionHypothesis =>
      rcases tail with _ | ⟨next, rest⟩
      · exact write_of_frame_ne tables index _ notHere
      · by_cases present : shape.present (tables frame index) = true
        · have child := closed frame starts index present
          rw [insert_of_present present]
          exact inductionHypothesis closed child freshInside links
            (by rintro rfl; exact outside child)
        · rcases fresh with _ | ⟨table, fresh⟩
          · rw [insert_of_exhausted present]
          · have tableInside := freshInside table List.mem_cons_self
            have leads := links.child table List.mem_cons_self
            have closedAfter : Closed shape
                (write tables frame index (link table)) region := by
              intro source member position
              by_cases same : source = frame ∧ position = index
              · rw [same.1, same.2, write_same, leads]
                exact fun _ => tableInside
              · have kept : write tables frame index (link table) source
                    position = tables source position := if_neg same
                rw [kept]
                exact closed source member position
            rw [insert_of_absent present leads,
              ← write_of_frame_ne tables index (link table) notHere]
            exact inductionHypothesis closedAfter tableInside
              (fun other member =>
                freshInside other (List.mem_cons_of_mem table member))
              links.tail (by rintro rfl; exact outside tableInside)

/-- Beyond a missing entry insertion changes fresh tables only. -/
theorem insert_beyond_absent
    (notHere : other ≠ frame) (outside : frame ∉ table :: fresh)
    (links : Links shape link (table :: fresh))
    (contained : Contained shape tables (table :: fresh) frame
      (index :: next :: rest))
    (notFresh : other ∉ table :: fresh)
    (absent : ¬ shape.present (tables frame index) = true) :
    (insert shape link final tables (table :: fresh) frame
      (index :: next :: rest)).1 other = tables other := by
  rw [insert_of_absent absent (links.child table List.mem_cons_self),
    ← write_of_frame_ne tables index (link table) notHere]
  cases rest with
  | nil =>
      exact write_of_frame_ne _ next _
        (by rintro rfl; exact notFresh List.mem_cons_self)
  | cons third rest =>
      have closed := contained.closed_of_absent absent
      exact insert_within (closed.write outside) List.mem_cons_self
        (fun _ member => List.mem_cons_of_mem table member) links.tail
        notFresh

/--
Insertion changes tables below its start and fresh tables only.
-/
theorem insert_outside
    (length : path.length = levels + 1)
    (unstopped : Unstopped shape tables depth frame path)
    (avoids : Avoids shape tables depth frame levels fresh)
    (links : Links shape link fresh)
    (contained : Contained shape tables fresh frame path)
    (notFresh : other ∉ fresh)
    (unreached : ∀ path, path.length ≤ levels →
      tableAt shape tables depth frame path ≠ some other) :
    (insert shape link final tables fresh frame path).1 other =
      tables other := by
  induction path generalizing tables fresh depth frame levels with
  | nil => rfl
  | cons index tail inductionHypothesis =>
      have notHere : other ≠ frame := by
        rintro rfl
        exact unreached [] (Nat.zero_le _) rfl
      cases tail with
      | nil => exact write_of_frame_ne tables index _ notHere
      | cons next rest =>
          obtain ⟨levels, rfl⟩ := exists_level (Nat.le_of_eq length)
          by_cases present : shape.present (tables frame index) = true
          · obtain ⟨goesOn, below⟩ := unstopped present
            rw [insert_of_present present]
            rw [Contained, missing, if_pos present] at contained
            refine inductionHypothesis (Nat.succ.inj length) below
              (avoids.child present goesOn) links contained notFresh ?_
            intro path short reaches
            rw [← tableAt_cons present goesOn] at reaches
            exact unreached (index :: path) (Nat.succ_le_succ short) reaches
          · cases fresh with
            | nil => rw [insert_of_exhausted present]
            | cons table fresh =>
                exact insert_beyond_absent notHere
                  (avoids [] frame (Nat.zero_le _) rfl) links contained
                  notFresh present

/-- Insertion behind a present entry leaves the table of that entry alone. -/
theorem insert_start_of_present
    (final : Entry → Entry)
    (length : (index :: next :: rest).length = levels + 1 + 1)
    (unstopped : Unstopped shape tables depth frame (index :: next :: rest))
    (unshared : Unshared shape tables depth frame (levels + 1))
    (avoids : Avoids shape tables depth frame (levels + 1) fresh)
    (links : Links shape link fresh)
    (contained : Contained shape tables fresh frame (index :: next :: rest))
    (present : shape.present (tables frame index) = true) :
    (insert shape link final tables fresh frame
      (index :: next :: rest)).1 frame = tables frame := by
  obtain ⟨goesOn, below⟩ := unstopped present
  rw [Contained, missing, if_pos present] at contained
  rw [insert_of_present present]
  exact insert_outside (Nat.succ.inj length) below
    (avoids.child present goesOn) links contained
    (avoids [] frame (Nat.zero_le _) rfl)
    (unshared.not_below present goesOn)

/-- Insertion through a missing entry changes that entry of its table only. -/
theorem insert_start_of_absent
    (final : Entry → Entry)
    (outside : frame ∉ table :: fresh)
    (links : Links shape link (table :: fresh))
    (contained : Contained shape tables (table :: fresh) frame
      (index :: next :: rest))
    (absent : ¬ shape.present (tables frame index) = true) :
    (insert shape link final tables (table :: fresh) frame
      (index :: next :: rest)).1 frame =
        write tables frame index (link table) frame := by
  have notTable : frame ≠ table := by
    rintro rfl
    exact outside List.mem_cons_self
  rw [insert_of_absent absent (links.child table List.mem_cons_self)]
  cases rest with
  | nil => exact write_of_frame_ne _ next _ notTable
  | cons third rest =>
      have closed := contained.closed_of_absent absent
      exact insert_within (closed.write outside) List.mem_cons_self
        (fun _ member => List.mem_cons_of_mem table member) links.tail
        outside

/-- After insertion the path is found, with the changed entry at its end. -/
theorem lookup_insert_self
    (length : path.length = levels + 1)
    (unstopped : Unstopped shape tables depth frame path)
    (unshared : Unshared shape tables depth frame levels)
    (avoids : Avoids shape tables depth frame levels fresh)
    (nodup : fresh.Nodup) (links : Links shape link fresh)
    (usable : Usable shape tables fresh frame path 1)
    (enough : missing shape tables frame path ≤ fresh.length)
    (finalPresent : ∀ entry, shape.present (final entry) = true) :
    ∃ entry,
      lookup shape (insert shape link final tables fresh frame path).1 depth
        frame path = .found (depth + levels) (final entry) := by
  induction path generalizing tables fresh depth frame levels with
  | nil => simp at length
  | cons index tail inductionHypothesis =>
      cases tail with
      | nil =>
          obtain rfl : levels = 0 := by
            simpa using length.symm
          refine ⟨tables frame index, ?_⟩
          rw [insert, lookup]
          simp only [write_same]
          rw [if_pos (finalPresent _)]
          rfl
      | cons next rest =>
          obtain ⟨levels, rfl⟩ := exists_level (Nat.le_of_eq length)
          have depths : depth + (levels + 1) = depth + 1 + levels := by omega
          by_cases present : shape.present (tables frame index) = true
          · have start := insert_start_of_present final length
              unstopped unshared avoids links (usable.contained (Nat.le_refl 1))
              present
            obtain ⟨goesOn, below⟩ := unstopped present
            rw [lookup_of_entry (congrFun start index) present goesOn,
              insert_of_present present, depths]
            rw [Usable, missing, if_pos present] at usable
            rw [missing, if_pos present] at enough
            exact inductionHypothesis (Nat.succ.inj length) below
              (unshared.child present goesOn) (avoids.child present goesOn)
              nodup links usable enough
          · cases fresh with
            | nil =>
                rw [missing, if_neg present] at enough
                simp at enough
            | cons table fresh =>
                have outside := avoids [] frame (Nat.zero_le _) rfl
                have notTable : table ≠ frame := by
                  rintro rfl
                  exact outside List.mem_cons_self
                have tableMember : table ∈ table :: fresh := List.mem_cons_self
                have start := insert_start_of_absent final outside links
                  (usable.contained (Nat.le_refl 1)) present
                obtain ⟨newTable, nodup⟩ := List.nodup_cons.mp nodup
                rw [lookup_of_entry ((congrFun start index).trans
                    (write_same tables frame index (link table)))
                    (links.present table tableMember)
                    (links.goesOn table tableMember depth),
                  links.child table tableMember,
                  insert_of_absent present (links.child table tableMember),
                  depths]
                rw [missing, if_neg present, List.length_cons] at enough
                cases rest with
                | nil =>
                    obtain rfl : levels = 0 := by
                      simpa using length.symm
                    refine ⟨write tables frame index (link table) table next,
                      ?_⟩
                    rw [insert]
                    simp only [lookup, write_same, finalPresent, if_true]
                | cons third rest =>
                    have clean : Clean shape tables (table :: fresh) := by
                      refine usable.resolve_left ?_
                      rw [missing, if_neg present, List.length_cons]
                      omega
                    have cleanAfter : Clean shape
                        (write tables frame index (link table))
                        (table :: fresh) := clean.write outside
                    have cleanTable := cleanAfter table List.mem_cons_self
                    refine inductionHypothesis (Nat.succ.inj length)
                      (unstopped_of_clean cleanTable)
                      (unshared_of_clean cleanTable)
                      (avoids_of_clean cleanTable newTable) nodup links.tail
                      (Or.inr cleanAfter.tail) ?_
                    rw [missing, if_neg (by rw [cleanTable next]; simp)]
                    simp only [List.length_cons] at enough
                    omega

omit [DecidableEq Frame] [DecidableEq Index] in
/-- A lookup through an entry below which nothing changes is not affected. -/
theorem lookup_of_other_index
    {changed : Tables Frame Index Entry} {position : Index}
    {others : List Index}
    (length : others.length = levels + 1)
    (same : changed frame position = tables frame position)
    (agree : shape.present (tables frame position) = true →
      shape.stops depth (tables frame position) = false →
      ∀ path other, path.length ≤ levels →
        tableAt shape tables (depth + 1)
          (shape.child (tables frame position)) path = some other →
        changed other = tables other) :
    lookup shape changed depth frame (position :: others) =
      lookup shape tables depth frame (position :: others) := by
  cases others with
  | nil => simp at length
  | cons second rest =>
      simp only [lookup, same]
      split_ifs with present stops
      · rfl
      · exact lookup_congr
          (agree present (Bool.eq_false_iff.mpr stops)) (Nat.le_of_eq length)
      · rfl

/-- Insertion changes nothing beside its path. -/
theorem insert_beside
    {position : Index} (final : Entry → Entry)
    (length : (index :: next :: rest).length = levels + 1 + 1)
    (unstopped : Unstopped shape tables depth frame (index :: next :: rest))
    (unshared : Unshared shape tables depth frame (levels + 1))
    (avoids : Avoids shape tables depth frame (levels + 1) fresh)
    (links : Links shape link fresh)
    (contained : Contained shape tables fresh frame (index :: next :: rest))
    (beside : position ≠ index) :
    (insert shape link final tables fresh frame
        (index :: next :: rest)).1 frame position = tables frame position ∧
      (shape.present (tables frame position) = true →
        shape.stops depth (tables frame position) = false →
        ∀ path other, path.length ≤ levels →
          tableAt shape tables (depth + 1)
            (shape.child (tables frame position)) path = some other →
          (insert shape link final tables fresh frame
            (index :: next :: rest)).1 other = tables other) := by
  by_cases present : shape.present (tables frame index) = true
  · have start := insert_start_of_present final length unstopped unshared
      avoids links contained present
    obtain ⟨goesOn, below⟩ := unstopped present
    rw [Contained, missing, if_pos present] at contained
    refine ⟨congrFun start position, ?_⟩
    intro otherPresent otherGoesOn path other short reaches
    rw [← tableAt_cons otherPresent otherGoesOn] at reaches
    rw [insert_of_present present]
    refine insert_outside (Nat.succ.inj length) below
      (avoids.child present goesOn) links contained
      (avoids (position :: path) other (Nat.succ_le_succ short) reaches) ?_
    intro through throughShort throughReaches
    rw [← tableAt_cons present goesOn] at throughReaches
    exact beside (List.cons.inj
      (unshared (position :: path) (index :: through) other
        (Nat.succ_le_succ short) (Nat.succ_le_succ throughShort)
        reaches throughReaches)).1
  · cases fresh with
    | nil =>
        rw [insert_of_exhausted present]
        exact ⟨rfl, fun _ _ _ _ _ _ => rfl⟩
    | cons table fresh =>
        have outside := avoids [] frame (Nat.zero_le _) rfl
        have start := insert_start_of_absent final outside links contained
          present
        refine ⟨?_, ?_⟩
        · rw [start, write_of_index_ne tables frame _ beside]
        · intro otherPresent otherGoesOn path other short reaches
          have notFrame : other ≠ frame := by
            rintro rfl
            exact unshared.not_below otherPresent otherGoesOn path short
              reaches
          rw [← tableAt_cons otherPresent otherGoesOn] at reaches
          exact insert_beyond_absent notFrame outside links contained
            (avoids (position :: path) other (Nat.succ_le_succ short)
              reaches) present

/-- Insertion preserves the outcome of every other lookup. -/
theorem lookup_insert_other
    {others : List Index}
    (length : path.length = levels + 1)
    (otherLength : others.length = levels + 1) (different : others ≠ path)
    (unstopped : Unstopped shape tables depth frame path)
    (unshared : Unshared shape tables depth frame levels)
    (avoids : Avoids shape tables depth frame levels fresh)
    (nodup : fresh.Nodup) (links : Links shape link fresh)
    (usable : Usable shape tables fresh frame path 0) :
    Preserved (lookup shape tables depth frame others)
      (lookup shape (insert shape link final tables fresh frame path).1
        depth frame others) := by
  induction path generalizing tables fresh depth frame levels others with
  | nil => simp at length
  | cons index tail inductionHypothesis =>
      obtain ⟨position, others, rfl⟩ := List.exists_cons_of_length_eq_add_one
        otherLength
      cases tail with
      | nil =>
          obtain rfl : levels = 0 := by
            simpa using length.symm
          obtain rfl : others = [] := by
            simpa using otherLength
          have elsewhere : position ≠ index := by
            rintro rfl
            exact different rfl
          rw [insert, lookup, lookup]
          simp only [write_of_index_ne tables frame _ elsewhere]
          exact Preserved.refl _
      | cons next rest =>
          obtain ⟨levels, rfl⟩ := exists_level (Nat.le_of_eq length)
          have contained := usable.contained (Nat.zero_le 1)
          have restLength := Nat.succ.inj otherLength
          by_cases same : position = index
          · subst same
            obtain ⟨second, others, rfl⟩ :=
              List.exists_cons_of_length_eq_add_one restLength
            have differentBelow : second :: others ≠ next :: rest :=
              fun equal => different (by rw [equal])
            by_cases present : shape.present (tables frame position) = true
            · have start := insert_start_of_present final length
                unstopped unshared avoids links contained present
              obtain ⟨goesOn, below⟩ := unstopped present
              rw [Usable, missing, if_pos present] at usable
              rw [lookup_of_entry rfl present goesOn,
                lookup_of_entry (congrFun start position) present goesOn,
                insert_of_present present]
              exact inductionHypothesis (Nat.succ.inj length) restLength
                differentBelow below (unshared.child present goesOn)
                (avoids.child present goesOn) nodup links usable
            · cases fresh with
              | nil =>
                  rw [insert_of_exhausted present]
                  exact Preserved.refl _
              | cons table fresh =>
                  have outside := avoids [] frame (Nat.zero_le _) rfl
                  have tableMember : table ∈ table :: fresh :=
                    List.mem_cons_self
                  have start := insert_start_of_absent final outside links
                    contained present
                  have clean : Clean shape tables (table :: fresh) := by
                    refine usable.resolve_left ?_
                    rw [missing, if_neg present]
                    omega
                  have cleanAfter : Clean shape
                      (write tables frame position (link table))
                      (table :: fresh) := clean.write outside
                  have cleanTable := cleanAfter table tableMember
                  obtain ⟨newTable, nodup⟩ := List.nodup_cons.mp nodup
                  have below : Unstopped shape
                      (write tables frame position (link table)) (depth + 1)
                      table (next :: rest) :=
                    unstopped_of_clean cleanTable
                  have preserved := inductionHypothesis
                    (Nat.succ.inj length) restLength differentBelow below
                    (unshared_of_clean cleanTable)
                    (avoids_of_clean cleanTable newTable) nodup links.tail
                    (Or.inr cleanAfter.tail)
                  rw [lookup_of_clean cleanTable] at preserved
                  rw [lookup, if_neg present,
                    lookup_of_entry ((congrFun start position).trans
                      (write_same tables frame position (link table)))
                      (links.present table tableMember)
                      (links.goesOn table tableMember depth),
                    links.child table tableMember,
                    insert_of_absent present (links.child table tableMember)]
                  exact preserved
          · -- the two paths part at this table
            obtain ⟨same, agree⟩ := insert_beside final length unstopped
              unshared avoids links contained same
            rw [lookup_of_other_index restLength same agree]
            exact Preserved.refl _

/-! ## Fresh tables with entries -/

/-- Insertion follows the tables that exist. -/
theorem insert_of_tableAt
    (reaches : tableAt shape tables depth frame path = some other) :
    insert shape link final tables fresh frame (path ++ index :: rest) =
      insert shape link final tables fresh other (index :: rest) := by
  induction path generalizing depth frame with
  | nil =>
      obtain rfl := Option.some.inj reaches
      rfl
  | cons first path inductionHypothesis =>
      obtain ⟨present, _, below⟩ := tableAt_cons_some reaches
      rw [← inductionHypothesis below]
      rcases path with _ | ⟨second, path⟩
      · exact insert_of_present present
      · exact insert_of_present present

/--
After insertion the paths through the first missing entry of its path lead to
the first fresh table.
-/
theorem lookup_insert_below
    {before : List Index} {source : Frame} (final : Entry → Entry)
    (position : Index) (others : List Index)
    (short : before.length ≤ levels)
    (unshared : Unshared shape tables depth frame levels)
    (avoids : Avoids shape tables depth frame levels (table :: fresh))
    (links : Links shape link (table :: fresh))
    (contained : Contained shape tables (table :: fresh) source
      (index :: next :: rest))
    (reaches : tableAt shape tables depth frame before = some source)
    (absent : ¬ shape.present (tables source index) = true) :
    lookup shape
        (insert shape link final tables (table :: fresh) frame
          (before ++ index :: next :: rest)).1
        depth frame (before ++ index :: position :: others) =
      lookup shape
        (insert shape link final tables (table :: fresh) frame
          (before ++ index :: next :: rest)).1
        (depth + before.length + 1) table (position :: others) := by
  have outside := avoids before source short reaches
  have tableMember : table ∈ table :: fresh := List.mem_cons_self
  have start := insert_start_of_absent final outside links contained absent
  have kept : tableAt shape
      (insert shape link final tables (table :: fresh) source
        (index :: next :: rest)).1 depth frame before = some source := by
    rcases before with _ | ⟨first, before⟩
    · exact reaches
    · refine (tableAt_congr (fun path other (pathShort :
          path.length ≤ before.length) pathReaches => ?_)
        (Nat.le_refl _)).trans reaches
      have pathBound : path.length ≤ levels := by
        simp only [List.length_cons] at short
        omega
      refine insert_beyond_absent ?_ outside links contained
        (avoids path other pathBound pathReaches) absent
      rintro rfl
      have equal := unshared path (first :: before) other pathBound short
        pathReaches reaches
      rw [equal, List.length_cons] at pathShort
      omega
  rw [insert_of_tableAt reaches, lookup_of_tableAt kept,
    lookup_of_entry ((congrFun start index).trans
      (write_same tables source index (link table)))
      (links.present table tableMember) (links.goesOn table tableMember _),
    links.child table tableMember]

/-- Insertion leaves an entry of the first fresh table that it passes alone. -/
theorem insert_keeps_fresh_entry
    {before : List Index} {source : Frame} {position : Index}
    (outside : source ∉ table :: fresh)
    (nodup : (table :: fresh).Nodup) (links : Links shape link (table :: fresh))
    (reaches : tableAt shape tables depth frame before = some source)
    (absent : ¬ shape.present (tables source index) = true)
    (passed : (rest = [] ∧ position ≠ next) ∨
      (rest ≠ [] ∧ Closed shape tables fresh ∧
        shape.present (tables table next) = true ∧
        shape.child (tables table next) ∈ fresh)) :
    (insert shape link final tables (table :: fresh) frame
        (before ++ index :: next :: rest)).1 table position =
      tables table position := by
  have newTable := (List.nodup_cons.mp nodup).1
  have notSource : table ≠ source := by
    rintro rfl
    exact outside List.mem_cons_self
  have kept := write_of_frame_ne tables index (link table) notSource
  rw [insert_of_tableAt reaches,
    insert_of_absent absent (links.child table List.mem_cons_self), ← kept]
  rcases passed with ⟨rfl, elsewhere⟩ | ⟨more, closed, present, inside⟩
  · exact write_of_index_ne _ table _ elsewhere
  · obtain ⟨third, rest, rfl⟩ := List.exists_cons_of_ne_nil more
    rw [← kept] at present inside
    rw [insert_of_present present]
    exact congrFun (insert_within
      (closed.write fun member => outside (List.mem_cons_of_mem table member))
      inside (fun _ member => member) links.tail newTable) position

end Insertion

end Kernull.Library.RadixTree
