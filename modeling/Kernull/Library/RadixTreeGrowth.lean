import Kernull.Library.RadixTreeInsertion

/-!
# Radix trees that grow

Insertion with clean fresh tables keeps a radix tree a radix tree: a table
that is reached afterwards was reached along the same path before, or is one
of the fresh tables that were taken, each of which is reached along one prefix
of the inserted path.  The fresh tables that are left stay clean and outside
of the tree, and a path that no entry stopped is not stopped afterwards, so
that any number of insertions can follow one another.
-/

namespace Kernull.Library.RadixTree

variable {Frame Index Entry : Type} {shape : Shape Frame Entry}
  {tables : Tables Frame Index Entry} {fresh : List Frame}
  {table frame other : Frame} {index next : Index}
  {rest path : List Index} {depth levels : Nat}

/-! ## Paths that are not stopped -/

/-- A path is stopped exactly when its lookup ends early with an entry. -/
theorem unstopped_iff_lookup (length : path.length = levels + 1) :
    Unstopped shape tables depth frame path ↔
      ∀ foundDepth entry,
        lookup shape tables depth frame path = .found foundDepth entry →
          foundDepth = depth + levels := by
  induction path generalizing depth frame levels with
  | nil => simp at length
  | cons index tail inductionHypothesis =>
      rcases tail with _ | ⟨next, rest⟩
      · obtain rfl : levels = 0 := by
          simpa using length.symm
        refine ⟨fun _ foundDepth entry found => ?_, fun _ => trivial⟩
        rw [lookup] at found
        split_ifs at found
        exact (Outcome.found.inj found).1.symm
      · obtain ⟨levels, rfl⟩ := exists_level (Nat.le_of_eq length)
        have depths : depth + (levels + 1) = depth + 1 + levels := by omega
        have below : Unstopped shape tables (depth + 1)
              (shape.child (tables frame index)) (next :: rest) ↔
            ∀ foundDepth entry,
              lookup shape tables (depth + 1)
                  (shape.child (tables frame index)) (next :: rest) =
                .found foundDepth entry →
              foundDepth = depth + 1 + levels :=
          inductionHypothesis (Nat.succ.inj length)
        rw [Unstopped, lookup, depths]
        by_cases present : shape.present (tables frame index) = true
        · by_cases stops : shape.stops depth (tables frame index) = true
          · rw [if_pos present, if_pos stops, stops]
            constructor
            · intro unstopped
              exact absurd (unstopped present).1 (by simp)
            · intro early
              have same := early depth _ rfl
              omega
          · rw [if_pos present, if_neg stops, ← below,
              Bool.eq_false_iff.mpr stops]
            exact ⟨fun unstopped => (unstopped present).2,
              fun unstopped _ => ⟨rfl, unstopped⟩⟩
        · rw [if_neg present]
          exact ⟨fun _ _ _ found => absurd found (by simp),
            fun _ holds => absurd holds present⟩

/-- What a lookup finds is preserved, so no path is newly stopped. -/
theorem Unstopped.of_preserved
    {changed : Tables Frame Index Entry} (length : path.length = levels + 1)
    (unstopped : Unstopped shape tables depth frame path)
    (preserved : Preserved (lookup shape tables depth frame path)
      (lookup shape changed depth frame path)) :
    Unstopped shape changed depth frame path := by
  rw [unstopped_iff_lookup length] at unstopped ⊢
  intro foundDepth entry found
  cases before : lookup shape tables depth frame path with
  | absent absentDepth =>
      rw [before, found] at preserved
      obtain ⟨_, contradiction⟩ := preserved
      exact nomatch contradiction
  | found beforeDepth beforeEntry =>
      rw [before, found] at preserved
      obtain ⟨rfl, rfl⟩ := Outcome.found.inj preserved
      exact unstopped foundDepth entry before

/-! ## What insertion starts from -/

section Insertion

variable [DecidableEq Frame] [DecidableEq Index] {link : Frame → Entry}
  {final : Entry → Entry}

omit [DecidableEq Frame] [DecidableEq Index] in
/-- Behind a missing entry of a clean tree all further tables are missing. -/
theorem missing_of_clean
    (clean : ∀ index, shape.present (tables frame index) = false) :
    missing shape tables frame path = path.length - 1 := by
  rcases path with _ | ⟨index, _ | ⟨next, rest⟩⟩
  · rfl
  · rfl
  · rw [missing, if_neg (by rw [clean index]; simp)]
    rfl

/--
A path of a tree that is not stopped, with clean fresh tables outside of the
tree for the tables that are missing on it.
-/
structure Growable (shape : Shape Frame Entry) (link : Frame → Entry)
    (tables : Tables Frame Index Entry) (depth : Nat) (frame : Frame)
    (levels : Nat) (fresh : List Frame) (path : List Index) : Prop where
  length : path.length = levels + 1
  unstopped : Unstopped shape tables depth frame path
  unshared : Unshared shape tables depth frame levels
  avoids : Avoids shape tables depth frame levels fresh
  nodup : fresh.Nodup
  links : Links shape link fresh
  clean : Clean shape tables fresh

namespace Growable

omit [DecidableEq Frame] [DecidableEq Index] in
theorem contained
    (growable : Growable shape link tables depth frame levels fresh path)
    (path : List Index) : Contained shape tables fresh frame path :=
  Or.inr growable.clean.closed

omit [DecidableEq Frame] [DecidableEq Index] in
theorem outside
    (growable : Growable shape link tables depth frame levels fresh path) :
    frame ∉ fresh :=
  growable.avoids [] frame (Nat.zero_le _) rfl

omit [DecidableEq Frame] [DecidableEq Index] in
/-- The rest of the path behind a table that is there. -/
theorem child
    (growable : Growable shape link tables depth frame (levels + 1) fresh
      (index :: next :: rest))
    (present : shape.present (tables frame index) = true) :
    Growable shape link tables (depth + 1) (shape.child (tables frame index))
      levels fresh (next :: rest) := by
  obtain ⟨goesOn, below⟩ := growable.unstopped present
  exact {
    length := Nat.succ.inj growable.length
    unstopped := below
    unshared := growable.unshared.child present goesOn
    avoids := growable.avoids.child present goesOn
    nodup := growable.nodup
    links := growable.links
    clean := growable.clean }

/-- A fresh table that is linked for a missing one is clean. -/
theorem clean_linked
    (growable : Growable shape link tables depth frame levels
      (table :: fresh) path) (position : Index) :
    shape.present (write tables frame index (link table) table position) =
      false :=
  growable.clean.write growable.outside table List.mem_cons_self position

/-- The rest of the path behind a fresh table that is linked. -/
theorem linked
    (growable : Growable shape link tables depth frame (levels + 1)
      (table :: fresh) (index :: next :: rest)) :
    Growable shape link (write tables frame index (link table)) (depth + 1)
      table levels fresh (next :: rest) := by
  obtain ⟨newTable, nodup⟩ := List.nodup_cons.mp growable.nodup
  exact {
    length := Nat.succ.inj growable.length
    unstopped := unstopped_of_clean growable.clean_linked
    unshared := unshared_of_clean growable.clean_linked
    avoids := avoids_of_clean growable.clean_linked newTable
    nodup := nodup
    links := growable.links.tail
    clean := (growable.clean.write growable.outside).tail }

/-! ## The fresh tables that are left -/

/-- Insertion takes the missing tables from the front of the fresh ones. -/
theorem insert_remaining
    (growable : Growable shape link tables depth frame levels fresh path) :
    (insert shape link final tables fresh frame path).2 =
        fresh.drop (missing shape tables frame path) ∧
      Clean shape (insert shape link final tables fresh frame path).1
        (insert shape link final tables fresh frame path).2 := by
  induction path generalizing tables fresh depth frame levels with
  | nil => exact absurd growable.length (by simp)
  | cons index tail inductionHypothesis =>
      rcases tail with _ | ⟨next, rest⟩
      · exact ⟨rfl, growable.clean.write growable.outside⟩
      · obtain ⟨levels, rfl⟩ := exists_level (Nat.le_of_eq growable.length)
        by_cases present : shape.present (tables frame index) = true
        · rw [insert_of_present present, missing, if_pos present]
          exact inductionHypothesis (growable.child present)
        · rw [missing, if_neg present]
          rcases fresh with _ | ⟨table, fresh⟩
          · rw [insert_of_exhausted present]
            exact ⟨List.drop_nil.symm, growable.clean⟩
          · have step := inductionHypothesis growable.linked
            rw [missing_of_clean growable.clean_linked] at step
            rw [insert_of_absent present
              (growable.links.child table List.mem_cons_self),
              List.drop_succ_cons]
            exact step

/-! ## The tables of the tree afterwards -/

/--
A table reached after insertion was reached before, or is the fresh table that
was taken at that place of the inserted path.
-/
theorem tableAt_insert
    {taken : List Index}
    (growable : Growable shape link tables depth frame levels fresh path)
    (short : taken.length ≤ levels)
    (reaches : tableAt shape
      (insert shape link final tables fresh frame path).1 depth frame
        taken = some other) :
    tableAt shape tables depth frame taken = some other ∨
      ∃ position < missing shape tables frame path,
        fresh[position]? = some other ∧
        taken = path.take
          (path.length - missing shape tables frame path + position) := by
  induction path generalizing tables fresh depth frame levels taken with
  | nil => exact absurd growable.length (by simp)
  | cons index tail inductionHypothesis =>
      rcases taken with _ | ⟨first, taken⟩
      · exact Or.inl reaches
      · rcases tail with _ | ⟨next, rest⟩
        · obtain rfl : levels = 0 := by
            simpa using growable.length.symm
          exact absurd short (by simp)
        · obtain ⟨levels, rfl⟩ := exists_level (Nat.le_of_eq growable.length)
          have takenShort := Nat.le_of_succ_le_succ short
          by_cases same : first = index
          · subst same
            by_cases present : shape.present (tables frame first) = true
            · have start := insert_start_of_present final growable.length
                growable.unstopped growable.unshared growable.avoids
                growable.links (growable.contained _) present
              obtain ⟨goesOn, _⟩ := growable.unstopped present
              obtain ⟨_, _, below⟩ := tableAt_cons_some reaches
              rw [start, insert_of_present present] at below
              rw [tableAt_cons present goesOn, missing, if_pos present]
              refine (inductionHypothesis (growable.child present)
                takenShort below).imp id ?_
              rintro ⟨position, few, found, prefixed⟩
              have bounded : missing shape tables
                  (shape.child (tables frame first)) (next :: rest) ≤
                    rest.length := missing_le_length _ _ _
              refine ⟨position, few, found, ?_⟩
              have deeper : (first :: next :: rest).length -
                    missing shape tables (shape.child (tables frame first))
                      (next :: rest) + position =
                  (next :: rest).length -
                    missing shape tables (shape.child (tables frame first))
                      (next :: rest) + position + 1 := by
                simp only [List.length_cons]
                omega
              rw [deeper, List.take_succ_cons, ← prefixed]
            · rcases fresh with _ | ⟨table, fresh⟩
              · rw [insert_of_exhausted present] at reaches
                exact Or.inl reaches
              · right
                have start := insert_start_of_absent final growable.outside
                  growable.links (growable.contained (first :: next :: rest))
                  present
                have leads := growable.links.child table List.mem_cons_self
                obtain ⟨_, _, below⟩ := tableAt_cons_some reaches
                rw [start, write_same, leads, insert_of_absent present leads]
                  at below
                rw [missing, if_neg present]
                simp only [List.length_cons]
                rcases inductionHypothesis growable.linked takenShort below
                  with old | ⟨position, few, found, prefixed⟩
                · obtain ⟨rfl, rfl⟩ :=
                    tableAt_of_clean growable.clean_linked old
                  refine ⟨0, Nat.succ_pos _, rfl, ?_⟩
                  rw [Nat.add_sub_cancel_left]
                  rfl
                · rw [missing_of_clean growable.clean_linked,
                    List.length_cons, Nat.add_sub_cancel,
                    Nat.add_sub_cancel_left] at prefixed
                  rw [missing_of_clean growable.clean_linked,
                    List.length_cons] at few
                  refine ⟨position + 1, Nat.succ_lt_succ few, found, ?_⟩
                  rw [Nat.add_sub_cancel_left, Nat.add_comm 1 (position + 1),
                    List.take_succ_cons, Nat.add_comm position 1, ← prefixed]
          · obtain ⟨kept, agree⟩ := insert_beside final growable.length
              growable.unstopped growable.unshared growable.avoids
              growable.links (growable.contained _) same
            obtain ⟨present, goesOn, below⟩ := tableAt_cons_some reaches
            rw [kept] at present goesOn below
            left
            rw [tableAt_cons present goesOn, ← below]
            exact (tableAt_congr (agree present goesOn)
              (Nat.le_succ_of_le takenShort)).symm

/-- Insertion keeps a tree a tree. -/
theorem unshared_insert
    (growable : Growable shape link tables depth frame levels fresh path) :
    Unshared shape (insert shape link final tables fresh frame path).1
      depth frame levels := by
  intro left right other leftShort rightShort leftReaches rightReaches
  have leftOrigin := growable.tableAt_insert leftShort leftReaches
  have rightOrigin := growable.tableAt_insert rightShort rightReaches
  rcases leftOrigin with leftOld | ⟨leftPlace, -, leftFound, leftPrefix⟩
  · rcases rightOrigin with rightOld | ⟨rightPlace, -, rightFound, -⟩
    · exact growable.unshared left right other leftShort rightShort leftOld
        rightOld
    · exact absurd (List.mem_of_getElem? rightFound)
        (growable.avoids left other leftShort leftOld)
  · rcases rightOrigin with rightOld |
      ⟨rightPlace, -, rightFound, rightPrefix⟩
    · exact absurd (List.mem_of_getElem? leftFound)
        (growable.avoids right other rightShort rightOld)
    · obtain ⟨inside, -⟩ := List.getElem?_eq_some_iff.mp leftFound
      have same := (List.getElem?_inj inside growable.nodup).mp
        (leftFound.trans rightFound.symm)
      rw [leftPrefix, rightPrefix, same]

/-- The tables that are left are outside of the tree. -/
theorem avoids_insert
    (growable : Growable shape link tables depth frame levels fresh path) :
    Avoids shape (insert shape link final tables fresh frame path).1
      depth frame levels
      (insert shape link final tables fresh frame path).2 := by
  intro taken other short reaches member
  rw [growable.insert_remaining.1] at member
  rcases growable.tableAt_insert short reaches with
    old | ⟨position, few, found, -⟩
  · exact growable.avoids taken other short old
      (List.mem_of_mem_drop member)
  · obtain ⟨later, foundLater⟩ := List.mem_iff_getElem?.mp member
    rw [List.getElem?_drop] at foundLater
    obtain ⟨inside, -⟩ := List.getElem?_eq_some_iff.mp found
    have same := (List.getElem?_inj inside growable.nodup).mp
      (found.trans foundLater.symm)
    omega

/-! ## Lookups afterwards -/

/-- The inserted path is found, with the changed entry at its end. -/
theorem lookup_self
    (growable : Growable shape link tables depth frame levels fresh path)
    (enough : missing shape tables frame path ≤ fresh.length)
    (finalPresent : ∀ entry, shape.present (final entry) = true) :
    ∃ entry,
      lookup shape (insert shape link final tables fresh frame path).1 depth
        frame path = .found (depth + levels) (final entry) :=
  lookup_insert_self growable.length growable.unstopped growable.unshared
    growable.avoids growable.nodup growable.links (Or.inr growable.clean)
    enough finalPresent

/-- Other lookups are preserved. -/
theorem lookup_other
    {others : List Index}
    (growable : Growable shape link tables depth frame levels fresh path)
    (length : others.length = levels + 1) (different : others ≠ path) :
    Preserved (lookup shape tables depth frame others)
      (lookup shape (insert shape link final tables fresh frame path).1
        depth frame others) :=
  lookup_insert_other growable.length length different growable.unstopped
    growable.unshared growable.avoids growable.nodup growable.links
    (Or.inr growable.clean)

/-- No path is newly stopped, the inserted one included. -/
theorem unstopped_insert
    {others : List Index}
    (growable : Growable shape link tables depth frame levels fresh path)
    (length : others.length = levels + 1)
    (enough : missing shape tables frame path ≤ fresh.length)
    (finalPresent : ∀ entry, shape.present (final entry) = true)
    (unstopped : Unstopped shape tables depth frame others) :
    Unstopped shape (insert shape link final tables fresh frame path).1
      depth frame others := by
  by_cases same : others = path
  · subst same
    rw [unstopped_iff_lookup length]
    intro foundDepth entry found
    obtain ⟨last, finds⟩ := growable.lookup_self enough finalPresent
    exact (Outcome.found.inj (finds.symm.trans found)).1.symm
  · exact unstopped.of_preserved length (growable.lookup_other length same)

end Growable

end Insertion

end Kernull.Library.RadixTree
