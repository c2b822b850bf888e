import Kernull.MapAddr

/-!
# Permissions of a mapped page

The processor combines the entries of all four levels: a page is writable or
accessible to users if every entry says so, and not executable if any entry
says so.  `map_addr_in` adds the requested flags to whatever the last entry
held, and links tables that it creates as writable, but not for users.
-/

namespace Kernull.MapPermissions

open Kernull.Mm
open Kernull.Pml
open Kernull.PageAlloc
open Kernull.PageTables
open Kernull.PageWalkers
open Kernull.MapAddr
open Kernull.Library.RadixTree

/-- `flags` contains the given flag. -/
def HasFlag (flags flag : BitVec 64) : Prop :=
  flags &&& flag ≠ 0#64

instance (flags flag : BitVec 64) : Decidable (HasFlag flags flag) :=
  inferInstanceAs (Decidable (_ ≠ _))

/-! ## Effective permissions -/

section Permissions

variable (memory : TableMemory) (root virtAddr : Nat)

/-- The entries of the four levels for an address. -/
def walkEntries : List PmlEntry :=
  [pml4Entry memory root virtAddr, pml3Entry memory root virtAddr,
    pml2Entry memory root virtAddr, pml1Entry memory root virtAddr]

/-- The page of the address can be written. -/
def PageWritable : Prop :=
  ∀ entry ∈ walkEntries memory root virtAddr, writable entry = true

/-- The page of the address is accessible to users. -/
def PageUser : Prop :=
  ∀ entry ∈ walkEntries memory root virtAddr, user entry = true

/-- The page of the address cannot be executed. -/
def PageNoexec : Prop :=
  ∃ entry ∈ walkEntries memory root virtAddr, noexec entry = true

/-- The page has the permissions that were requested for it. -/
structure PermissionsGranted (flags : BitVec 64) : Prop where
  writable : PageWritable memory root virtAddr ↔
    HasFlag flags pmlFlagWritable
  user : PageUser memory root virtAddr ↔ HasFlag flags pmlFlagUser
  noexec : PageNoexec memory root virtAddr ↔
    HasFlag flags pmlFlagNoexecute

end Permissions

/-- An entry that grants everything. -/
def Permits (entry : PmlEntry) : Prop :=
  writable entry = true ∧ user entry = true ∧ noexec entry = false

instance (entry : PmlEntry) : Decidable (Permits entry) :=
  inferInstanceAs (Decidable (_ ∧ _))

/-! ## The path of a mapping -/

/--
The entries that `map_addr_in` passes on the given levels, and the one it
arrives at: in the tables that exist, and in the frames that the allocator has
for the missing ones.
-/
def mapPath (memory : TableMemory) (pageAddr : Nat) :
    List Nat → Nat → PageAllocator → Option (List EntryPointer × EntryPointer)
  | [], table, _ => some ([], ⟨table, pageAddr &&& pmlEntryMask⟩)
  | i :: levels, table, allocator =>
      let here := EntryPointer.mk table (tableIndex pageAddr (27 - i * 9))
      if present (here.entry memory) then
        (mapPath memory pageAddr levels (nextTable (here.entry memory))
          allocator).map fun path => (here :: path.1, path.2)
      else
        (pageAlloc 0 pmlFlagWritable allocator).bind fun allocated =>
          (mapPath memory pageAddr levels (nextTable allocated.1)
            allocated.2).map fun path => (here :: path.1, path.2)

/-- The frame that an entry lies in. -/
def frameOf (place : EntryPointer) : Nat :=
  tableFrame place.table

/-- Each entry leads to the table of the next one. -/
def Leads (memory : TableMemory) : Nat → List EntryPointer → Prop
  | _, [] => True
  | table, place :: rest =>
      place.table = table ∧ Leads memory (nextTable (place.entry memory)) rest

/-- What becomes of the entries above the last level. -/
def KeptOrCreated (before after : TableMemory) (place : EntryPointer) :
    Prop :=
  if present (place.entry before) then
    place.entry after = place.entry before
  else ∃ frame, place.entry after = tableLink frame

section Path

variable {memory after : TableMemory} {table pageAddr : Nat}
  {upper : List EntryPointer} {leaf : EntryPointer}

/-- Entries are read from their own frames. -/
theorem entry_congr
    {place : EntryPointer} (same : after (frameOf place) =
      memory (frameOf place)) :
    place.entry after = place.entry memory :=
  congrFun same _

/-- An entry in another frame is not affected by a store. -/
theorem storeEntry_of_frame_ne
    {index frame : Nat} (entry : PmlEntry)
    (different : frame ≠ tableFrame table) :
    storeEntry memory table index entry frame = memory frame :=
  write_of_frame_ne memory _ entry different

theorem Leads.congr
    {places : List EntryPointer} (leads : Leads memory table (places ++ [leaf]))
    (same : ∀ place ∈ places, place.entry after = place.entry memory) :
    Leads after table (places ++ [leaf]) := by
  induction places generalizing table with
  | nil => exact ⟨leads.1, trivial⟩
  | cons place rest inductionHypothesis =>
      obtain ⟨here, onwards⟩ := leads
      refine ⟨here, ?_⟩
      rw [same place List.mem_cons_self]
      exact inductionHypothesis onwards fun other member =>
        same other (List.mem_cons_of_mem place member)

/-- A table is linked by the entry that `page_alloc` makes for it. -/
theorem tableLink_of_pageAlloc
    {allocator : PageAllocator} {allocated : PmlEntry × PageAllocator}
    (allocates : pageAlloc 0 pmlFlagWritable allocator = some allocated) :
    ∃ frame, allocated.1 = tableLink frame := by
  rw [pageAlloc, if_neg (not_not.mpr address_zero),
    Option.map_eq_some_iff] at allocates
  obtain ⟨frame, _, rfl⟩ := allocates
  exact ⟨frame, rfl⟩

section Levels

variable {i : Nat} {levels : List Nat} {allocator : PageAllocator}

theorem mapPath_eq_of_present
    (found : present (entryAt memory table
      (tableIndex pageAddr (27 - i * 9))) = true) :
    mapPath memory pageAddr (i :: levels) table allocator =
      (mapPath memory pageAddr levels
        (nextTable (entryAt memory table (tableIndex pageAddr (27 - i * 9))))
        allocator).map fun path =>
          (⟨table, tableIndex pageAddr (27 - i * 9)⟩ :: path.1, path.2) :=
  if_pos found

theorem mapPath_eq_of_absent
    (absent : ¬ present (entryAt memory table
      (tableIndex pageAddr (27 - i * 9))) = true) :
    mapPath memory pageAddr (i :: levels) table allocator =
      (pageAlloc 0 pmlFlagWritable allocator).bind fun allocated =>
        (mapPath memory pageAddr levels (nextTable allocated.1)
          allocated.2).map fun path =>
            (⟨table, tableIndex pageAddr (27 - i * 9)⟩ :: path.1, path.2) :=
  if_neg absent

/-- Through a present entry the path goes on in its table. -/
theorem mapPath_of_present
    (found : present (entryAt memory table
      (tableIndex pageAddr (27 - i * 9))) = true)
    (path : mapPath memory pageAddr (i :: levels) table allocator =
      some (upper, leaf)) :
    ∃ rest, upper = ⟨table, tableIndex pageAddr (27 - i * 9)⟩ :: rest ∧
      mapPath memory pageAddr levels
        (nextTable (entryAt memory table (tableIndex pageAddr (27 - i * 9))))
        allocator = some (rest, leaf) := by
  rw [mapPath_eq_of_present found, Option.map_eq_some_iff] at path
  obtain ⟨⟨rest, last⟩, below, same⟩ := path
  obtain ⟨rfl, rfl⟩ := Prod.mk.inj same
  exact ⟨rest, rfl, below⟩

/-- At an absent entry the path goes on in an allocated table. -/
theorem mapPath_of_absent
    (absent : ¬ present (entryAt memory table
      (tableIndex pageAddr (27 - i * 9))) = true)
    (path : mapPath memory pageAddr (i :: levels) table allocator =
      some (upper, leaf)) :
    ∃ allocated rest,
      upper = ⟨table, tableIndex pageAddr (27 - i * 9)⟩ :: rest ∧
      pageAlloc 0 pmlFlagWritable allocator = some allocated ∧
      mapPath memory pageAddr levels (nextTable allocated.1) allocated.2 =
        some (rest, leaf) := by
  rw [mapPath_eq_of_absent absent, Option.bind_eq_some_iff] at path
  obtain ⟨allocated, allocates, path⟩ := path
  obtain ⟨⟨rest, last⟩, below, same⟩ := Option.map_eq_some_iff.mp path
  obtain ⟨rfl, rfl⟩ := Prod.mk.inj same
  exact ⟨allocated, rest, rfl, allocates, below⟩

/-- A table that is allocated lies in the first free frame. -/
theorem frame_of_pageAlloc
    {allocated : PmlEntry × PageAllocator}
    (small : allocator.nframes < 2 ^ 20)
    (allocates : pageAlloc 0 pmlFlagWritable allocator = some allocated) :
    ∃ frame fresh, freeFrames allocator = frame :: fresh ∧
      tableFrame (nextTable allocated.1) = frame ∧
      allocated.2.nframes = allocator.nframes ∧
      freeFrames allocated.2 = fresh := by
  rcases free : freeFrames allocator with _ | ⟨frame, fresh⟩
  · rw [pageAlloc_of_exhausted address_zero free] at allocates
    exact nomatch allocates
  · obtain ⟨after, takes, count, remaining, _⟩ :=
      pageAlloc_of_free pmlFlagWritable address_zero small free
    obtain rfl : allocated = (tableLink frame, after) :=
      Option.some.inj (allocates.symm.trans takes)
    refine ⟨frame, fresh, rfl, ?_, count, remaining⟩
    rw [tableFrame_nextTable]
    exact (links_freeFrames small).child frame (free ▸ List.mem_cons_self)

/-- The indices of the levels that are left. -/
def levelSlots (pageAddr : Nat) (levels : List Nat) : List (Fin 512) :=
  levels.map (fun i => slot (tableIndex pageAddr (27 - i * 9))) ++
    [slot (pageAddr &&& pmlEntryMask)]

theorem levelSlots_cons (pageAddr i : Nat) (levels : List Nat) :
    levelSlots pageAddr (i :: levels) =
      slot (tableIndex pageAddr (27 - i * 9)) :: levelSlots pageAddr levels :=
  rfl

theorem exists_levelSlots (pageAddr : Nat) (levels : List Nat) :
    ∃ next rest, levelSlots pageAddr levels = next :: rest ∧
      rest.length = levels.length := by
  cases levels with
  | nil => exact ⟨_, _, rfl, rfl⟩
  | cons i levels =>
      exact ⟨_, _, rfl, by simp⟩

/-- With frames enough for the missing tables there is a path. -/
theorem exists_mapPath
    (levels : List Nat) {allocator : PageAllocator}
    (small : allocator.nframes < 2 ^ 20)
    (enough : missing pmlShape memory (tableFrame table)
      (levelSlots pageAddr levels) ≤ (freeFrames allocator).length) :
    ∃ path, mapPath memory pageAddr levels table allocator = some path := by
  induction levels generalizing table allocator with
  | nil => exact ⟨_, rfl⟩
  | cons i levels inductionHypothesis =>
      obtain ⟨next, rest, tail, length⟩ := exists_levelSlots pageAddr levels
      rw [levelSlots_cons, tail, missing] at enough
      rw [tail] at inductionHypothesis
      split_ifs at enough with found
      · have child : tableFrame (nextTable (entryAt memory table
            (tableIndex pageAddr (27 - i * 9)))) =
              pmlShape.child (memory (tableFrame table)
                (slot (tableIndex pageAddr (27 - i * 9)))) :=
          tableFrame_nextTable _
        rw [← child] at enough
        obtain ⟨path, below⟩ := inductionHypothesis small enough
        rw [mapPath_eq_of_present found, below, Option.map_some]
        exact ⟨_, rfl⟩
      · rw [mapPath_eq_of_absent found]
        cases free : freeFrames allocator with
        | nil =>
            rw [free] at enough
            exact absurd enough (Nat.not_succ_le_zero _)
        | cons frame fresh =>
            obtain ⟨after, takes, count, remaining, _⟩ :=
              pageAlloc_of_free pmlFlagWritable address_zero small free
            rw [free] at enough
            have few : missing pmlShape memory
                (tableFrame (nextTable (tableLink frame))) (next :: rest) ≤
                  rest.length :=
              missing_le_length memory _ _
            obtain ⟨path, below⟩ := inductionHypothesis (count ▸ small)
              (remaining.symm ▸ few.trans (Nat.le_of_succ_le_succ enough))
            rw [takes, Option.bind_some]
            exact ⟨_, congrArg (Option.map _) below⟩

end Levels

/-- An entry in a frame that no later entry lies in. -/
theorem separate_cons
    {place : EntryPointer} {rest : List EntryPointer}
    (separate : (rest.map frameOf).Nodup)
    (outside : ∀ other ∈ rest, frameOf other ≠ frameOf place) :
    ((place :: rest).map frameOf).Nodup := by
  rw [List.map_cons, List.nodup_cons]
  refine ⟨fun member => ?_, separate⟩
  obtain ⟨other, otherMember, same⟩ := List.mem_map.mp member
  exact outside other otherMember same

/-- Without levels the path is the last entry, in the table itself. -/
theorem mapPath_nil
    (path : mapPath memory pageAddr [] table allocator =
      some (upper, leaf)) :
    upper = [] ∧ frameOf leaf = tableFrame table := by
  rw [mapPath, Option.some.injEq, Prod.mk.injEq] at path
  obtain ⟨rfl, rfl⟩ := path
  exact ⟨rfl, rfl⟩

/-- Below a clean table a path goes on through the free frames. -/
theorem frames_of_clean
    (levels : List Nat) {allocator : PageAllocator}
    (small : allocator.nframes < 2 ^ 20)
    (clean : Clean pmlShape memory
      (tableFrame table :: freeFrames allocator))
    (outside : tableFrame table ∉ freeFrames allocator)
    (path : mapPath memory pageAddr levels table allocator =
      some (upper, leaf)) :
    ((upper ++ [leaf]).map frameOf).Nodup ∧
      ∀ place ∈ upper ++ [leaf],
        frameOf place ∈ tableFrame table :: freeFrames allocator := by
  induction levels generalizing table allocator upper with
  | nil =>
      obtain ⟨rfl, atTable⟩ := mapPath_nil path
      refine ⟨List.nodup_singleton _, fun place member => ?_⟩
      rw [List.mem_singleton.mp member, atTable]
      exact List.mem_cons_self
  | cons i levels inductionHypothesis =>
      have absent : pmlShape.present (memory (tableFrame table)
          (slot (tableIndex pageAddr (27 - i * 9)))) = false :=
        clean _ List.mem_cons_self _
      obtain ⟨allocated, others, rfl, allocates, below⟩ :=
        mapPath_of_absent (Bool.not_eq_true _ ▸ absent) path
      obtain ⟨frame, fresh, free, target, count, remaining⟩ :=
        frame_of_pageAlloc small allocates
      have nodup := freeFrames_nodup allocator
      rw [free] at nodup outside clean ⊢
      have inFresh := inductionHypothesis (count ▸ small)
        (by rw [target, remaining]; exact clean.tail)
        (by rw [target, remaining]; exact (List.nodup_cons.mp nodup).1) below
      rw [target, remaining] at inFresh
      obtain ⟨separate, reached⟩ := inFresh
      refine ⟨separate_cons separate fun other member same => ?_, ?_⟩
      · have atHere := reached other member
        rw [same] at atHere
        exact outside atHere
      · intro place member
        rcases List.mem_cons.mp member with rfl | member
        · exact List.mem_cons_self
        · exact List.mem_cons_of_mem _ (reached place member)

/--
In a tree the entries on a path lie in different frames, which are tables of
the tree or free, provided that what free frames hold is not followed.
-/
theorem frames_of_mapPath
    (levels : List Nat) {depth : Nat} {allocator : PageAllocator}
    (small : allocator.nframes < 2 ^ 20)
    (unshared : Unshared pmlShape memory depth (tableFrame table)
      levels.length)
    (avoids : Avoids pmlShape memory depth (tableFrame table) levels.length
      (freeFrames allocator))
    (unstopped : Unstopped pmlShape memory depth (tableFrame table)
      (levelSlots pageAddr levels))
    (usable : Usable pmlShape memory (freeFrames allocator)
      (tableFrame table) (levelSlots pageAddr levels) 1)
    (path : mapPath memory pageAddr levels table allocator =
      some (upper, leaf)) :
    ((upper ++ [leaf]).map frameOf).Nodup ∧
      ∀ place ∈ upper ++ [leaf], frameOf place ∈ freeFrames allocator ∨
        ∃ indices, indices.length ≤ levels.length ∧
          tableAt pmlShape memory depth (tableFrame table) indices =
            some (frameOf place) := by
  induction levels generalizing table depth allocator upper with
  | nil =>
      obtain ⟨rfl, atTable⟩ := mapPath_nil path
      refine ⟨List.nodup_singleton _, fun place member => Or.inr ⟨[], ?_⟩⟩
      rw [List.mem_singleton.mp member, atTable]
      exact ⟨Nat.le_refl 0, rfl⟩
  | cons i levels inductionHypothesis =>
      have outside := avoids [] _ (Nat.zero_le _) rfl
      obtain ⟨next, rest, tail, length⟩ := exists_levelSlots pageAddr levels
      rw [levelSlots_cons, tail] at unstopped usable
      rw [tail] at inductionHypothesis
      by_cases found : pmlShape.present (memory (tableFrame table)
          (slot (tableIndex pageAddr (27 - i * 9)))) = true
      · obtain ⟨others, rfl, below⟩ := mapPath_of_present found path
        obtain ⟨goesOn, unstoppedBelow⟩ := unstopped found
        have child : tableFrame (nextTable (entryAt memory table
            (tableIndex pageAddr (27 - i * 9)))) =
              pmlShape.child (memory (tableFrame table)
                (slot (tableIndex pageAddr (27 - i * 9)))) :=
          tableFrame_nextTable _
        rw [Usable, missing, if_pos found, ← child] at usable
        rw [← child] at unstoppedBelow
        obtain ⟨separate, reached⟩ := inductionHypothesis small
          (child ▸ unshared.child found goesOn)
          (child ▸ avoids.child found goesOn) unstoppedBelow usable below
        rw [child] at reached
        refine ⟨separate_cons separate fun other member same => ?_, ?_⟩
        · rcases reached other member with free | ⟨indices, short, walk⟩
          · rw [same] at free
            exact outside free
          · rw [same] at walk
            exact unshared.not_below found goesOn indices short walk
        · intro place member
          rcases List.mem_cons.mp member with rfl | member
          · exact Or.inr ⟨[], Nat.zero_le _, rfl⟩
          · rcases reached place member with free | ⟨indices, short, walk⟩
            · exact Or.inl free
            · refine Or.inr ⟨slot (tableIndex pageAddr (27 - i * 9)) ::
                indices, Nat.succ_le_succ short, ?_⟩
              rw [tableAt_cons found goesOn]
              exact walk
      · obtain ⟨allocated, others, rfl, allocates, below⟩ :=
          mapPath_of_absent found path
        obtain ⟨frame, fresh, free, target, count, remaining⟩ :=
          frame_of_pageAlloc small allocates
        have nodup := freeFrames_nodup allocator
        rw [free] at nodup usable
        rw [Usable, missing, if_neg found] at usable
        -- all that follows lies in free frames
        have created : ((others ++ [leaf]).map frameOf).Nodup ∧
            ∀ place ∈ others ++ [leaf],
              frameOf place ∈ freeFrames allocator := by
          rw [free]
          rcases usable with few | clean
          · obtain rfl : levels = [] :=
              List.length_eq_zero_iff.mp (by omega)
            obtain ⟨rfl, atTable⟩ := mapPath_nil below
            refine ⟨List.nodup_singleton _, fun place member => ?_⟩
            rw [List.mem_singleton.mp member, atTable, target]
            exact List.mem_cons_self
          · rw [← target, ← remaining] at clean nodup ⊢
            exact frames_of_clean levels (count ▸ small) clean
              (List.nodup_cons.mp nodup).1 below
        obtain ⟨separate, inFree⟩ := created
        refine ⟨separate_cons separate fun other member same => ?_, ?_⟩
        · have atHere := inFree other member
          rw [same] at atHere
          exact outside atHere
        · intro place member
          rcases List.mem_cons.mp member with rfl | member
          · exact Or.inr ⟨[], Nat.zero_le _, rfl⟩
          · exact Or.inl (inFree place member)

/-- In a tree the entries that a mapping passes lie in different frames. -/
theorem separate_of_tree
    {state : MmState} {pml4 virtAddr : Nat}
    (small : state.allocator.nframes < 2 ^ 20)
    (tree : PageTree state.memory pml4 (freeFrames state.allocator))
    (noHuge : ¬ MeetsHuge state.memory pml4 virtAddr)
    (usable : Usable pmlShape state.memory (freeFrames state.allocator)
      (tableFrame pml4) (indices virtAddr) 1)
    (path : mapPath state.memory (virtAddr >>> 12) [0, 1, 2] pml4
      state.allocator = some (upper, leaf)) :
    ((upper ++ [leaf]).map frameOf).Nodup := by
  have unstopped := unstopped_of_no_huge noHuge
  rw [indices_eq] at unstopped usable
  exact (frames_of_mapPath [0, 1, 2] small tree.unshared tree.avoids
    unstopped usable path).1

/-- With frames enough a mapping in a tree passes such entries. -/
theorem exists_path_of_tree
    {state : MmState} {pml4 virtAddr : Nat}
    (small : state.allocator.nframes < 2 ^ 20)
    (tree : PageTree state.memory pml4 (freeFrames state.allocator))
    (noHuge : ¬ MeetsHuge state.memory pml4 virtAddr)
    (usable : Usable pmlShape state.memory (freeFrames state.allocator)
      (tableFrame pml4) (indices virtAddr) 1)
    (enough : missing pmlShape state.memory (tableFrame pml4)
      (indices virtAddr) ≤ (freeFrames state.allocator).length) :
    ∃ upper leaf, mapPath state.memory (virtAddr >>> 12) [0, 1, 2] pml4
        state.allocator = some (upper, leaf) ∧
      ((upper ++ [leaf]).map frameOf).Nodup := by
  rw [indices_eq] at enough
  obtain ⟨⟨upper, leaf⟩, path⟩ := exists_mapPath [0, 1, 2] small enough
  exact ⟨upper, leaf, path, separate_of_tree small tree noHuge usable path⟩

/-- One iteration of the loop passes the first entry of the path. -/
theorem mapStep_of_path
    {i : Nat} {levels : List Nat} {current : MmState}
    (path : mapPath memory pageAddr (i :: levels) table current.allocator =
      some (upper, leaf))
    (unwritten : ∀ place ∈ upper ++ [leaf],
      current.memory (frameOf place) = memory (frameOf place)) :
    ∃ here rest mid, upper = here :: rest ∧ here.table = table ∧
      here.index = tableIndex pageAddr (27 - i * 9) ∧
      mapStep pageAddr (table, current) i =
        some (nextTable (here.entry mid.memory), mid) ∧
      mapPath memory pageAddr levels (nextTable (here.entry mid.memory))
        mid.allocator = some (rest, leaf) ∧
      KeptOrCreated memory mid.memory here ∧
      ∀ frame, frame ≠ tableFrame table →
        mid.memory frame = current.memory frame := by
  have sameEntry : current.memory (tableFrame table) =
      memory (tableFrame table) →
        entryAt current.memory table (tableIndex pageAddr (27 - i * 9)) =
          entryAt memory table (tableIndex pageAddr (27 - i * 9)) :=
    fun same => congrFun same _
  by_cases found : present
      (entryAt memory table (tableIndex pageAddr (27 - i * 9))) = true
  · obtain ⟨rest, rfl, below⟩ := mapPath_of_present found path
    have read := sameEntry
      (unwritten ⟨table, tableIndex pageAddr (27 - i * 9)⟩ (by simp))
    refine ⟨_, rest, current, rfl, rfl, rfl, ?_, ?_, ?_, fun _ _ => rfl⟩
    · rw [mapStep, if_pos (read ▸ found)]
      rfl
    · rw [EntryPointer.entry, read]
      exact below
    · rw [KeptOrCreated, EntryPointer.entry, if_pos found]
      exact read
  · obtain ⟨allocated, rest, rfl, allocates, below⟩ :=
      mapPath_of_absent found path
    have read := sameEntry
      (unwritten ⟨table, tableIndex pageAddr (27 - i * 9)⟩ (by simp))
    have stored : entryAt
        (storeEntry current.memory table (tableIndex pageAddr (27 - i * 9))
          allocated.1) table (tableIndex pageAddr (27 - i * 9)) =
        allocated.1 :=
      write_same _ _ _ _
    refine ⟨_, rest,
      ⟨storeEntry current.memory table (tableIndex pageAddr (27 - i * 9))
        allocated.1, allocated.2⟩, rfl, rfl, rfl, ?_, ?_, ?_, ?_⟩
    · rw [mapStep, if_neg (read ▸ found), allocates]
      rfl
    · rw [EntryPointer.entry, stored]
      exact below
    · rw [KeptOrCreated, EntryPointer.entry, if_neg found]
      obtain ⟨frame, link⟩ := tableLink_of_pageAlloc allocates
      exact ⟨frame, stored.trans link⟩
    · intro frame different
      exact storeEntry_of_frame_ne _ different

/--
The loop of `map_addr_in` follows the path, provided the entries on it lie in
different frames, so that none of them is changed before it is read.
-/
theorem foldlM_mapStep
    (levels : List Nat) {current : MmState}
    (path : mapPath memory pageAddr levels table current.allocator =
      some (upper, leaf))
    (separate : ((upper ++ [leaf]).map frameOf).Nodup)
    (unwritten : ∀ place ∈ upper ++ [leaf],
      current.memory (frameOf place) = memory (frameOf place)) :
    ∃ result, levels.foldlM (mapStep pageAddr) (table, current) =
        some (leaf.table, result) ∧
      leaf.index = pageAddr &&& pmlEntryMask ∧
      upper.map EntryPointer.index =
        levels.map (fun i => tableIndex pageAddr (27 - i * 9)) ∧
      Leads result.memory table (upper ++ [leaf]) ∧
      (∀ place ∈ upper, KeptOrCreated memory result.memory place) ∧
      ∀ frame, frame ∉ upper.map frameOf →
        result.memory frame = current.memory frame := by
  induction levels generalizing table current upper with
  | nil =>
      rw [mapPath, Option.some.injEq, Prod.mk.injEq] at path
      obtain ⟨rfl, rfl⟩ := path
      exact ⟨current, rfl, rfl, rfl, ⟨rfl, trivial⟩, by simp, fun _ _ => rfl⟩
  | cons i levels inductionHypothesis =>
      obtain ⟨here, rest, mid, rfl, atTable, index, step, below, linked,
        elsewhere⟩ := mapStep_of_path path unwritten
      rw [List.cons_append, List.map_cons, List.nodup_cons] at separate
      obtain ⟨apart, separate⟩ := separate
      have hereFrame : frameOf here = tableFrame table := by
        rw [frameOf, atTable]
      rw [hereFrame] at apart
      obtain ⟨result, loop, leafIndex, indices, leads, others, kept⟩ :=
        inductionHypothesis below separate fun place member => by
          rw [elsewhere _ fun same => apart
            (same ▸ List.mem_map_of_mem member)]
          exact unwritten place (List.mem_cons_of_mem here member)
      have sameHere : here.entry result.memory = here.entry mid.memory := by
        apply entry_congr
        apply kept
        intro member
        apply apart
        rw [← hereFrame, List.map_append]
        exact List.mem_append_left _ member
      refine ⟨result, ?_, leafIndex, ?_, ⟨atTable, ?_⟩, ?_, ?_⟩
      · rw [List.foldlM_cons, step]
        exact loop
      · rw [List.map_cons, List.map_cons, index, indices]
      · rw [sameHere]
        exact leads
      · intro place member
        rcases List.mem_cons.mp member with rfl | member
        · rw [KeptOrCreated, sameHere]
          exact linked
        · exact others place member
      · intro frame outside
        rw [List.map_cons, List.mem_cons, not_or, hereFrame] at outside
        rw [kept frame outside.2, elsewhere frame outside.1]

/-- The entries of a walk are those at the places it leads through. -/
theorem walkEntries_of_leads
    {root virtAddr : Nat}
    (leads : Leads memory root (upper ++ [leaf]))
    (upperIndices : upper.map EntryPointer.index =
      [0, 1, 2].map fun i => tableIndex (virtAddr >>> 12) (27 - i * 9))
    (leafIndex : leaf.index = (virtAddr >>> 12) &&& pmlEntryMask) :
    walkEntries memory root virtAddr =
      (upper ++ [leaf]).map (EntryPointer.entry · memory) := by
  obtain ⟨first, second, third, rfl⟩ : ∃ first second third,
      upper = [first, second, third] := by
    apply List.length_eq_three.mp
    rw [← List.length_map, upperIndices]
    rfl
  have slots := indices_eq virtAddr
  simp only [indices, List.cons.injEq, and_true] at slots
  obtain ⟨slot4, slot3, slot2, slot1⟩ := slots
  simp only [List.map_cons, List.map_nil, List.cons.injEq,
    and_true] at upperIndices
  obtain ⟨index4, index3, index2⟩ := upperIndices
  obtain ⟨table4, table3, table2, table1, _⟩ := leads
  have entry4 : pml4Entry memory root virtAddr = first.entry memory := by
    rw [pml4Entry, EntryPointer.entry, entryAt, entryAt, table4, index4, slot4]
  have entry3 : pml3Entry memory root virtAddr = second.entry memory := by
    rw [pml3Entry, entry4, ← table3, EntryPointer.entry, entryAt, entryAt,
      index3, slot3]
  have entry2 : pml2Entry memory root virtAddr = third.entry memory := by
    rw [pml2Entry, entry3, ← table2, EntryPointer.entry, entryAt, entryAt,
      index2, slot2]
  have entry1 : pml1Entry memory root virtAddr = leaf.entry memory := by
    rw [pml1Entry, entry2, ← table1, EntryPointer.entry, entryAt, entryAt,
      leafIndex, slot1]
  rw [walkEntries, entry4, entry3, entry2, entry1]
  rfl

end Path

/-! ## The entries after a mapping -/

section Mapping

variable {state next : MmState} {pml4 virtAddr physAddr : Nat}
  {flags : BitVec 64} {upper : List EntryPointer} {leaf : EntryPointer}

/--
After `map_addr_in` the walk of the address passes the same places: upper
entries are kept or created, the last one got the address and the flags.
-/
theorem walkEntries_mapped
    (maps : mapAddrIn pml4 virtAddr physAddr flags state = some next)
    (path : mapPath state.memory (virtAddr >>> 12) [0, 1, 2] pml4
      state.allocator = some (upper, leaf))
    (separate : ((upper ++ [leaf]).map frameOf).Nodup) :
    walkEntries next.memory pml4 virtAddr =
        (upper ++ [leaf]).map (EntryPointer.entry · next.memory) ∧
      (∀ place ∈ upper, KeptOrCreated state.memory next.memory place) ∧
      leaf.entry next.memory =
        leafEntry physAddr flags (leaf.entry state.memory) := by
  obtain ⟨result, loop, leafIndex, indices, leads, linked, kept⟩ :=
    foldlM_mapStep [0, 1, 2] path separate fun _ _ => rfl
  rw [List.map_append, List.nodup_append] at separate
  have leafFrame : ∀ place ∈ upper, frameOf place ≠ frameOf leaf :=
    fun place member => separate.2.2 _ (List.mem_map_of_mem member) _
      (List.mem_singleton_self _)
  have leafKept : leaf.entry result.memory = leaf.entry state.memory := by
    apply entry_congr
    apply kept
    intro member
    obtain ⟨place, placeMember, same⟩ := List.mem_map.mp member
    exact leafFrame place placeMember same
  rw [mapAddrIn] at maps
  split_ifs at maps
  simp only [loop, Option.map_some, Option.some.injEq] at maps
  subst maps
  rw [← leafIndex]
  have upperKept : ∀ place ∈ upper,
      place.entry (storeEntry result.memory leaf.table leaf.index
        (leafEntry physAddr flags
          (entryAt result.memory leaf.table leaf.index))) =
        place.entry result.memory := fun place member =>
    entry_congr (storeEntry_of_frame_ne _ (leafFrame place member))
  refine ⟨?_, ?_, ?_⟩
  · exact walkEntries_of_leads (leads.congr upperKept) indices leafIndex
  · intro place member
    rw [KeptOrCreated, upperKept place member]
    exact linked place member
  · rw [← leafKept]
    exact write_same _ _ _ _

/-- A flag is a bit of the flags. -/
theorem hasFlag_iff {flag : BitVec 64} {bit : Nat}
    (single : flag = 1#64 <<< bit) (inWord : bit < 64) :
    HasFlag flags flag ↔ flags.getLsbD bit = true := by
  rw [HasFlag, single]
  exact and_bit_ne_zero_iff flags inWord

/-- The permissions of the last entry: those it had and those requested. -/
theorem permission_leafEntry
    (entry : PmlEntry) {bit : Nat} (permission : PermissionBit bit) :
    (leafEntry physAddr flags entry).getLsbD bit =
      (entry.getLsbD bit || flags.getLsbD bit) := by
  rw [leafEntry, permission_orFlags _ _ permission,
    permission_setPresent _ permission, permission_setAddress _ _ permission]

/-- A created table is linked as writable and executable, but not for users. -/
theorem permissions_tableLink (frame : Nat) :
    writable (tableLink frame) = true ∧ user (tableLink frame) = false ∧
      noexec (tableLink frame) = false := by
  have bits : ∀ bit, PermissionBit bit →
      (tableLink frame).getLsbD bit = pmlFlagWritable.getLsbD bit := by
    intro bit permission
    rw [tableLink, permission_orFlags _ _ permission,
      permission_setPresent _ permission, permission_setAddress _ _ permission]
    simp
  refine ⟨?_, ?_, ?_⟩
  · exact bits 1 (Or.inl rfl)
  · exact bits 2 (Or.inr (Or.inl rfl))
  · exact bits 63 (Or.inr (Or.inr rfl))

/--
What the permissions of the page are after `map_addr_in`, when the entries
that were present above the last level grant everything.
-/
theorem permissions_mapped
    (maps : mapAddrIn pml4 virtAddr physAddr flags state = some next)
    (path : mapPath state.memory (virtAddr >>> 12) [0, 1, 2] pml4
      state.allocator = some (upper, leaf))
    (separate : ((upper ++ [leaf]).map frameOf).Nodup)
    (permits : ∀ place ∈ upper,
      present (place.entry state.memory) = true →
        Permits (place.entry state.memory)) :
    (PageWritable next.memory pml4 virtAddr ↔
      writable (leaf.entry state.memory) = true ∨
        HasFlag flags pmlFlagWritable) ∧
    (PageUser next.memory pml4 virtAddr ↔
      (∀ place ∈ upper, present (place.entry state.memory) = true) ∧
        (user (leaf.entry state.memory) = true ∨
          HasFlag flags pmlFlagUser)) ∧
    (PageNoexec next.memory pml4 virtAddr ↔
      noexec (leaf.entry state.memory) = true ∨
        HasFlag flags pmlFlagNoexecute) := by
  obtain ⟨entries, linked, last⟩ := walkEntries_mapped maps path separate
  have above : ∀ place ∈ upper, writable (place.entry next.memory) = true ∧
      (user (place.entry next.memory) = true ↔
        present (place.entry state.memory) = true) ∧
      noexec (place.entry next.memory) = false := by
    intro place member
    have became := linked place member
    rw [KeptOrCreated] at became
    split_ifs at became with found
    · obtain ⟨mayWrite, mayUse, mayExecute⟩ := permits place member found
      rw [became]
      exact ⟨mayWrite, iff_of_true mayUse found, mayExecute⟩
    · obtain ⟨frame, link⟩ := became
      obtain ⟨mayWrite, noUse, mayExecute⟩ := permissions_tableLink frame
      rw [link]
      exact ⟨mayWrite, iff_of_false (by simp [noUse]) found, mayExecute⟩
  have leafBit : ∀ {bit : Nat}, PermissionBit bit →
      ((leaf.entry next.memory).getLsbD bit = true ↔
        (leaf.entry state.memory).getLsbD bit = true ∨
          flags.getLsbD bit = true) := by
    intro bit permission
    rw [last, permission_leafEntry _ permission, Bool.or_eq_true]
  have writableFlag : HasFlag flags pmlFlagWritable ↔
      flags.getLsbD 1 = true := hasFlag_iff rfl (by decide)
  have userFlag : HasFlag flags pmlFlagUser ↔ flags.getLsbD 2 = true :=
    hasFlag_iff rfl (by decide)
  have noexecFlag : HasFlag flags pmlFlagNoexecute ↔
      flags.getLsbD 63 = true := hasFlag_iff rfl (by decide)
  refine ⟨?_, ?_, ?_⟩
  · rw [PageWritable, entries, List.forall_mem_map, List.forall_mem_append,
      List.forall_mem_singleton, writableFlag]
    exact (and_iff_right fun place member => (above place member).1).trans
      (leafBit (Or.inl rfl))
  · rw [PageUser, entries, List.forall_mem_map, List.forall_mem_append,
      List.forall_mem_singleton, userFlag]
    refine and_congr ?_ (leafBit (Or.inr (Or.inl rfl)))
    exact forall₂_congr fun place member => (above place member).2.1
  · rw [PageNoexec, entries, noexecFlag]
    refine Iff.trans ?_ (leafBit (Or.inr (Or.inr rfl)))
    constructor
    · rintro ⟨entry, member, set⟩
      obtain ⟨place, placeMember, rfl⟩ := List.mem_map.mp member
      rcases List.mem_append.mp placeMember with inUpper | atLeaf
      · rw [(above place inUpper).2.2] at set
        exact absurd set (by decide)
      · rw [List.mem_singleton.mp atLeaf] at set
        exact set
    · intro set
      exact ⟨_, List.mem_map_of_mem (by simp), set⟩

/--
The page gets the permissions that were requested for it exactly when the last
entry held no permission bit that is not requested, and no user page is
requested below a table that is created.
-/
theorem permissions_granted_iff
    (maps : mapAddrIn pml4 virtAddr physAddr flags state = some next)
    (path : mapPath state.memory (virtAddr >>> 12) [0, 1, 2] pml4
      state.allocator = some (upper, leaf))
    (separate : ((upper ++ [leaf]).map frameOf).Nodup)
    (permits : ∀ place ∈ upper,
      present (place.entry state.memory) = true →
        Permits (place.entry state.memory)) :
    PermissionsGranted next.memory pml4 virtAddr flags ↔
      (writable (leaf.entry state.memory) = true →
        HasFlag flags pmlFlagWritable) ∧
      (noexec (leaf.entry state.memory) = true →
        HasFlag flags pmlFlagNoexecute) ∧
      if ∀ place ∈ upper, present (place.entry state.memory) = true then
        user (leaf.entry state.memory) = true → HasFlag flags pmlFlagUser
      else ¬ HasFlag flags pmlFlagUser := by
  obtain ⟨mayWrite, mayUse, mayNotExecute⟩ :=
    permissions_mapped maps path separate permits
  have granted : PermissionsGranted next.memory pml4 virtAddr flags ↔
      (PageWritable next.memory pml4 virtAddr ↔
        HasFlag flags pmlFlagWritable) ∧
      (PageUser next.memory pml4 virtAddr ↔ HasFlag flags pmlFlagUser) ∧
      (PageNoexec next.memory pml4 virtAddr ↔
        HasFlag flags pmlFlagNoexecute) :=
    ⟨fun all => ⟨all.writable, all.user, all.noexec⟩,
      fun ⟨first, second, third⟩ => ⟨first, second, third⟩⟩
  rw [granted, mayWrite, mayUse, mayNotExecute, or_iff_right_iff_imp,
    or_iff_right_iff_imp]
  apply and_congr_right'
  rw [and_comm]
  apply and_congr_right'
  split_ifs with complete
  · rw [and_iff_right complete, or_iff_right_iff_imp]
  · constructor
    · intro same requested
      exact complete (same.mpr requested).1
    · intro notRequested
      exact iff_of_false (fun both => complete both.1) notRequested

end Mapping

/-- Mapping 0x7000 below an empty root takes the frames 8, 9 and 10. -/
theorem emptyRoot_path :
    mapPath emptyRoot.memory (0x7000 >>> 12) [0, 1, 2] 0x1000
      emptyRoot.allocator =
        some ([⟨0x1000, 0⟩, ⟨0xFFFFFF8000008000, 0⟩, ⟨0xFFFFFF8000009000, 0⟩],
          ⟨0xFFFFFF800000A000, 7⟩) := by
  decide

theorem emptyRoot_separate :
    (([⟨0x1000, 0⟩, ⟨0xFFFFFF8000008000, 0⟩, ⟨0xFFFFFF8000009000, 0⟩] ++
      [⟨0xFFFFFF800000A000, 7⟩] : List EntryPointer).map frameOf).Nodup :=
  separate_of_tree (by decide) emptyRoot_tree (emptyRoot_noHuge _)
    (Or.inr (emptyRoot_clean _)) emptyRoot_path

theorem emptyRoot_maps (flags : BitVec 64) :
    ∃ next, mapAddrIn 0x1000 0x7000 0x5000 flags emptyRoot = some next := by
  obtain ⟨allocator, runs, _⟩ := mapAddrIn_eq_insert emptyRoot flags
    (show emptyRoot.allocator.nframes < 2 ^ 20 by decide)
    (show 0x7000 % 4096 = 0 by decide) (show 0x5000 % 4096 = 0 by decide)
    (emptyRoot_enough _)
  exact ⟨_, runs⟩

/-- The entries of empty memory are not present. -/
theorem emptyRoot_absent (place : EntryPointer) :
    ¬ present (place.entry emptyRoot.memory) = true := by
  intro found
  exact absurd (found.symm.trans present_zero) (by decide)

/-- Mapping 0x7000 anew passes the tables that exist and the last entry. -/
theorem oneMapped_path :
    mapPath oneMapped.memory (0x7000 >>> 12) [0, 1, 2] 0x1000
      oneMapped.allocator =
        some ([⟨0x1000, 0⟩, ⟨0xFFFFFF8000002000, 0⟩, ⟨0xFFFFFF8000003000, 0⟩],
          ⟨0xFFFFFF8000004000, 7⟩) := by
  decide

/-- A page that users could write already is mapped for them once more. -/
theorem user_page_granted_again :
    ∃ next, mapAddrIn 0x1000 0x7000 0x5000 (pmlFlagWritable ||| pmlFlagUser)
        oneMapped = some next ∧
      PermissionsGranted next.memory 0x1000 0x7000
        (pmlFlagWritable ||| pmlFlagUser) := by
  have enough : missing pmlShape oneMapped.memory (tableFrame 0x1000)
      (indices 0x7000) ≤ (freeFrames oneMapped.allocator).length :=
    Nat.le_trans (missing_le_length _ _ _)
      (show 3 ≤ (freeFrames oneMapped.allocator).length by decide)
  obtain ⟨allocator, maps, -⟩ := mapAddrIn_eq_insert oneMapped
    (pmlFlagWritable ||| pmlFlagUser)
    (show oneMapped.allocator.nframes < 2 ^ 20 by decide)
    (show 0x7000 % 4096 = 0 by decide) (show 0x5000 % 4096 = 0 by decide)
    enough
  refine ⟨_, maps, ?_⟩
  refine (permissions_granted_iff maps oneMapped_path
    (separate_of_tree (by decide) oneMapped_tree (oneMapped_noHuge _)
      (Or.inr oneMapped_clean) oneMapped_path) ?_).mpr ?_
  · decide
  · decide

/-- A page that is mapped for users below a new table is not for users. -/
theorem user_page_not_granted :
    ¬ ∀ (state next : MmState) (pml4 virtAddr physAddr : Nat)
      (flags : BitVec 64) (upper : List EntryPointer) (leaf : EntryPointer),
      mapAddrIn pml4 virtAddr physAddr flags state = some next →
      mapPath state.memory (virtAddr >>> 12) [0, 1, 2] pml4
        state.allocator = some (upper, leaf) →
      ((upper ++ [leaf]).map frameOf).Nodup →
      (∀ place ∈ upper, present (place.entry state.memory) = true →
        Permits (place.entry state.memory)) →
      PermissionsGranted next.memory pml4 virtAddr flags := by
  intro always
  obtain ⟨next, maps⟩ := emptyRoot_maps pmlFlagUser
  have permits : ∀ place ∈ ([⟨0x1000, 0⟩, ⟨0xFFFFFF8000008000, 0⟩,
      ⟨0xFFFFFF8000009000, 0⟩] : List EntryPointer),
      present (place.entry emptyRoot.memory) = true →
        Permits (place.entry emptyRoot.memory) :=
    fun place _ found => absurd found (emptyRoot_absent place)
  have granted := always emptyRoot next 0x1000 0x7000 0x5000 pmlFlagUser _ _
    maps emptyRoot_path emptyRoot_separate permits
  obtain ⟨_, mayUse, _⟩ := permissions_mapped maps emptyRoot_path
    emptyRoot_separate permits
  have everyTable := (mayUse.mp (granted.user.mpr (by decide))).1
  exact emptyRoot_absent ⟨0x1000, 0⟩ (everyTable _ List.mem_cons_self)

end Kernull.MapPermissions
