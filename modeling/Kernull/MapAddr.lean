import Kernull.Library.RadixTreeGrowth
import Kernull.PageAlloc
import Kernull.PageWalkers

/-!
# Mapping a page

`map_addr_in` of `arch/x86_64/mm/mm.c`.  The mapping path takes frames from
the page allocator for the tables that are missing; it neither clears them nor
looks at the `huge` bit.  It is insertion into a radix tree of page tables
whose fresh tables are the free frames, and `mmu_translate_via` is lookup in
the same tree.  The bitmap of the allocator is not part of the memory that is
read as page tables.
-/

namespace Kernull.MapAddr

open Kernull.Mm
open Kernull.Pml
open Kernull.PageAlloc
open Kernull.PageTables
open Kernull.PageWalkers
open Kernull.Library.RadixTree

/-- The state `map_addr_in` works on. -/
structure MmState where
  memory : TableMemory
  allocator : PageAllocator

/-- `table[index] = entry`. -/
def storeEntry (memory : TableMemory) (table index : Nat)
    (entry : PmlEntry) : TableMemory :=
  write memory (tableFrame table) (slot index) entry

/-- One iteration of the loop of `map_addr_in`: the next table. -/
def mapStep (pageAddr : Nat) (current : Nat × MmState) (i : Nat) :
    Option (Nat × MmState) :=
  let (table, state) := current
  let idx := tableIndex pageAddr (27 - i * 9)
  if present (entryAt state.memory table idx) then
    some (nextTable (entryAt state.memory table idx), state)
  else
    (pageAlloc 0 pmlFlagWritable state.allocator).map fun allocated =>
      let memory := storeEntry state.memory table idx allocated.1
      (nextTable (entryAt memory table idx), ⟨memory, allocated.2⟩)

/-- The entry `map_addr_in` leaves in place of `entry` at the last level. -/
def leafEntry (physAddr : Nat) (flags : BitVec 64) (entry : PmlEntry) :
    PmlEntry :=
  orFlags (setPresent (setAddress entry physAddr)) flags

/--
`map_addr_in`; `none` when an assertion fails or `page_alloc` finds no frame
for a missing table.
-/
def mapAddrIn (pml4 virtAddr physAddr : Nat) (flags : BitVec 64)
    (state : MmState) : Option MmState :=
  if physAddr &&& pageLowMask ≠ 0 then none
  else if virtAddr &&& pageLowMask ≠ 0 then none
  else
    let pageAddr := virtAddr >>> 12
    ([0, 1, 2].foldlM (mapStep pageAddr) (pml4, state)).map fun walked =>
      let (table, state) := walked
      let idx := pageAddr &&& pmlEntryMask
      { state with
        memory := storeEntry state.memory table idx
          (leafEntry physAddr flags (entryAt state.memory table idx)) }

/-! ## The tree of page tables -/

/-- How page-table entries are read; huge entries stop at PML3 and PML2. -/
def pmlShape : Shape Nat PmlEntry where
  present := present
  stops := fun depth entry => (depth == 1 || depth == 2) && huge entry
  child := fun entry => address entry % 2 ^ 27

/-- The entry `map_addr_in` links a fresh table with. -/
def tableLink (frame : Nat) : PmlEntry :=
  orFlags (setPresent (setAddress 0 frame)) pmlFlagWritable

/-- The path of an address through the tables. -/
def indices (virtAddr : Nat) : List (Fin 512) :=
  [slot (pml4Index virtAddr), slot (pml3Index virtAddr),
    slot (pml2Index virtAddr), slot (pml1Index virtAddr)]

/-- The bits of an address below an entry found at the given depth. -/
def offsetMask (depth : Nat) : Nat :=
  if depth = 1 then pml3Mask else if depth = 2 then pml2Mask else pml1Mask

/-- The result of `mmu_translate_via` for the outcome of a lookup. -/
def translationOf (virtAddr : Nat) : Outcome PmlEntry → Nat
  | .absent depth => unmapped (depth + 1)
  | .found depth entry =>
      (address entry <<< 12) ||| (virtAddr &&& offsetMask depth)

/-- The table an entry leads to, as a frame of the tree. -/
theorem entryAt_nextTable
    (memory : TableMemory) (entry : PmlEntry) (index : Nat) :
    entryAt memory (nextTable entry) index =
      memory (pmlShape.child entry) (slot index) := by
  rw [entryAt, tableFrame_nextTable]
  rfl

/-- The lookup of an address in terms of the entries of its walk. -/
theorem lookup_indices
    (memory : TableMemory) (root virtAddr : Nat) :
    lookup pmlShape memory 0 (tableFrame root) (indices virtAddr) =
      if present (pml4Entry memory root virtAddr) then
        if present (pml3Entry memory root virtAddr) then
          if huge (pml3Entry memory root virtAddr) then
            .found 1 (pml3Entry memory root virtAddr)
          else if present (pml2Entry memory root virtAddr) then
            if huge (pml2Entry memory root virtAddr) then
              .found 2 (pml2Entry memory root virtAddr)
            else if present (pml1Entry memory root virtAddr) then
              .found 3 (pml1Entry memory root virtAddr)
            else .absent 3
          else .absent 2
        else .absent 1
      else .absent 0 := by
  simp only [pml1Entry, pml2Entry, pml3Entry, entryAt_nextTable]
  rfl

/-- `mmu_translate_via` is lookup. -/
theorem mmuTranslateVia_eq_lookup
    (memory : TableMemory) (root virtAddr : Nat) :
    mmuTranslateVia memory root virtAddr =
      translationOf virtAddr
        (lookup pmlShape memory 0 (tableFrame root)
          (indices virtAddr)) := by
  rw [lookup_indices, mmuTranslateVia_eq]
  simp only [Bool.not_eq_true', apply_ite (translationOf virtAddr),
    ← Bool.not_eq_true, ite_not]
  rfl

/-! ## `map_addr_in` is insertion -/

/-- Fresh tables are linked by entries that lead to them. -/
theorem links_tableLink
    {fresh : List Nat} (small : ∀ frame ∈ fresh, frame < 2 ^ 27) :
    Links pmlShape tableLink fresh := by
  have notHuge : huge (0#64) = false := by decide
  constructor
  · intro frame _
    simp [pmlShape, tableLink]
  · intro frame _ depth
    simp [pmlShape, tableLink, notHuge]
  · intro frame member
    have bound := small frame member
    simp only [pmlShape, tableLink, address_orFlags, address_setPresent,
      address_setAddress]
    omega

/-- Free frames are small enough to be linked. -/
theorem links_freeFrames
    {allocator : PageAllocator} (small : allocator.nframes < 2 ^ 20) :
    Links pmlShape tableLink (freeFrames allocator) := by
  refine links_tableLink fun frame member => ?_
  have inRange := (mem_freeFrames.mp member).1
  omega

/-- One iteration of the loop is one level of the insertion. -/
theorem mapStep_spec
    {state : MmState} {table pageAddr i index : Nat} {next : Fin 512}
    {rest : List (Fin 512)}
    (final : PmlEntry → PmlEntry)
    (small : state.allocator.nframes < 2 ^ 20)
    (position : tableIndex pageAddr (27 - i * 9) = index)
    (enough : missing pmlShape state.memory (tableFrame table)
        (slot index :: next :: rest) ≤ (freeFrames state.allocator).length) :
    ∃ nextPointer after,
      mapStep pageAddr (table, state) i = some (nextPointer, after) ∧
      FramesTaken state.allocator after.allocator ∧
      missing pmlShape after.memory (tableFrame nextPointer) (next :: rest) ≤
        (freeFrames after.allocator).length ∧
      insert pmlShape tableLink final state.memory
          (freeFrames state.allocator) (tableFrame table)
          (slot index :: next :: rest) =
        insert pmlShape tableLink final after.memory
          (freeFrames after.allocator) (tableFrame nextPointer)
          (next :: rest) := by
  by_cases found : pmlShape.present
      (state.memory (tableFrame table) (slot index)) = true
  · have read : present (entryAt state.memory table index) = true := found
    refine ⟨nextTable (entryAt state.memory table index), state, ?_,
      FramesTaken.refl _, ?_, ?_⟩
    · simp only [mapStep, position, read, if_true]
    · rw [missing, if_pos found] at enough
      rw [tableFrame_nextTable]
      exact enough
    · rw [insert_of_present found, tableFrame_nextTable]
      rfl
  · have read : ¬ present (entryAt state.memory table index) = true := found
    rw [missing, if_neg found] at enough
    obtain ⟨frame, fresh, free⟩ := List.exists_cons_of_ne_nil
      (List.ne_nil_of_length_pos (Nat.lt_of_succ_le
        (Nat.le_trans (Nat.succ_le_succ (Nat.zero_le _)) enough)))
    obtain ⟨allocator, allocates, sameCount, remaining, marked⟩ :=
      pageAlloc_of_free pmlFlagWritable address_zero small free
    have leads := (links_freeFrames small).child frame
      (free ▸ List.mem_cons_self)
    refine ⟨nextTable (tableLink frame),
      ⟨storeEntry state.memory table index (tableLink frame), allocator⟩, ?_,
      ⟨sameCount, [frame], ?_, ?_⟩, ?_, ?_⟩
    · simp only [mapStep, position]
      rw [if_neg read, allocates, Option.map_some]
      simp only [entryAt, storeEntry, write_same]
      rfl
    · rw [free, remaining, List.singleton_append]
    · intro other
      rw [marked, List.mem_singleton]
    · rw [free, List.length_cons] at enough
      rw [remaining]
      exact Nat.le_trans (missing_le_length _ _ _)
        (Nat.le_of_succ_le_succ enough)
    · rw [free, insert_of_absent found leads, remaining,
        tableFrame_nextTable]
      exact congrArg (fun child => (insert pmlShape tableLink final
        (storeEntry state.memory table index (tableLink frame))
        fresh child (next :: rest))) leads.symm

/-- The loop of `map_addr_in` reads the indices of the address. -/
theorem indices_eq (virtAddr : Nat) :
    indices virtAddr =
      [slot (tableIndex (virtAddr >>> 12) (27 - 0 * 9)),
        slot (tableIndex (virtAddr >>> 12) (27 - 1 * 9)),
        slot (tableIndex (virtAddr >>> 12) (27 - 2 * 9)),
        slot ((virtAddr >>> 12) &&& pmlEntryMask)] := by
  have last : (virtAddr >>> 12) &&& pmlEntryMask =
      virtAddr / 4096 % 512 := by
    rw [Nat.shiftRight_eq_div_pow]
    exact Nat.and_two_pow_sub_one_eq_mod _ 9
  rw [last]
  simp only [indices, pml4Index, pml3Index, pml2Index, pml1Index_eq,
    tableIndex_eq, pageAddress_eq, Nat.shiftRight_eq_div_pow,
    List.cons.injEq, and_true]
  refine ⟨congrArg slot ?_, congrArg slot ?_, congrArg slot ?_,
    congrArg slot ?_⟩ <;> omega

/--
`map_addr_in` inserts the path of the address into the tree of page tables,
with the free frames as fresh tables.
-/
theorem mapAddrIn_eq_insert
    (state : MmState) {pml4 virtAddr physAddr : Nat} (flags : BitVec 64)
    (small : state.allocator.nframes < 2 ^ 20)
    (virtAligned : virtAddr % 4096 = 0) (physAligned : physAddr % 4096 = 0)
    (enough : missing pmlShape state.memory (tableFrame pml4)
        (indices virtAddr) ≤ (freeFrames state.allocator).length) :
    ∃ allocator,
      mapAddrIn pml4 virtAddr physAddr flags state =
        some ⟨(insert pmlShape tableLink (leafEntry physAddr flags)
            state.memory (freeFrames state.allocator) (tableFrame pml4)
            (indices virtAddr)).1, allocator⟩ ∧
      FramesTaken state.allocator allocator ∧
      freeFrames allocator =
        (insert pmlShape tableLink (leafEntry physAddr flags)
            state.memory (freeFrames state.allocator) (tableFrame pml4)
            (indices virtAddr)).2 := by
  have lowBits : ∀ value : Nat, value &&& pageLowMask = value % 4096 :=
    fun value => Nat.and_two_pow_sub_one_eq_mod value 12
  rw [indices_eq] at enough ⊢
  obtain ⟨table1, state1, step1, taken1, enough1, same1⟩ :=
    mapStep_spec (leafEntry physAddr flags) small rfl enough
  obtain ⟨table2, state2, step2, taken2, enough2, same2⟩ :=
    mapStep_spec (leafEntry physAddr flags) (taken1.1 ▸ small) rfl enough1
  obtain ⟨table3, state3, step3, taken3, enough3, same3⟩ :=
    mapStep_spec (leafEntry physAddr flags)
      ((taken1.trans taken2).1 ▸ small) rfl enough2
  refine ⟨state3.allocator, ?_, taken1.trans (taken2.trans taken3), ?_⟩
  · rw [same1, same2, same3, Library.RadixTree.insert, mapAddrIn,
      if_neg (by rw [lowBits, physAligned]; simp),
      if_neg (by rw [lowBits, virtAligned]; simp)]
    simp only [List.foldlM_cons, List.foldlM_nil, step1, step2, step3,
      Option.bind_eq_bind, Option.bind_some, Option.pure_def,
      Option.map_some]
    rfl
  · rw [same1, same2, same3, Library.RadixTree.insert]

/-! ## Mapping succeeds with enough free frames only -/

/-- One iteration that finds a table or takes a clean one for it. -/
theorem mapStep_of_clean
    {state after : MmState}
    {table nextPointer pageAddr i index depth levels : Nat}
    {next : Fin 512} {rest : List (Fin 512)}
    (small : state.allocator.nframes < 2 ^ 20)
    (position : tableIndex pageAddr (27 - i * 9) = index)
    (unstopped : Unstopped pmlShape state.memory depth (tableFrame table)
      (slot index :: next :: rest))
    (avoids : Avoids pmlShape state.memory depth (tableFrame table)
      (levels + 1) (freeFrames state.allocator))
    (clean : Clean pmlShape state.memory (freeFrames state.allocator))
    (steps : mapStep pageAddr (table, state) i = some (nextPointer, after)) :
    after.allocator.nframes = state.allocator.nframes ∧
      Unstopped pmlShape after.memory (depth + 1) (tableFrame nextPointer)
        (next :: rest) ∧
      Avoids pmlShape after.memory (depth + 1) (tableFrame nextPointer)
        levels (freeFrames after.allocator) ∧
      Clean pmlShape after.memory (freeFrames after.allocator) ∧
      (missing pmlShape after.memory (tableFrame nextPointer)
          (next :: rest) ≤ (freeFrames after.allocator).length →
        missing pmlShape state.memory (tableFrame table)
          (slot index :: next :: rest) ≤
            (freeFrames state.allocator).length) := by
  by_cases found : pmlShape.present
      (state.memory (tableFrame table) (slot index)) = true
  · have read : present (entryAt state.memory table index) = true := found
    simp only [mapStep, position, read, if_true, Option.some.injEq,
      Prod.mk.injEq] at steps
    obtain ⟨rfl, rfl⟩ := steps
    obtain ⟨goesOn, below⟩ := unstopped found
    rw [tableFrame_nextTable, missing, if_pos found]
    exact ⟨rfl, below, avoids.child found goesOn, clean, id⟩
  · have read : ¬ present (entryAt state.memory table index) = true := found
    rcases free : freeFrames state.allocator with _ | ⟨frame, fresh⟩
    · rw [mapStep, position, if_neg read,
        pageAlloc_of_exhausted address_zero free] at steps
      exact absurd steps (by simp)
    · obtain ⟨allocator, allocates, sameCount, remaining, -⟩ :=
        pageAlloc_of_free pmlFlagWritable address_zero small free
      have leads : pmlShape.child (tableLink frame) = frame :=
        (links_freeFrames small).child frame (free ▸ List.mem_cons_self)
      have outside := avoids [] _ (Nat.zero_le _) rfl
      simp only [mapStep, position] at steps
      rw [if_neg read, allocates, Option.map_some, Option.some.injEq,
        Prod.mk.injEq] at steps
      obtain ⟨pointer, rfl⟩ := steps
      have target : tableFrame nextPointer = frame := by
        rw [← pointer, tableFrame_nextTable]
        simp only [entryAt, storeEntry, write_same]
        exact leads
      rw [free] at clean outside
      have cleanAfter : Clean pmlShape
          (storeEntry state.memory table index (tableLink frame))
          (frame :: fresh) := clean.write outside
      have cleanTable := cleanAfter frame List.mem_cons_self
      have nodup := freeFrames_nodup state.allocator
      rw [free, List.nodup_cons] at nodup
      rw [target, remaining, missing, if_neg found]
      refine ⟨sameCount, unstopped_of_clean cleanTable,
        avoids_of_clean cleanTable nodup.1, cleanAfter.tail, ?_⟩
      intro below
      change missing pmlShape
        (storeEntry state.memory table index (tableLink frame)) frame
        (next :: rest) ≤ fresh.length at below
      have allMissing : missing pmlShape
          (storeEntry state.memory table index (tableLink frame)) frame
          (next :: rest) = rest.length := missing_of_clean cleanTable
      rw [allMissing] at below
      rw [List.length_cons]
      exact Nat.succ_le_succ below

/-- With clean free frames mapping fails unless they suffice. -/
theorem enough_of_mapAddrIn
    {state after : MmState} {pml4 virtAddr physAddr : Nat}
    {flags : BitVec 64} (small : state.allocator.nframes < 2 ^ 20)
    (avoids : Avoids pmlShape state.memory 0 (tableFrame pml4) 3
      (freeFrames state.allocator))
    (unstopped : Unstopped pmlShape state.memory 0 (tableFrame pml4)
      (indices virtAddr))
    (clean : Clean pmlShape state.memory (freeFrames state.allocator))
    (maps : mapAddrIn pml4 virtAddr physAddr flags state = some after) :
    missing pmlShape state.memory (tableFrame pml4) (indices virtAddr) ≤
      (freeFrames state.allocator).length := by
  rw [mapAddrIn] at maps
  split_ifs at maps
  simp only [List.foldlM_cons, List.foldlM_nil, Option.bind_eq_bind,
    Option.map_eq_some_iff, Option.bind_eq_some_iff] at maps
  obtain ⟨_, ⟨⟨table1, state1⟩, step1, ⟨table2, state2⟩, step2,
    ⟨table3, state3⟩, step3, _⟩, _⟩ := maps
  rw [indices_eq] at unstopped ⊢
  obtain ⟨count1, unstopped1, avoids1, clean1, enough1⟩ :=
    mapStep_of_clean small rfl unstopped avoids clean step1
  obtain ⟨count2, unstopped2, avoids2, clean2, enough2⟩ :=
    mapStep_of_clean (count1 ▸ small) rfl unstopped1 avoids1 clean1 step2
  obtain ⟨-, -, -, -, enough3⟩ :=
    mapStep_of_clean (count2 ▸ count1 ▸ small) rfl unstopped2 avoids2 clean2
      step3
  exact enough1 (enough2 (enough3 (Nat.zero_le _)))

/-! ## Walks and free frames -/

/-- The tables below `root` form a tree, and none of them is free. -/
structure PageTree (memory : TableMemory) (root : Nat) (fresh : List Nat) :
    Prop where
  unshared : Unshared pmlShape memory 0 (tableFrame root) 3
  avoids : Avoids pmlShape memory 0 (tableFrame root) 3 fresh

/-- The state with other contents in the free frames. -/
def MmState.withContents (contents : TableMemory) (state : MmState) :
    MmState :=
  { state with
    memory := fun frame =>
      if frame ∈ freeFrames state.allocator then contents frame
      else state.memory frame }

/-- The number of tables that are missing for an address. -/
theorem missing_indices
    (memory : TableMemory) (root virtAddr : Nat) :
    missing pmlShape memory (tableFrame root) (indices virtAddr) =
      if present (pml4Entry memory root virtAddr) then
        if present (pml3Entry memory root virtAddr) then
          if present (pml2Entry memory root virtAddr) then 0 else 1
        else 2
      else 3 := by
  simp only [pml2Entry, pml3Entry, entryAt_nextTable]
  rfl

/-- A walk that meets no huge entry is not stopped. -/
theorem unstopped_of_no_huge
    {memory : TableMemory} {root virtAddr : Nat}
    (noHuge : ¬ MeetsHuge memory root virtAddr) :
    Unstopped pmlShape memory 0 (tableFrame root) (indices virtAddr) := by
  have second : pml3Entry memory root virtAddr =
      memory (pmlShape.child (pml4Entry memory root virtAddr))
        (slot (pml3Index virtAddr)) := entryAt_nextTable _ _ _
  have third : pml2Entry memory root virtAddr =
      memory (pmlShape.child (pml3Entry memory root virtAddr))
        (slot (pml2Index virtAddr)) := entryAt_nextTable _ _ _
  refine fun p4 => ⟨rfl, fun p3 => ⟨?_, fun p2 => ⟨?_, trivial⟩⟩⟩
  · change huge (memory (pmlShape.child (pml4Entry memory root virtAddr))
      (slot (pml3Index virtAddr))) = false
    rw [← second, ← Bool.not_eq_true]
    exact fun h3 => noHuge ⟨p4, by rw [second]; exact p3, Or.inl h3⟩
  · have p3' : present (pml3Entry memory root virtAddr) = true := by
      rw [second]
      exact p3
    change present (memory (pmlShape.child (memory (pmlShape.child
      (pml4Entry memory root virtAddr)) (slot (pml3Index virtAddr))))
      (slot (pml2Index virtAddr))) = true at p2
    change huge (memory (pmlShape.child (memory (pmlShape.child
      (pml4Entry memory root virtAddr)) (slot (pml3Index virtAddr))))
      (slot (pml2Index virtAddr))) = false
    rw [← second, ← third] at p2 ⊢
    rw [← Bool.not_eq_true]
    exact fun h2 => noHuge ⟨p4, p3', Or.inr ⟨p2, h2⟩⟩

/-- The tables of the tree keep their contents when free frames change. -/
theorem PageTree.agree
    {state : MmState} {root : Nat}
    (tree : PageTree state.memory root (freeFrames state.allocator))
    (contents : TableMemory) (path : List (Fin 512)) (other : Nat)
    (short : path.length ≤ 3)
    (reaches : tableAt pmlShape state.memory 0 (tableFrame root) path =
      some other) :
    (state.withContents contents).memory other = state.memory other :=
  if_neg (tree.avoids path other short reaches)

/-- Other contents of the free frames do not affect the tree. -/
theorem PageTree.withContents
    {state : MmState} {root : Nat}
    (tree : PageTree state.memory root (freeFrames state.allocator))
    (contents : TableMemory) :
    PageTree (state.withContents contents).memory root
      (freeFrames state.allocator) := by
  have agree := tree.agree contents
  exact ⟨tree.unshared.congr agree, tree.avoids.congr agree⟩

/-- Nor do they affect a walk that is not stopped. -/
theorem PageTree.walk_withContents
    {state : MmState} {root virtAddr : Nat}
    (tree : PageTree state.memory root (freeFrames state.allocator))
    (unstopped : Unstopped pmlShape state.memory 0 (tableFrame root)
      (indices virtAddr))
    (contents : TableMemory) :
    Unstopped pmlShape (state.withContents contents).memory 0
        (tableFrame root) (indices virtAddr) ∧
      missing pmlShape (state.withContents contents).memory
          (tableFrame root) (indices virtAddr) =
        missing pmlShape state.memory (tableFrame root)
          (indices virtAddr) :=
  unstopped_congr (tree.agree contents) rfl unstopped

/-- Zeroed free frames are clean. -/
theorem clean_zeroed (state : MmState) :
    Clean pmlShape (state.withContents fun _ _ => 0).memory
      (freeFrames state.allocator) := by
  intro frame member index
  have zero : (state.withContents fun _ _ => 0).memory frame index = 0 :=
    congrFun (if_pos member) index
  rw [zero]
  exact present_zero

/-! ## Free frames with old entries -/

/-- A present huge entry whose address lies in the given frame modulo 2^27. -/
def staleEntry (frame : Nat) : PmlEntry :=
  setAddress 0x81 (frame + 2 ^ 27)

theorem present_staleEntry (frame : Nat) :
    present (staleEntry frame) = true := by
  have bit : present (0x81#64) = true := by decide
  rw [staleEntry, present_setAddress]
  exact bit

theorem huge_staleEntry (frame : Nat) :
    huge (staleEntry frame) = true := by
  have bit : huge (0x81#64) = true := by decide
  rw [staleEntry, huge_setAddress]
  exact bit

theorem address_staleEntry {frame : Nat} (small : frame < 2 ^ 27) :
    address (staleEntry frame) = frame + 2 ^ 27 := by
  rw [staleEntry, address_setAddress]
  omega

theorem child_staleEntry {frame : Nat} (small : frame < 2 ^ 27) :
    pmlShape.child (staleEntry frame) = frame := by
  change address (staleEntry frame) % 2 ^ 27 = frame
  rw [address_staleEntry small]
  omega

/-- The second free frame, if there is one. -/
def secondFree (state : MmState) : Nat :=
  (freeFrames state.allocator).tail.headD 0

/-- The state whose free frames are full of stale entries. -/
def MmState.stale (state : MmState) : MmState :=
  state.withContents fun _ _ => staleEntry (secondFree state)

theorem secondFree_lt
    {state : MmState} (small : state.allocator.nframes < 2 ^ 20) :
    secondFree state < 2 ^ 27 := by
  rw [secondFree]
  rcases free : freeFrames state.allocator with _ | ⟨first, _ | ⟨second, _⟩⟩
  · exact Nat.two_pow_pos 27
  · exact Nat.two_pow_pos 27
  · have inRange := (mem_freeFrames.mp
      (free ▸ List.mem_cons_of_mem first List.mem_cons_self)).1
    change second < 2 ^ 27
    omega

theorem stale_of_free
    {state : MmState} {frame : Nat} (free : frame ∈ freeFrames state.allocator)
    (index : Fin 512) :
    state.stale.memory frame index = staleEntry (secondFree state) :=
  congrFun (if_pos free) index

theorem secondFree_mem
    {state : MmState} {table : Nat} {fresh : List Nat}
    (free : freeFrames state.allocator = table :: fresh)
    (more : fresh ≠ []) :
    secondFree state ∈ fresh := by
  rw [secondFree, free]
  cases fresh with
  | nil => exact absurd rfl more
  | cons second fresh => exact List.mem_cons_self

/-- The stale entries of all free frames lead into the second of them. -/
theorem child_stale_mem
    {state : MmState} {table : Nat} {fresh : List Nat}
    (small : state.allocator.nframes < 2 ^ 20)
    (free : freeFrames state.allocator = table :: fresh)
    (more : fresh ≠ []) {frame : Nat} (member : frame ∈ table :: fresh)
    (index : Fin 512) :
    pmlShape.child (state.stale.memory frame index) ∈ fresh := by
  rw [stale_of_free (free ▸ member), child_staleEntry (secondFree_lt small)]
  exact secondFree_mem free more

/-- Below the root a stale entry ends the walk. -/
theorem lookup_staleEntry
    {memory : TableMemory} {frame depth : Nat} {second : Nat}
    {position : Fin 512} (rest : List (Fin 512))
    (holds : memory frame position = staleEntry second)
    (length : depth + rest.length = 3) (deep : 0 < depth) :
    lookup pmlShape memory depth frame (position :: rest) =
      .found depth (staleEntry second) := by
  have presentEntry : pmlShape.present (staleEntry second) = true :=
    present_staleEntry second
  cases rest with
  | nil => rw [lookup, holds, if_pos presentEntry]
  | cons next rest =>
      have stops : pmlShape.stops depth (staleEntry second) = true := by
        rw [List.length_cons] at length
        have upper : depth = 1 ∨ depth = 2 := by omega
        rcases upper with one | two
        · simp [pmlShape, huge_staleEntry, one]
        · simp [pmlShape, huge_staleEntry, two]
      rw [lookup, holds, if_pos presentEntry, if_pos stops]

/--
When a table is missing, addresses in the part of the tree that it covers are
found after `map_addr_in`, with the stale entry that the new table held.
-/
theorem lookup_mapped_stale
    {state : MmState} {pml4 virtAddr : Nat} {before rest : List (Fin 512)}
    {index next : Fin 512} {source : Nat}
    (final : PmlEntry → PmlEntry) (position : Fin 512)
    (small : state.allocator.nframes < 2 ^ 20)
    (tree : PageTree state.memory pml4 (freeFrames state.allocator))
    (split : indices virtAddr = before ++ index :: next :: rest)
    (reaches : tableAt pmlShape state.memory 0 (tableFrame pml4) before =
      some source)
    (absent : ¬ pmlShape.present (state.memory source index) = true)
    (enough : rest.length + 1 ≤ (freeFrames state.allocator).length)
    (passed : rest = [] → position ≠ next) :
    lookup pmlShape
        (insert pmlShape tableLink final state.stale.memory
          (freeFrames state.allocator) (tableFrame pml4)
          (indices virtAddr)).1
        0 (tableFrame pml4) (before ++ index :: position :: rest) =
      .found (before.length + 1) (staleEntry (secondFree state)) := by
  have length : before.length + rest.length = 2 := by
    have four := congrArg List.length split
    simp only [indices, List.length_append, List.length_cons,
      List.length_nil] at four
    omega
  have staleTree : PageTree state.stale.memory pml4
      (freeFrames state.allocator) := tree.withContents _
  have short : before.length ≤ 3 := by omega
  have staleReaches : tableAt pmlShape state.stale.memory 0 (tableFrame pml4)
      before = some source :=
    (tableAt_congr (tree.agree _) (Nat.le_succ_of_le short)).trans reaches
  have staleAbsent : ¬ pmlShape.present
      (state.stale.memory source index) = true := by
    have sourceKept : state.stale.memory source = state.memory source :=
      tree.agree _ before source short reaches
    rw [sourceKept]
    exact absent
  have links := links_freeFrames small
  have nodup := freeFrames_nodup state.allocator
  have outside := tree.avoids before source short reaches
  rcases free : freeFrames state.allocator with _ | ⟨table, fresh⟩
  · rw [free] at enough
    exact absurd enough (by simp)
  have avoids := staleTree.avoids
  rw [free] at links nodup outside enough avoids
  -- With one missing table its stale entries are read by no step of the
  -- insertion; with more of them they lead it into the second free frame.
  have leadsOn : rest ≠ [] → ∀ frame ∈ table :: fresh, ∀ position,
      pmlShape.child (state.stale.memory frame position) ∈ fresh := by
    intro more frame member
    refine child_stale_mem small free ?_ member
    rintro rfl
    have lengthRest := List.length_pos_iff.mpr more
    simp only [List.length_cons, List.length_nil] at enough
    omega
  have contained : Contained pmlShape state.stale.memory (table :: fresh)
      source (index :: next :: rest) := by
    by_cases last : rest = []
    · left
      rw [missing, if_neg staleAbsent, last]
      exact Nat.le_refl 1
    · right
      intro frame member position _
      exact List.mem_cons_of_mem table (leadsOn last frame member position)
  have tableEntry (position : Fin 512) :
      state.stale.memory table position = staleEntry (secondFree state) :=
    stale_of_free (free ▸ List.mem_cons_self) position
  have kept : (insert pmlShape tableLink final state.stale.memory
      (table :: fresh) (tableFrame pml4)
      (before ++ index :: next :: rest)).1 table position =
        staleEntry (secondFree state) := by
    rw [← tableEntry position]
    refine insert_keeps_fresh_entry outside nodup links staleReaches
      staleAbsent ?_
    by_cases last : rest = []
    · exact Or.inl ⟨last, passed last⟩
    · refine Or.inr ⟨last, ?_, ?_, ?_⟩
      · intro frame member position _
        exact leadsOn last frame (List.mem_cons_of_mem table member) position
      · rw [tableEntry]
        exact present_staleEntry _
      · exact leadsOn last table List.mem_cons_self next
  have below := lookup_insert_below final position rest short
    staleTree.unshared avoids links contained staleReaches staleAbsent
  rw [split, below, Nat.zero_add]
  exact lookup_staleEntry rest kept (by omega) (Nat.succ_pos _)

/-! ## An empty root -/

/-- All memory is zero, the root is in frame 1, frames 0 to 7 are in use. -/
def emptyRoot : MmState where
  memory := fun _ _ => 0
  allocator :=
    { frames := fun i => if i = 0 then 0xFF else 0
      nframes := 64
      totalMemory := 0
      unavailableMemory := 0 }

theorem emptyRoot_clean (fresh : List Nat) :
    Clean pmlShape emptyRoot.memory fresh := by
  intro frame _ index
  change present (emptyRoot.memory frame index) = false
  exact present_zero

theorem emptyRoot_noHuge (virtAddr : Nat) :
    ¬ MeetsHuge emptyRoot.memory 0x1000 virtAddr := by
  rintro ⟨p4, -, -⟩
  exact absurd (p4.symm.trans present_zero) (by decide)

theorem emptyRoot_tree :
    PageTree emptyRoot.memory 0x1000 (freeFrames emptyRoot.allocator) := by
  have clean : ∀ index, pmlShape.present
      (emptyRoot.memory (tableFrame 0x1000) index) = false :=
    emptyRoot_clean [tableFrame 0x1000] _ List.mem_cons_self
  have outside : tableFrame 0x1000 ∉ freeFrames emptyRoot.allocator := by
    rw [mem_freeFrames]
    decide
  exact ⟨unshared_of_clean clean, avoids_of_clean clean outside⟩

theorem emptyRoot_enough (virtAddr : Nat) :
    missing pmlShape emptyRoot.memory (tableFrame 0x1000)
      (indices virtAddr) ≤ (freeFrames emptyRoot.allocator).length :=
  Nat.le_trans (missing_le_length _ _ _)
    (show 3 ≤ (freeFrames emptyRoot.allocator).length by decide)

/-! ## One mapped page -/

/-- An entry that grants everything below it. -/
def openEntry (frame : Nat) : PmlEntry :=
  orFlags (setPresent (setAddress 0 frame)) (pmlFlagWritable ||| pmlFlagUser)

/--
The tables in frames 1 to 4 map the page 0x7000 to frame 6; frames 0 to 7 are
in use.
-/
def oneMapped : MmState where
  memory := fun frame index =>
    if 1 ≤ frame ∧ frame ≤ 3 ∧ index = slot 0 then openEntry (frame + 1)
    else if frame = 4 ∧ index = slot 7 then openEntry 6
    else 0
  allocator := emptyRoot.allocator

/-- Paths from frame 1 pass the frames in their order. -/
theorem tableAt_oneMapped
    {path : List (Fin 512)} {depth frame other : Nat}
    (first : 1 ≤ frame) (levels : frame + path.length ≤ 4)
    (reaches : tableAt pmlShape oneMapped.memory depth frame path =
      some other) :
    path = List.replicate path.length (slot 0) ∧
      other = frame + path.length := by
  induction path generalizing depth frame with
  | nil => exact ⟨rfl, (Option.some.inj reaches).symm⟩
  | cons index path inductionHypothesis =>
      rw [List.length_cons] at levels
      obtain ⟨found, -, below⟩ := tableAt_cons_some reaches
      have zero : index = slot 0 := by
        by_contra other
        have absent : oneMapped.memory frame index = 0 := by
          change ite _ _ _ = _
          rw [if_neg (fun inside => other inside.2.2),
            if_neg (by omega)]
        rw [absent] at found
        exact absurd (found.symm.trans present_zero) (by decide)
      have entry : oneMapped.memory frame index = openEntry (frame + 1) := by
        exact if_pos ⟨first, by omega, zero⟩
      have child : pmlShape.child (oneMapped.memory frame index) =
          frame + 1 := by
        rw [entry]
        simp only [pmlShape, openEntry, address_orFlags, address_setPresent,
          address_setAddress]
        omega
      rw [child] at below
      obtain ⟨zeros, reached⟩ :=
        inductionHypothesis (by omega) (by omega) below
      refine ⟨?_, by rw [reached, List.length_cons]; omega⟩
      rw [List.length_cons, List.replicate_succ, ← zeros, zero]

/-- The frames below 8 are in use. -/
theorem oneMapped_used {frame : Nat} (low : frame < 8) :
    frame ∉ freeFrames oneMapped.allocator := by
  have used : ∀ frame < 8, frame ∉ freeFrames oneMapped.allocator := by
    simp only [mem_freeFrames]
    decide
  exact used frame low

theorem oneMapped_clean :
    Clean pmlShape oneMapped.memory (freeFrames oneMapped.allocator) := by
  intro frame member index
  have above : 8 ≤ frame := by
    by_contra low
    exact oneMapped_used (Nat.lt_of_not_le low) member
  have absent : oneMapped.memory frame index = 0 := by
    change ite _ _ _ = _
    rw [if_neg (by omega), if_neg (by omega)]
  rw [absent]
  exact present_zero

theorem oneMapped_tree :
    PageTree oneMapped.memory 0x1000 (freeFrames oneMapped.allocator) := by
  have start : tableFrame 0x1000 = 1 := by decide
  constructor
  · intro left right other leftShort rightShort leftReaches rightReaches
    rw [start] at leftReaches rightReaches
    obtain ⟨leftZeros, leftOther⟩ :=
      tableAt_oneMapped (Nat.le_refl 1) (by omega) leftReaches
    obtain ⟨rightZeros, rightOther⟩ :=
      tableAt_oneMapped (Nat.le_refl 1) (by omega) rightReaches
    have lengths : left.length = right.length := by omega
    rw [leftZeros, rightZeros, lengths]
  · intro path other short reaches
    rw [start] at reaches
    obtain ⟨-, reached⟩ :=
      tableAt_oneMapped (Nat.le_refl 1) (by omega) reaches
    exact oneMapped_used (by omega)

theorem oneMapped_noHuge (virtAddr : Nat) :
    ¬ MeetsHuge oneMapped.memory 0x1000 virtAddr := by
  have small : ∀ frame index, huge (oneMapped.memory frame index) = false := by
    intro frame index
    change huge (ite _ _ _) = _
    split_ifs with upper leaf
    · obtain ⟨low, high, -⟩ := upper
      have frames : frame = 1 ∨ frame = 2 ∨ frame = 3 := by omega
      rcases frames with rfl | rfl | rfl <;> decide
    · decide
    · decide
  rintro ⟨-, -, huge3 | ⟨-, huge2⟩⟩
  · exact absurd huge3 (by rw [pml3Entry, entryAt, small]; simp)
  · exact absurd huge2 (by rw [pml2Entry, entryAt, small]; simp)

end Kernull.MapAddr
