import Kernull.MapAddr

/-!
# What mapping a page does to other pages

A table that `map_addr_in` takes from the page allocator is not cleared, so
what the frame held before becomes a part of the address space.  When no table
of the walk is missing, or the free frames are clean, the translations of all
other pages are kept.  Behind a huge entry the mapping path writes into the
mapped memory; this changes no translation as long as that memory is not a
page table itself.
-/

namespace Kernull.MapFrame

open Kernull.Mm
open Kernull.Pml
open Kernull.PageAlloc
open Kernull.PageTables
open Kernull.PageWalkers
open Kernull.MapAddr
open Kernull.Library.RadixTree

/--
Outside the page of an address translations are the same, and unmapped pages
stay unmapped.
-/
def OthersKept (before after : TableMemory) (root virtAddr : Nat) : Prop :=
  ∀ other, pageAddress other ≠ pageAddress virtAddr →
    (¬ IsError (mmuTranslateVia before root other) →
      mmuTranslateVia after root other =
        mmuTranslateVia before root other) ∧
    (IsError (mmuTranslateVia before root other) →
      IsError (mmuTranslateVia after root other))

/-- `map_addr_in` changes the translation of its own page only. -/
def MapKeepsOthers (pml4 virtAddr physAddr : Nat) (flags : BitVec 64)
    (state : MmState) : Prop :=
  ∃ next, mapAddrIn pml4 virtAddr physAddr flags state = some next ∧
    OthersKept state.memory next.memory pml4 virtAddr

/-- The table of the last write behind a huge entry is not one of the tree. -/
def WritesOutside (memory : TableMemory) (root virtAddr : Nat) : Prop :=
  ∀ path, path.length ≤ 3 →
    tableAt pmlShape memory 0 (tableFrame root) path ≠
      some (if present (pml2Entry memory root virtAddr) then
          tableFrame (nextTable (pml2Entry memory root virtAddr))
        else tableFrame (nextTable (pml3Entry memory root virtAddr)))

/-! ## Translations and lookups -/

/-- A translation fails exactly when the lookup finds no entry. -/
theorem isError_iff_absent
    (memory : TableMemory) (root virtAddr : Nat) :
    IsError (mmuTranslateVia memory root virtAddr) ↔
      ∃ depth, lookup pmlShape memory 0 (tableFrame root)
        (indices virtAddr) = .absent depth := by
  have small : ∀ depth, virtAddr &&& offsetMask depth < 2 ^ 30 := by
    intro depth
    refine Nat.and_lt_two_pow _ ?_
    rw [offsetMask]
    split_ifs <;> decide
  rw [mmuTranslateVia_eq_lookup, lookup_indices]
  split_ifs <;>
    simp [translationOf, isError_unmapped, not_isError_or _ (small _)]

/-- Different pages have different paths. -/
theorem pageAddress_of_indices
    {left right : Nat} (same : indices left = indices right) :
    pageAddress left = pageAddress right := by
  have bound : ∀ value, pageAddress value < 2 ^ 36 := by
    intro value
    rw [pageAddress_eq]
    omega
  have leftBound := bound left
  have rightBound := bound right
  have slots : ∀ {first second : Nat}, slot first = slot second →
      first % 512 = second % 512 := fun equal => congrArg Fin.val equal
  simp only [indices, List.cons.injEq, and_true] at same
  obtain ⟨fourth, third, second, first⟩ := same
  have fourth := slots fourth
  have third := slots third
  have second := slots second
  have first := slots first
  simp only [pml4Index, pml3Index, pml2Index, pml1Index_eq,
    tableIndex_eq] at fourth third second first
  omega

/-- Addresses of one page have the same path. -/
theorem indices_congr
    {left right : Nat} (same : pageAddress left = pageAddress right) :
    indices left = indices right := by
  simp only [indices, pml4Index, pml3Index, pml2Index, pml1Index, same]

/-- Every path of four levels is the path of an address. -/
theorem exists_indices
    (path : List (Fin 512)) (levels : path.length = 4) :
    ∃ virtAddr, indices virtAddr = path := by
  obtain ⟨fourth, third, second, first, rfl⟩ :=
    List.length_eq_four.mp levels
  refine ⟨(((fourth.val * 512 + third.val) * 512 + second.val) * 512 +
    first.val) * 4096, ?_⟩
  have slots : ∀ {value : Nat} {index : Fin 512},
      value % 512 = index.val → slot value = index := fun equal =>
    Fin.ext equal
  simp only [indices, List.cons.injEq, and_true]
  refine ⟨slots ?_, slots ?_, slots ?_, slots ?_⟩ <;>
    simp only [pml4Index, pml3Index, pml2Index, pml1Index_eq,
      tableIndex_eq, pageAddress_eq] <;> omega

/-- If the outcomes of all other lookups are preserved, so are the pages. -/
theorem othersKept_of_preserved
    {before after : TableMemory} {root virtAddr : Nat}
    (preserved : ∀ other, indices other ≠ indices virtAddr →
      Preserved
        (lookup pmlShape before 0 (tableFrame root) (indices other))
        (lookup pmlShape after 0 (tableFrame root) (indices other))) :
    OthersKept before after root virtAddr := by
  intro other elsewhere
  have kept := preserved other fun same =>
    elsewhere (pageAddress_of_indices same)
  rw [isError_iff_absent, isError_iff_absent, mmuTranslateVia_eq_lookup,
    mmuTranslateVia_eq_lookup]
  cases outcome : lookup pmlShape before 0 (tableFrame root)
      (indices other) with
  | absent depth =>
      rw [outcome] at kept
      exact ⟨fun found => absurd ⟨depth, rfl⟩ found, fun _ => kept⟩
  | found depth entry =>
      rw [outcome] at kept
      refine ⟨fun _ => congrArg (translationOf other) kept, ?_⟩
      rintro ⟨level, absent⟩
      exact absurd absent (by simp)

/-! ## Mapping without and through huge entries -/

/-- With usable free frames all other pages are kept. -/
theorem mapKeepsOthers_of_usable
    (state : MmState) {pml4 virtAddr physAddr : Nat} (flags : BitVec 64)
    (small : state.allocator.nframes < 2 ^ 20)
    (tree : PageTree state.memory pml4 (freeFrames state.allocator))
    (virtAligned : virtAddr % 4096 = 0) (physAligned : physAddr % 4096 = 0)
    (unstopped : Unstopped pmlShape state.memory 0 (tableFrame pml4)
      (indices virtAddr))
    (enough : missing pmlShape state.memory (tableFrame pml4)
        (indices virtAddr) ≤ (freeFrames state.allocator).length)
    (usable : Usable pmlShape state.memory (freeFrames state.allocator)
      (tableFrame pml4) (indices virtAddr) 0) :
    MapKeepsOthers pml4 virtAddr physAddr flags state := by
  obtain ⟨allocator, runs, -, -⟩ := mapAddrIn_eq_insert state flags small
    virtAligned physAligned enough
  have levels : (indices virtAddr).length = 3 + 1 := rfl
  exact ⟨_, runs, othersKept_of_preserved fun other different =>
    lookup_insert_other levels rfl different unstopped tree.unshared
      tree.avoids (freeFrames_nodup _) (links_freeFrames small) usable⟩

/-- Writes outside of the tree do not affect any translation. -/
theorem othersKept_of_agree
    {before after : TableMemory} {root : Nat} (virtAddr : Nat)
    (agree : ∀ path other, path.length ≤ 3 →
      tableAt pmlShape before 0 (tableFrame root) path = some other →
        after other = before other) :
    OthersKept before after root virtAddr := by
  refine othersKept_of_preserved fun other _ => ?_
  have levels : (indices other).length ≤ 3 + 1 := Nat.le_refl 4
  rw [lookup_congr agree levels]
  exact Preserved.refl _

/-- Behind a huge entry the tables of the tree are not written. -/
theorem mapKeepsOthers_of_writesOutside
    (state : MmState) {pml4 virtAddr physAddr : Nat} (flags : BitVec 64)
    (small : state.allocator.nframes < 2 ^ 20)
    (tree : PageTree state.memory pml4 (freeFrames state.allocator))
    (virtAligned : virtAddr % 4096 = 0) (physAligned : physAddr % 4096 = 0)
    (meets : MeetsHuge state.memory pml4 virtAddr)
    (enough : missing pmlShape state.memory (tableFrame pml4)
        (indices virtAddr) ≤ (freeFrames state.allocator).length)
    (outside : WritesOutside state.memory pml4 virtAddr) :
    MapKeepsOthers pml4 virtAddr physAddr flags state := by
  obtain ⟨allocator, runs, -, -⟩ := mapAddrIn_eq_insert state flags small
    virtAligned physAligned enough
  refine ⟨_, runs, othersKept_of_agree virtAddr ?_⟩
  intro path other short reaches
  obtain ⟨p4, p3, -⟩ := meets
  have unwritten := outside path short
  rw [reaches, Ne, Option.some.injEq] at unwritten
  have second : pml3Entry state.memory pml4 virtAddr =
      state.memory (pmlShape.child (pml4Entry state.memory pml4 virtAddr))
        (slot (pml3Index virtAddr)) := entryAt_nextTable _ _ _
  have third : pml2Entry state.memory pml4 virtAddr =
      state.memory (pmlShape.child (pml3Entry state.memory pml4 virtAddr))
        (slot (pml2Index virtAddr)) := entryAt_nextTable _ _ _
  have p3' : pmlShape.present (state.memory (pmlShape.child
      (pml4Entry state.memory pml4 virtAddr))
        (slot (pml3Index virtAddr))) = true := second ▸ p3
  have start : ∀ fresh, insert pmlShape tableLink (leafEntry physAddr flags)
      state.memory fresh (tableFrame pml4) (indices virtAddr) =
      insert pmlShape tableLink (leafEntry physAddr flags) state.memory
        fresh (pmlShape.child (pml3Entry state.memory pml4 virtAddr))
        [slot (pml2Index virtAddr), slot (pml1Index virtAddr)] := by
    intro fresh
    rw [indices, insert_of_present p4, second]
    exact insert_of_present p3'
  by_cases p2 : present (pml2Entry state.memory pml4 virtAddr) = true
  · have p2' : pmlShape.present (state.memory (pmlShape.child
        (pml3Entry state.memory pml4 virtAddr))
          (slot (pml2Index virtAddr))) = true := third ▸ p2
    rw [if_pos p2, tableFrame_nextTable] at unwritten
    rw [start, insert_of_present p2', ← third]
    exact write_of_frame_ne _ _ _ unwritten
  · have p2' : ¬ pmlShape.present (state.memory (pmlShape.child
        (pml3Entry state.memory pml4 virtAddr))
          (slot (pml2Index virtAddr))) = true := third ▸ p2
    rw [if_neg p2, tableFrame_nextTable] at unwritten
    rw [missing_indices, if_pos p4, if_pos p3, if_neg p2] at enough
    obtain ⟨table, fresh, free⟩ := List.exists_cons_of_length_pos enough
    have notFresh := tree.avoids path other short reaches
    have links := links_freeFrames small
    rw [free] at notFresh links
    rw [start, free, insert_of_absent p2'
      (links.child table List.mem_cons_self)]
    exact (write_of_frame_ne _ _ _
      (by rintro rfl; exact notFresh List.mem_cons_self)).trans
        (write_of_frame_ne _ _ _ unwritten)

/-- When a table is missing, pages appear if the free frames are stale. -/
theorem stale_page_appears
    {state : MmState} {pml4 virtAddr physAddr : Nat} (flags : BitVec 64)
    (small : state.allocator.nframes < 2 ^ 20)
    (tree : PageTree state.memory pml4 (freeFrames state.allocator))
    (virtAligned : virtAddr % 4096 = 0) (physAligned : physAddr % 4096 = 0)
    (unstopped : Unstopped pmlShape state.memory 0 (tableFrame pml4)
      (indices virtAddr))
    (enough : missing pmlShape state.memory (tableFrame pml4)
        (indices virtAddr) ≤ (freeFrames state.allocator).length)
    (lacking : missing pmlShape state.memory (tableFrame pml4)
        (indices virtAddr) ≠ 0) :
    ¬ MapKeepsOthers pml4 virtAddr physAddr flags state.stale := by
  rintro ⟨after, runs, kept⟩
  obtain ⟨before, index, next, rest, source, split, reaches, absent,
    count⟩ := exists_absent_of_missing unstopped lacking
  obtain ⟨position, different⟩ : ∃ position, position ≠ next := by
    by_cases first : next = 0
    · exact ⟨1, by rw [first]; decide⟩
    · exact ⟨0, Ne.symm first⟩
  have levels : (before ++ index :: position :: rest).length = 4 := by
    have four := congrArg List.length split
    simp only [indices, List.length_append, List.length_cons,
      List.length_nil] at four ⊢
    omega
  obtain ⟨other, path⟩ := exists_indices _ levels
  have elsewhere : pageAddress other ≠ pageAddress virtAddr := by
    intro same
    have equal := indices_congr same
    rw [path, split, List.append_cancel_left_eq] at equal
    exact different (List.cons.inj (List.cons.inj equal).2).1
  obtain ⟨allocator, inserts, -, -⟩ := mapAddrIn_eq_insert
    state.stale flags small virtAligned physAligned
    (Nat.le_trans (Nat.le_of_eq (tree.walk_withContents unstopped _).2)
      enough)
  have memory := congrArg MmState.memory
    (Option.some.inj (runs.symm.trans inserts))
  have finds := lookup_mapped_stale (leafEntry physAddr flags) position
    small tree split reaches absent (count ▸ enough) fun _ => different
  have sameLookup : lookup pmlShape state.stale.memory 0 (tableFrame pml4)
      (before ++ index :: position :: rest) =
        lookup pmlShape state.memory 0 (tableFrame pml4)
          (before ++ index :: position :: rest) :=
    lookup_congr (tree.agree _) (Nat.le_of_eq levels)
  have unmappedBefore : IsError
      (mmuTranslateVia state.stale.memory pml4 other) := by
    rw [isError_iff_absent, path, sameLookup, lookup_of_tableAt reaches,
      lookup, if_neg absent]
    exact ⟨_, rfl⟩
  obtain ⟨depth, unmappedAfter⟩ := (isError_iff_absent _ _ _).mp
    ((kept other elsewhere).2 unmappedBefore)
  rw [memory, path] at unmappedAfter
  exact absurd (finds.symm.trans unmappedAfter) (by simp)

/--
Whatever the free frames contain, `map_addr_in` keeps all other pages exactly
when no table of the walk is missing.  It does so as well when the free frames
are clean, and behind a huge entry when the last table it writes is none of
the tree.
-/
theorem mapKeepsOthers_iff
    {state : MmState} {pml4 virtAddr physAddr : Nat} {flags : BitVec 64}
    (small : state.allocator.nframes < 2 ^ 20)
    (tree : PageTree state.memory pml4 (freeFrames state.allocator))
    (virtAligned : virtAddr % 4096 = 0) (physAligned : physAddr % 4096 = 0)
    (enough : missing pmlShape state.memory (tableFrame pml4)
        (indices virtAddr) ≤ (freeFrames state.allocator).length) :
    (¬ MeetsHuge state.memory pml4 virtAddr →
      ((∀ contents, MapKeepsOthers pml4 virtAddr physAddr flags
          (state.withContents contents)) ↔
        present (pml4Entry state.memory pml4 virtAddr) = true ∧
          present (pml3Entry state.memory pml4 virtAddr) = true ∧
          present (pml2Entry state.memory pml4 virtAddr) = true) ∧
      (Clean pmlShape state.memory (freeFrames state.allocator) →
        MapKeepsOthers pml4 virtAddr physAddr flags state)) ∧
    (MeetsHuge state.memory pml4 virtAddr →
      WritesOutside state.memory pml4 virtAddr →
      MapKeepsOthers pml4 virtAddr physAddr flags state) := by
  refine ⟨fun noHuge => ?_, fun meets outside =>
    mapKeepsOthers_of_writesOutside state flags small tree virtAligned
      physAligned meets enough outside⟩
  have unstopped := unstopped_of_no_huge noHuge
  have walk := tree.walk_withContents unstopped
  have noneMissing : missing pmlShape state.memory (tableFrame pml4)
      (indices virtAddr) = 0 ↔
        present (pml4Entry state.memory pml4 virtAddr) = true ∧
          present (pml3Entry state.memory pml4 virtAddr) = true ∧
          present (pml2Entry state.memory pml4 virtAddr) = true := by
    rw [missing_indices]
    split_ifs with p4 p3 p2 <;> simp [*]
  refine ⟨⟨fun always => noneMissing.mp ?_, fun tables contents => ?_⟩,
    fun clean => mapKeepsOthers_of_usable state flags small tree virtAligned
      physAligned unstopped enough (Or.inr clean)⟩
  · by_contra lacking
    exact stale_page_appears flags small tree virtAligned physAligned
      unstopped enough lacking (always _)
  · refine mapKeepsOthers_of_usable (state.withContents contents) flags
      small (tree.withContents contents) virtAligned physAligned
      (walk contents).1
      (Nat.le_trans (Nat.le_of_eq (walk contents).2) enough) (Or.inl ?_)
    rw [(walk contents).2, noneMissing.mpr tables]

/-- A page that is mapped already keeps its translation. -/
theorem mapKeepsOthers_oneMapped :
    ∃ next, mapAddrIn 0x1000 0x200000 0x5000 0 oneMapped = some next ∧
      mmuTranslateVia oneMapped.memory 0x1000 0x7000 = 0x6000 ∧
      mmuTranslateVia next.memory 0x1000 0x7000 = 0x6000 := by
  have enough : missing pmlShape oneMapped.memory (tableFrame 0x1000)
      (indices 0x200000) ≤ (freeFrames oneMapped.allocator).length :=
    Nat.le_trans (missing_le_length _ _ _)
      (show 3 ≤ (freeFrames oneMapped.allocator).length by decide)
  have mapped : mmuTranslateVia oneMapped.memory 0x1000 0x7000 = 0x6000 := by
    decide
  obtain ⟨next, maps, kept⟩ := ((mapKeepsOthers_iff
    (show oneMapped.allocator.nframes < 2 ^ 20 by decide) oneMapped_tree
    (show 0x200000 % 4096 = 0 by decide) (show 0x5000 % 4096 = 0 by decide)
    enough).1 (oneMapped_noHuge _)).2 oneMapped_clean
  refine ⟨next, maps, mapped, ?_⟩
  exact ((kept 0x7000 (by decide)).1 (by rw [mapped]; decide)).trans mapped

/-- With stale free frames mapping one page below an empty root maps others. -/
theorem mapping_makes_pages_appear :
    ¬ ∀ (state : MmState) (pml4 virtAddr physAddr : Nat)
      (flags : BitVec 64),
      state.allocator.nframes < 2 ^ 20 →
      PageTree state.memory pml4 (freeFrames state.allocator) →
      virtAddr % 4096 = 0 → physAddr % 4096 = 0 →
      missing pmlShape state.memory (tableFrame pml4) (indices virtAddr) ≤
        (freeFrames state.allocator).length →
      MapKeepsOthers pml4 virtAddr physAddr flags state := by
  intro always
  have unstopped := unstopped_of_no_huge (emptyRoot_noHuge 0x7000)
  have enough := Nat.le_trans (Nat.le_of_eq
    (emptyRoot_tree.walk_withContents unstopped fun _ _ =>
      staleEntry (secondFree emptyRoot)).2) (emptyRoot_enough 0x7000)
  have kept := always emptyRoot.stale 0x1000 0x7000 0x5000 0 (by decide)
    (emptyRoot_tree.withContents _) (by decide) (by decide) enough
  refine stale_page_appears 0 (by decide) emptyRoot_tree (by decide)
    (by decide) unstopped (emptyRoot_enough _) ?_ kept
  rw [missing_indices]
  decide

end Kernull.MapFrame
