import Kernull.MapAddr

/-!
# Translating a mapped page

`map_addr_in` stores the physical address itself in the 40-bit field of the
last entry, and every reader shifts that field by `PAGE_SHIFT`.  The page is
therefore translated to `4096` times the address it was mapped to.  Tables
taken from the page allocator are not cleared; when two or more of them are
needed, what they held before decides where the walk of the address ends.
-/

namespace Kernull.MapTranslate

open Kernull.Mm
open Kernull.Pml
open Kernull.PageAlloc
open Kernull.PageTables
open Kernull.PageWalkers
open Kernull.MapAddr
open Kernull.Library.RadixTree

/-- After `map_addr_in` the page of the address translates to the frame. -/
def MapTranslates (pml4 virtAddr physAddr : Nat) (flags : BitVec 64)
    (state : MmState) : Prop :=
  ∃ next, mapAddrIn pml4 virtAddr physAddr flags state = some next ∧
    ∀ offset < 4096,
      mmuTranslateVia next.memory pml4 (virtAddr + offset) =
        physAddr + offset

/-- An address and its page have the same path. -/
theorem indices_add_offset
    {virtAddr offset : Nat} (aligned : virtAddr % 4096 = 0)
    (small : offset < 4096) :
    indices (virtAddr + offset) = indices virtAddr := by
  have samePage : pageAddress (virtAddr + offset) = pageAddress virtAddr := by
    rw [pageAddress_eq, pageAddress_eq]
    omega
  simp only [indices, pml4Index, pml3Index, pml2Index, pml1Index, samePage]

/--
What the page is translated to: the stored address is read as a frame number.
-/
theorem translate_mapped
    {state : MmState} {pml4 virtAddr physAddr : Nat} (flags : BitVec 64)
    (small : state.allocator.nframes < 2 ^ 20)
    (tree : PageTree state.memory pml4 (freeFrames state.allocator))
    (virtAligned : virtAddr % 4096 = 0) (physAligned : physAddr % 4096 = 0)
    (physBound : physAddr < 2 ^ 39)
    (unstopped : Unstopped pmlShape state.memory 0 (tableFrame pml4)
      (indices virtAddr))
    (enough : missing pmlShape state.memory (tableFrame pml4)
        (indices virtAddr) ≤ (freeFrames state.allocator).length)
    (usable : Usable pmlShape state.memory (freeFrames state.allocator)
      (tableFrame pml4) (indices virtAddr) 1) :
    ∃ next, mapAddrIn pml4 virtAddr physAddr flags state = some next ∧
      ∀ offset < 4096,
        mmuTranslateVia next.memory pml4 (virtAddr + offset) =
          physAddr * 4096 + offset := by
  obtain ⟨allocator, runs, -, -⟩ := mapAddrIn_eq_insert state flags small
    virtAligned physAligned enough
  refine ⟨_, runs, fun offset inPage => ?_⟩
  have finalPresent : ∀ entry,
      pmlShape.present (leafEntry physAddr flags entry) = true := by
    intro entry
    simp [pmlShape, leafEntry]
  have levels : (indices virtAddr).length = 3 + 1 := rfl
  obtain ⟨entry, finds⟩ := lookup_insert_self levels unstopped
    tree.unshared tree.avoids (freeFrames_nodup _) (links_freeFrames small)
    usable enough finalPresent
  rw [mmuTranslateVia_eq_lookup, indices_add_offset virtAligned inPage,
    finds]
  have stored : address (leafEntry physAddr flags entry) = physAddr := by
    simp only [leafEntry, address_orFlags, address_setPresent,
      address_setAddress]
    omega
  have lowBits : (virtAddr + offset) &&& offsetMask (0 + 3) = offset := by
    rw [offsetMask, if_neg (by decide), if_neg (by decide), pml1Mask_eq]
    omega
  rw [translationOf, stored, lowBits, page_or_offset inPage]

/-- With usable free frames only the null frame is mapped as intended. -/
theorem mapTranslates_iff_of_usable
    (state : MmState) {pml4 virtAddr physAddr : Nat} (flags : BitVec 64)
    (small : state.allocator.nframes < 2 ^ 20)
    (tree : PageTree state.memory pml4 (freeFrames state.allocator))
    (virtAligned : virtAddr % 4096 = 0) (physAligned : physAddr % 4096 = 0)
    (physBound : physAddr < 2 ^ 39)
    (unstopped : Unstopped pmlShape state.memory 0 (tableFrame pml4)
      (indices virtAddr))
    (enough : missing pmlShape state.memory (tableFrame pml4)
        (indices virtAddr) ≤ (freeFrames state.allocator).length)
    (usable : Usable pmlShape state.memory (freeFrames state.allocator)
      (tableFrame pml4) (indices virtAddr) 1) :
    MapTranslates pml4 virtAddr physAddr flags state ↔ physAddr = 0 := by
  obtain ⟨next, runs, translates⟩ := translate_mapped flags small tree
    virtAligned physAligned physBound unstopped enough usable
  constructor
  · rintro ⟨other, otherRuns, translated⟩
    obtain rfl := Option.some.inj (runs.symm.trans otherRuns)
    have both := (translates 0 (by decide)).symm.trans
      (translated 0 (by decide))
    omega
  · rintro rfl
    exact ⟨next, runs, fun offset inPage => by
      rw [translates offset inPage, Nat.zero_mul]⟩

/-- Behind a stale entry nothing translates to the page of the null frame. -/
theorem translationOf_stale_ne
    {virtAddr frame depth : Nat} (small : frame < 2 ^ 27) :
    translationOf virtAddr (.found depth (staleEntry frame)) ≠ 0 := by
  rw [translationOf, address_staleEntry small]
  intro zero
  have shifted := (Nat.or_eq_zero_iff.mp zero).1
  rw [Nat.shiftLeft_eq] at shifted
  omega

/--
`map_addr_in` maps an address to the frame it is given, whatever the free
frames contain, exactly when that is the null frame and at most the last table
is missing.  If the free frames are clean the tables do not matter.
-/
theorem mapTranslates_iff
    {state : MmState} {pml4 virtAddr physAddr : Nat} {flags : BitVec 64}
    (small : state.allocator.nframes < 2 ^ 20)
    (tree : PageTree state.memory pml4 (freeFrames state.allocator))
    (virtAligned : virtAddr % 4096 = 0) (physAligned : physAddr % 4096 = 0)
    (physBound : physAddr < 2 ^ 39)
    (noHuge : ¬ MeetsHuge state.memory pml4 virtAddr)
    (enough : missing pmlShape state.memory (tableFrame pml4)
        (indices virtAddr) ≤ (freeFrames state.allocator).length) :
    ((∀ contents, MapTranslates pml4 virtAddr physAddr flags
        (state.withContents contents)) ↔
      physAddr = 0 ∧
        present (pml4Entry state.memory pml4 virtAddr) = true ∧
        present (pml3Entry state.memory pml4 virtAddr) = true) ∧
    (Clean pmlShape state.memory (freeFrames state.allocator) →
      (MapTranslates pml4 virtAddr physAddr flags state ↔
        physAddr = 0)) := by
  have unstopped := unstopped_of_no_huge noHuge
  have walk := tree.walk_withContents unstopped
  have iff_of_usable := fun contents usable =>
    mapTranslates_iff_of_usable (state.withContents contents) flags small
      (tree.withContents contents) virtAligned physAligned physBound
      (walk contents).1
      (Nat.le_trans (Nat.le_of_eq (walk contents).2) enough) usable
  have fewMissing : missing pmlShape state.memory (tableFrame pml4)
      (indices virtAddr) ≤ 1 ↔
        present (pml4Entry state.memory pml4 virtAddr) = true ∧
        present (pml3Entry state.memory pml4 virtAddr) = true := by
    rw [missing_indices]
    split_ifs with p4 p3 p2 <;> simp [*]
  refine ⟨⟨fun always => ?_, ?_⟩, fun clean => ?_⟩
  · have null : physAddr = 0 :=
      (iff_of_usable (fun _ _ => 0) (Or.inr (clean_zeroed state))).mp
        (always _)
    refine ⟨null, fewMissing.mp (Nat.le_of_not_lt fun many => ?_)⟩
    obtain ⟨before, index, next, rest, source, split, reaches, absent,
      count⟩ := exists_absent_of_missing unstopped (by omega)
    obtain ⟨after, runs, translates⟩ := always fun _ _ =>
      staleEntry (secondFree state)
    obtain ⟨allocator, inserts, -, -⟩ := mapAddrIn_eq_insert
      state.stale flags small virtAligned physAligned
      (Nat.le_trans (Nat.le_of_eq (walk _).2) enough)
    have memory := congrArg MmState.memory
      (Option.some.inj (runs.symm.trans inserts))
    have finds := lookup_mapped_stale (leafEntry physAddr flags) next small
      tree split reaches absent (count ▸ enough) (by
        rintro rfl
        rw [count, List.length_nil] at many
        omega)
    have atStart := translates 0 (by decide)
    rw [mmuTranslateVia_eq_lookup, Nat.add_zero, null, memory] at atStart
    rw [← split] at finds
    have found : translationOf virtAddr (.found (before.length + 1)
        (staleEntry (secondFree state))) = 0 :=
      (congrArg (translationOf virtAddr) finds).symm.trans atStart
    exact translationOf_stale_ne (secondFree_lt small) found
  · rintro ⟨null, tables⟩ contents
    refine (iff_of_usable contents (Or.inl ?_)).mpr null
    rw [(walk contents).2]
    exact fewMissing.mpr tables
  · exact mapTranslates_iff_of_usable state flags small tree virtAligned
      physAligned physBound unstopped enough (Or.inr clean)

/-- The null frame is mapped as intended below an empty root. -/
theorem mapTranslates_null_frame :
    MapTranslates 0x1000 0x7000 0 0 emptyRoot :=
  ((mapTranslates_iff (by decide) emptyRoot_tree (by decide) (by decide)
    (by decide) (emptyRoot_noHuge _) (emptyRoot_enough _)).2
      (emptyRoot_clean _)).mpr rfl

/-- Mapping 0x7000 to the physical page 0x5000 makes it translate elsewhere. -/
theorem mapped_page_translates_elsewhere :
    ¬ ∀ (state : MmState) (pml4 virtAddr physAddr : Nat)
      (flags : BitVec 64),
      state.allocator.nframes < 2 ^ 20 →
      PageTree state.memory pml4 (freeFrames state.allocator) →
      virtAddr % 4096 = 0 → physAddr % 4096 = 0 → physAddr < 2 ^ 39 →
      ¬ MeetsHuge state.memory pml4 virtAddr →
      missing pmlShape state.memory (tableFrame pml4) (indices virtAddr) ≤
        (freeFrames state.allocator).length →
      MapTranslates pml4 virtAddr physAddr flags state := by
  intro always
  have mapped := always emptyRoot 0x1000 0x7000 0x5000 0 (by decide)
    emptyRoot_tree (by decide) (by decide) (by decide)
    (emptyRoot_noHuge _) (emptyRoot_enough _)
  have null := (mapTranslates_iff_of_usable emptyRoot 0 (by decide)
    emptyRoot_tree (by decide) (by decide) (by decide)
    (unstopped_of_no_huge (emptyRoot_noHuge _)) (emptyRoot_enough _)
    (Or.inr (emptyRoot_clean _))).mp mapped
  exact absurd null (by decide)

end Kernull.MapTranslate
