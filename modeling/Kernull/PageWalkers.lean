import Mathlib.Algebra.GroupWithZero.Nat
import Kernull.PageTables

/-!
# Agreement of the page-table walkers

`mmu_translate_via` stops at huge entries; `mmu_get_page` and
`mmu_get_page_deep` do not look at the `huge` bit and read the mapped memory
of a huge page as a page table.  The three walkers agree on an address exactly
when its walk meets no huge entry, or when reading on through the huge entry
leads back to the very same entry.
-/

namespace Kernull.PageWalkers

open Kernull.Pml
open Kernull.PageTables

section Walk

variable (memory : TableMemory) (root virtAddr : Nat)

/-- The PML4 entry of an address. -/
def pml4Entry : PmlEntry :=
  entryAt memory root (pml4Index virtAddr)

/-- The entry read at the second level. -/
def pml3Entry : PmlEntry :=
  entryAt memory (nextTable (pml4Entry memory root virtAddr))
    (pml3Index virtAddr)

/-- The entry read at the third level if the walk goes on. -/
def pml2Entry : PmlEntry :=
  entryAt memory (nextTable (pml3Entry memory root virtAddr))
    (pml2Index virtAddr)

/-- The entry read at the fourth level if the walk goes on. -/
def pml1Entry : PmlEntry :=
  entryAt memory (nextTable (pml2Entry memory root virtAddr))
    (pml1Index virtAddr)

/-- The walk of the address meets a present huge entry. -/
def MeetsHuge : Prop :=
  present (pml4Entry memory root virtAddr) = true ∧
    present (pml3Entry memory root virtAddr) = true ∧
    (huge (pml3Entry memory root virtAddr) = true ∨
      (present (pml2Entry memory root virtAddr) = true ∧
        huge (pml2Entry memory root virtAddr) = true))

/--
Reading on through the huge entry leads back to it: the table behind it is the
table it lies in, at the same index.
-/
def HugeReread : Prop :=
  (huge (pml3Entry memory root virtAddr) = true ∧
    present (pml2Entry memory root virtAddr) = true ∧
    nextTable (pml2Entry memory root virtAddr) =
      nextTable (pml4Entry memory root virtAddr) ∧
    pml1Index virtAddr = pml3Index virtAddr) ∨
  (huge (pml3Entry memory root virtAddr) = false ∧
    nextTable (pml2Entry memory root virtAddr) =
      nextTable (pml3Entry memory root virtAddr) ∧
    pml1Index virtAddr = pml2Index virtAddr)

/-- The entry whose address field `mmu_translate_via` uses, if any. -/
def translationEntry : Option EntryPointer :=
  if !present (pml4Entry memory root virtAddr) then none
  else if !present (pml3Entry memory root virtAddr) then none
  else if huge (pml3Entry memory root virtAddr) then
    some ⟨nextTable (pml4Entry memory root virtAddr), pml3Index virtAddr⟩
  else if !present (pml2Entry memory root virtAddr) then none
  else if huge (pml2Entry memory root virtAddr) then
    some ⟨nextTable (pml3Entry memory root virtAddr), pml2Index virtAddr⟩
  else if !present (pml1Entry memory root virtAddr) then none
  else some ⟨nextTable (pml2Entry memory root virtAddr), pml1Index virtAddr⟩

/-- The walkers agree on an address. -/
structure WalkersAgree : Prop where
  deep : (mmuGetPageDeep memory root virtAddr).result = 0 ↔
    ¬ IsError (mmuTranslateVia memory root virtAddr)
  page : (∃ pointer, mmuGetPage memory root virtAddr = some pointer ∧
      present (pointer.entry memory) = true) ↔
    ¬ IsError (mmuTranslateVia memory root virtAddr)
  entry : ¬ IsError (mmuTranslateVia memory root virtAddr) →
    mmuGetPage memory root virtAddr =
      translationEntry memory root virtAddr

end Walk

section Outcomes

variable {memory : TableMemory} {root virtAddr : Nat}

/-- `mmu_translate_via` in terms of the entries of the walk. -/
theorem mmuTranslateVia_eq :
    mmuTranslateVia memory root virtAddr =
      if !present (pml4Entry memory root virtAddr) then unmapped 1
      else if !present (pml3Entry memory root virtAddr) then unmapped 2
      else if huge (pml3Entry memory root virtAddr) then
        (address (pml3Entry memory root virtAddr) <<< 12) |||
          (virtAddr &&& pml3Mask)
      else if !present (pml2Entry memory root virtAddr) then unmapped 3
      else if huge (pml2Entry memory root virtAddr) then
        (address (pml2Entry memory root virtAddr) <<< 12) |||
          (virtAddr &&& pml2Mask)
      else if !present (pml1Entry memory root virtAddr) then unmapped 4
      else
        (address (pml1Entry memory root virtAddr) <<< 12) |||
          (virtAddr &&& pml1Mask) :=
  rfl

/-- `mmu_get_page` in terms of the entries of the walk. -/
theorem mmuGetPage_eq :
    mmuGetPage memory root virtAddr =
      if !present (pml4Entry memory root virtAddr) then none
      else if !present (pml3Entry memory root virtAddr) then none
      else if !present (pml2Entry memory root virtAddr) then none
      else some ⟨nextTable (pml2Entry memory root virtAddr),
        pml1Index virtAddr⟩ :=
  rfl

/-- The result of `mmu_get_page_deep` in terms of the entries. -/
theorem mmuGetPageDeep_result :
    (mmuGetPageDeep memory root virtAddr).result =
      if !present (pml4Entry memory root virtAddr) then 1
      else if !present (pml3Entry memory root virtAddr) then 1
      else if !present (pml2Entry memory root virtAddr) then 1
      else if !present (pml1Entry memory root virtAddr) then 1
      else 0 := by
  rw [mmuGetPageDeep]
  simp only [apply_ite DeepResult.result]
  rfl

/-- `mmu_translate_via` succeeds exactly when an entry determines its result. -/
theorem translation_iff :
    ¬ IsError (mmuTranslateVia memory root virtAddr) ↔
      (translationEntry memory root virtAddr).isSome = true := by
  have small3 : virtAddr &&& pml3Mask < 2 ^ 30 :=
    Nat.and_lt_two_pow _ (by decide)
  have small2 : virtAddr &&& pml2Mask < 2 ^ 30 :=
    Nat.and_lt_two_pow _ (by decide)
  have small1 : virtAddr &&& pml1Mask < 2 ^ 30 :=
    Nat.and_lt_two_pow _ (by decide)
  rw [mmuTranslateVia_eq, translationEntry]
  split_ifs <;>
    simp [isError_unmapped, not_isError_or _ small3, not_isError_or _ small2,
      not_isError_or _ small1]

/-- The entry `mmu_get_page` points to is the fourth of the walk. -/
theorem getPage_present_iff :
    (∃ pointer, mmuGetPage memory root virtAddr = some pointer ∧
        present (pointer.entry memory) = true) ↔
      (mmuGetPageDeep memory root virtAddr).result = 0 := by
  rw [mmuGetPage_eq, mmuGetPageDeep_result]
  have last : (EntryPointer.mk (nextTable (pml2Entry memory root virtAddr))
      (pml1Index virtAddr)).entry memory =
        pml1Entry memory root virtAddr := rfl
  split_ifs with _ _ _ absent
  · simp
  · simp
  · simp
  · simpa [last] using absent
  · simpa [last] using absent

/-- Reading on to the huge entry itself finds all four entries present. -/
theorem deep_of_reread
    (meets : MeetsHuge memory root virtAddr)
    (reread : HugeReread memory root virtAddr) :
    mmuGetPage memory root virtAddr = translationEntry memory root virtAddr ∧
      (mmuGetPageDeep memory root virtAddr).result = 0 := by
  obtain ⟨p4, p3, someHuge⟩ := meets
  rcases reread with ⟨h3, p2, sameTable, sameIndex⟩ |
    ⟨h3, sameTable, sameIndex⟩
  · have again : pml1Entry memory root virtAddr =
        pml3Entry memory root virtAddr := by
      rw [pml1Entry, sameTable, sameIndex, pml3Entry]
    constructor
    · simp [mmuGetPage_eq, translationEntry, p4, p3, h3, p2, sameTable,
        sameIndex]
    · simp [mmuGetPageDeep_result, p4, p3, p2, again]
  · obtain ⟨p2, h2⟩ := someHuge.resolve_left (by simp [h3])
    have again : pml1Entry memory root virtAddr =
        pml2Entry memory root virtAddr := by
      rw [pml1Entry, sameTable, sameIndex, pml2Entry]
    constructor
    · simp [mmuGetPage_eq, translationEntry, p4, p3, h3, p2, h2, sameTable,
        sameIndex]
    · simp [mmuGetPageDeep_result, p4, p3, p2, again]

/-- A huge entry that `mmu_get_page` points to is read again. -/
theorem reread_of_getPage
    (meets : MeetsHuge memory root virtAddr)
    (same : mmuGetPage memory root virtAddr =
      translationEntry memory root virtAddr) :
    HugeReread memory root virtAddr := by
  obtain ⟨p4, p3, someHuge⟩ := meets
  rw [mmuGetPage_eq, translationEntry] at same
  by_cases h3 : huge (pml3Entry memory root virtAddr) = true
  · by_cases p2 : present (pml2Entry memory root virtAddr) = true
    · simp only [p4, p3, h3, p2, Bool.not_true, Bool.false_eq_true, if_false,
        if_true, Option.some.injEq, EntryPointer.mk.injEq] at same
      exact Or.inl ⟨h3, p2, same⟩
    · simp [p4, p3, h3, p2] at same
  · obtain ⟨p2, h2⟩ := someHuge.resolve_left h3
    rw [Bool.not_eq_true] at h3
    simp only [p4, p3, h3, p2, h2, Bool.not_true, Bool.false_eq_true,
      if_false, if_true, Option.some.injEq, EntryPointer.mk.injEq] at same
    exact Or.inr ⟨h3, same⟩

/-- Without a huge entry the walkers read the same entries. -/
theorem deep_of_no_huge
    (noHuge : ¬ MeetsHuge memory root virtAddr) :
    ((mmuGetPageDeep memory root virtAddr).result = 0 ↔
        (translationEntry memory root virtAddr).isSome = true) ∧
      ((translationEntry memory root virtAddr).isSome = true →
        mmuGetPage memory root virtAddr =
          translationEntry memory root virtAddr) := by
  rw [mmuGetPageDeep_result, mmuGetPage_eq, translationEntry]
  by_cases p4 : present (pml4Entry memory root virtAddr) = true
  · by_cases p3 : present (pml3Entry memory root virtAddr) = true
    · have h3 : huge (pml3Entry memory root virtAddr) = false :=
        Bool.eq_false_iff.mpr fun h3 => noHuge ⟨p4, p3, Or.inl h3⟩
      by_cases p2 : present (pml2Entry memory root virtAddr) = true
      · have h2 : huge (pml2Entry memory root virtAddr) = false :=
          Bool.eq_false_iff.mpr fun h2 => noHuge ⟨p4, p3, Or.inr ⟨p2, h2⟩⟩
        by_cases p1 : present (pml1Entry memory root virtAddr) = true
        · simp [p4, p3, h3, p2, h2, p1]
        · simp [p4, p3, h3, p2, h2, p1]
      · simp [p4, p3, h3, p2]
    · simp [p4, p3]
  · simp [p4]

/-- A huge entry that is met determines a translation. -/
theorem translated_of_huge
    (meets : MeetsHuge memory root virtAddr) :
    (translationEntry memory root virtAddr).isSome = true := by
  obtain ⟨p4, p3, someHuge⟩ := meets
  rw [translationEntry]
  by_cases h3 : huge (pml3Entry memory root virtAddr) = true
  · simp [p4, p3, h3]
  · obtain ⟨p2, h2⟩ := someHuge.resolve_left h3
    simp [p4, p3, h3, p2, h2]

end Outcomes

/--
The walkers agree on an address exactly when its walk meets no huge entry or
reading on leads back to the huge entry.
-/
theorem walkersAgree_iff
    (memory : TableMemory) (root virtAddr : Nat) :
    WalkersAgree memory root virtAddr ↔
      (MeetsHuge memory root virtAddr →
        HugeReread memory root virtAddr) := by
  constructor
  · intro agree meets
    exact reread_of_getPage meets
      (agree.entry (translation_iff.mpr (translated_of_huge meets)))
  · intro condition
    by_cases meets : MeetsHuge memory root virtAddr
    · obtain ⟨same, deep⟩ := deep_of_reread meets (condition meets)
      have translated := translation_iff.mpr (translated_of_huge meets)
      exact ⟨iff_of_true deep translated,
        iff_of_true (getPage_present_iff.mpr deep) translated,
        fun _ => same⟩
    · obtain ⟨deep, same⟩ := deep_of_no_huge meets
      rw [← translation_iff] at deep same
      exact ⟨deep, getPage_present_iff.trans deep, same⟩

/-- The numerals among the slots of a table. -/
local instance neZero_slots : NeZero 512 :=
  ⟨by decide⟩

/-- A tree with one 2 MiB page, rooted at frame 1. -/
def hugePageTree : TableMemory := fun frame index =>
  if frame = 1 ∧ index = 0 then 0x2001
  else if frame = 2 ∧ index = 0 then 0x3001
  else if frame = 3 ∧ index = 0 then 0x400081
  else 0

/--
The first byte of the 2 MiB page translates, but `mmu_get_page_deep` reads
the page as a table and reports it as not mapped.
-/
theorem walkers_disagree_on_huge_page :
    ∃ memory root virtAddr, ¬ WalkersAgree memory root virtAddr := by
  refine ⟨hugePageTree, 0x1000, 0, fun agree => ?_⟩
  have deep := agree.deep
  revert deep
  decide

end Kernull.PageWalkers
