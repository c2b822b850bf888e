import Kernull.MmuInit

/-!
# The initial address space

What `mmu_translate` returns after `mmu_init`: low memory up to the end that
`mmu_init` computes is mapped to itself but for the null page, the first 64 GiB
of physical memory are mapped at `HIGH_MAP_REGION`, the metadata of the page
allocator is mapped at `KERNEL_HEAP_START`, and nothing else is mapped.
-/

namespace Kernull.InitialAddressSpace

open Kernull.Mm
open Kernull.Pml
open Kernull.PageAlloc
open Kernull.PageTables
open Kernull.PageWalkers
open Kernull.MapAddr
open Kernull.MmuInit
open Kernull.Library.RadixTree

/-- The bits of an address that are translated. -/
def realBits (virtAddr : Nat) : Nat :=
  virtAddr % 2 ^ 48

/-- The first level at which the entry of an unmapped address is absent. -/
def absentLevel (blocks virtAddr : Nat) : Nat :=
  if pml4Index virtAddr = 0 then
    if pml3Index virtAddr ≠ 0 then 2
    else if blocks ≤ pml2Index virtAddr then 3 else 4
  else if pml4Index virtAddr = 510 then
    if pml3Index virtAddr ≠ 0 then 2
    else if 3 ≤ pml2Index virtAddr then 3 else 4
  else if pml4Index virtAddr = 511 then 2
  else 1

/-- The entries of the walk are present up to a level, where one is absent. -/
def FirstAbsentAt (memory : TableMemory) (root virtAddr : Nat) :
    Nat → Prop
  | 1 => present (pml4Entry memory root virtAddr) = false
  | 2 => present (pml4Entry memory root virtAddr) = true ∧
      present (pml3Entry memory root virtAddr) = false
  | 3 => present (pml4Entry memory root virtAddr) = true ∧
      present (pml3Entry memory root virtAddr) = true ∧
      huge (pml3Entry memory root virtAddr) = false ∧
      present (pml2Entry memory root virtAddr) = false
  | 4 => present (pml4Entry memory root virtAddr) = true ∧
      present (pml3Entry memory root virtAddr) = true ∧
      huge (pml3Entry memory root virtAddr) = false ∧
      present (pml2Entry memory root virtAddr) = true ∧
      huge (pml2Entry memory root virtAddr) = false ∧
      present (pml1Entry memory root virtAddr) = false
  | _ => False

/-- The translations of the initial address space. -/
structure AddressSpace (memory : TableMemory) (root : Nat)
    (blocks firstFree pages : Nat) : Prop where
  low : ∀ virtAddr, 4096 ≤ realBits virtAddr →
    realBits virtAddr < blocks * 2 ^ 21 →
    mmuTranslateVia memory root virtAddr = realBits virtAddr
  high : ∀ virtAddr physAddr, physAddr < 2 ^ 36 →
    realBits virtAddr = realBits (highMapRegion + physAddr) →
    mmuTranslateVia memory root virtAddr = physAddr
  heap : ∀ virtAddr offset, offset < pages * 4096 →
    realBits virtAddr = realBits (kernelHeapStart + offset) →
    mmuTranslateVia memory root virtAddr = firstFree + offset
  absent : ∀ virtAddr,
    ¬ (4096 ≤ realBits virtAddr ∧ realBits virtAddr < blocks * 2 ^ 21) →
    (∀ physAddr < 2 ^ 36,
      realBits virtAddr ≠ realBits (highMapRegion + physAddr)) →
    (∀ offset < pages * 4096,
      realBits virtAddr ≠ realBits (kernelHeapStart + offset)) →
    mmuTranslateVia memory root virtAddr =
        unmapped (absentLevel blocks virtAddr) ∧
      FirstAbsentAt memory root virtAddr (absentLevel blocks virtAddr)

/-! ## Translations from entries -/

section Translations

variable {memory : TableMemory} {root virtAddr : Nat}

/-- The error value names the first absent level. -/
theorem translate_of_firstAbsentAt
    {level : Nat} (absent : FirstAbsentAt memory root virtAddr level) :
    mmuTranslateVia memory root virtAddr = unmapped level := by
  rw [mmuTranslateVia_eq]
  rcases level with _ | _ | _ | _ | _ | _
  · exact absurd absent id
  · rw [FirstAbsentAt] at absent
    simp [absent]
  · obtain ⟨p4, p3⟩ := absent
    simp [p4, p3]
  · obtain ⟨p4, p3, h3, p2⟩ := absent
    simp [p4, p3, h3, p2]
  · obtain ⟨p4, p3, h3, p2, h2, p1⟩ := absent
    simp [p4, p3, h3, p2, h2, p1]
  · exact absurd absent id

/-- The translation through a 2 MiB page. -/
theorem translate_largePage
    (p4 : present (pml4Entry memory root virtAddr) = true)
    (p3 : present (pml3Entry memory root virtAddr) = true)
    (h3 : huge (pml3Entry memory root virtAddr) = false)
    (p2 : present (pml2Entry memory root virtAddr) = true)
    (h2 : huge (pml2Entry memory root virtAddr) = true) :
    mmuTranslateVia memory root virtAddr =
      (address (pml2Entry memory root virtAddr) <<< 12) |||
        (virtAddr &&& pml2Mask) := by
  rw [mmuTranslateVia_eq]
  simp [p4, p3, h3, p2, h2]

/-- The walk leads to a table of 4 KiB pages. -/
structure ReachesPml1 (memory : TableMemory) (root virtAddr : Nat) : Prop where
  pml4 : present (pml4Entry memory root virtAddr) = true
  pml3 : present (pml3Entry memory root virtAddr) = true
  pml3Table : huge (pml3Entry memory root virtAddr) = false
  pml2 : present (pml2Entry memory root virtAddr) = true
  pml2Table : huge (pml2Entry memory root virtAddr) = false

/-- An entry that is absent in that table. -/
theorem ReachesPml1.firstAbsentAt
    (reaches : ReachesPml1 memory root virtAddr)
    (absent : present (pml1Entry memory root virtAddr) = false) :
    FirstAbsentAt memory root virtAddr 4 :=
  ⟨reaches.pml4, reaches.pml3, reaches.pml3Table, reaches.pml2,
    reaches.pml2Table, absent⟩

/-- The translation through a 4 KiB page. -/
theorem ReachesPml1.translate
    (reaches : ReachesPml1 memory root virtAddr)
    (p1 : present (pml1Entry memory root virtAddr) = true) :
    mmuTranslateVia memory root virtAddr =
      address (pml1Entry memory root virtAddr) * 4096 + virtAddr % 4096 := by
  have offset : virtAddr % 4096 < 4096 := Nat.mod_lt _ (by decide)
  rw [mmuTranslateVia_eq, ← page_or_offset offset, ← pml1Mask_eq]
  simp [reaches.pml4, reaches.pml3, reaches.pml3Table, reaches.pml2,
    reaches.pml2Table, p1]

/-- The translation through a page that the kernel may access. -/
theorem ReachesPml1.translate_frame
    (reaches : ReachesPml1 memory root virtAddr) {frame : Nat}
    (frameBound : frame < 2 ^ 40)
    (entry : pml1Entry memory root virtAddr =
      BitVec.ofNat 64 (frame * 4096 ||| kernelPmlAccess)) :
    mmuTranslateVia memory root virtAddr =
      frame * 4096 + virtAddr % 4096 := by
  have flags : kernelPmlAccess < 4096 := by decide
  have isPresent : present (pml1Entry memory root virtAddr) = true := by
    rw [entry]
    exact present_frame_or_access frameBound flags (by decide)
  rw [reaches.translate isPresent, entry,
    address_frame_or_access frameBound flags]

end Translations

/-! ## Indices -/

theorem pml4Index_eq (virtAddr : Nat) :
    pml4Index virtAddr = realBits virtAddr / 2 ^ 39 := by
  rw [pml4Index, tableIndex_eq, pageAddress_eq, realBits]
  omega

theorem pml3Index_eq (virtAddr : Nat) :
    pml3Index virtAddr = realBits virtAddr / 2 ^ 30 % 512 := by
  rw [pml3Index, tableIndex_eq, pageAddress_eq, realBits]
  omega

theorem pml2Index_eq (virtAddr : Nat) :
    pml2Index virtAddr = realBits virtAddr / 2 ^ 21 % 512 := by
  rw [pml2Index, tableIndex_eq, pageAddress_eq, realBits]
  omega

theorem pml1Index_eq_realBits (virtAddr : Nat) :
    pml1Index virtAddr = realBits virtAddr / 2 ^ 12 % 512 := by
  rw [pml1Index_eq, pageAddress_eq, realBits]
  omega

section Walk

variable {layout : Layout} {memory : TableMemory}
  {blocks firstFree pages : Nat}

/-- The static tables hold what `mmu_init` left there. -/
def InitialTables (layout : Layout) (memory : TableMemory)
    (blocks firstFree pages : Nat) : Prop :=
  ∀ table i, memory (layout.frame table) i =
    BitVec.ofNat 64 (initialValue layout blocks firstFree pages table i)

/-- A static table read by its index. -/
theorem entryAt_static
    (initial : InitialTables layout memory blocks firstFree pages)
    {pointer index : Nat} {table : StaticTable}
    (points : tableFrame pointer = layout.frame table)
    (inTable : index < 512) :
    entryAt memory pointer index =
      BitVec.ofNat 64
        (initialValue layout blocks firstFree pages table index) := by
  rw [entryAt, points, initial, slot_val, Nat.mod_eq_of_lt inTable]

/-- A link leads to the table it was made for. -/
theorem tableFrame_link
    (table : StaticTable) {access : Nat} (flags : access < 4096) :
    tableFrame (nextTable (BitVec.ofNat 64
      (layout.addressOf table ||| access))) = layout.frame table := by
  have low := layout.low table
  rw [tableFrame_nextTable, Layout.addressOf,
    address_frame_or_access (by omega) flags]
  omega

theorem tableFrame_root :
    tableFrame (mmuToVirt (layout.addressOf .highBasePml4)) =
      layout.frame .highBasePml4 := by
  have low := layout.low .highBasePml4
  have region : highMapRegion % 2 ^ 39 = 0 := by decide
  rw [tableFrame_eq, mmuToVirt, Nat.or_mod_two_pow, region, Nat.or_zero,
    Layout.addressOf]
  omega

theorem present_link
    (table : StaticTable) {access : Nat} (flags : access < 4096)
    (odd : access % 2 = 1) :
    present (BitVec.ofNat 64 (layout.addressOf table ||| access)) = true := by
  have low := layout.low table
  exact present_frame_or_access (by omega) flags odd

theorem huge_link
    (table : StaticTable) {access : Nat} (flags : access < 128) :
    huge (BitVec.ofNat 64 (layout.addressOf table ||| access)) = false := by
  have low := layout.low table
  rw [Layout.addressOf, huge_frame_or_access (by omega) (by omega),
    decide_eq_false_iff_not]
  omega

/-- An entry that links a static table. -/
def IsLink (layout : Layout) (entry : PmlEntry) : Prop :=
  ∃ table access, access % 2 = 1 ∧ access < 128 ∧
    entry = BitVec.ofNat 64 (layout.addressOf table ||| access)

theorem IsLink.present
    {entry : PmlEntry} (isLink : IsLink layout entry) :
    Pml.present entry = true := by
  rcases isLink with ⟨table, access, odd, small, links⟩
  rw [links]
  exact present_link table (by omega) odd

theorem IsLink.table
    {entry : PmlEntry} (isLink : IsLink layout entry) :
    huge entry = false := by
  rcases isLink with ⟨table, access, odd, small, links⟩
  rw [links]
  exact huge_link table small

/-- Three links lead to a table of pages. -/
theorem reachesPml1_of_links
    {root virtAddr : Nat}
    (pml4 : IsLink layout (pml4Entry memory root virtAddr))
    (pml3 : IsLink layout (pml3Entry memory root virtAddr))
    (pml2 : IsLink layout (pml2Entry memory root virtAddr)) :
    ReachesPml1 memory root virtAddr where
  pml4 := pml4.present
  pml3 := pml3.present
  pml3Table := pml3.table
  pml2 := pml2.present
  pml2Table := pml2.table

/-- The entry read behind a link. -/
theorem entryAt_link
    (initial : InitialTables layout memory blocks firstFree pages)
    {entry : PmlEntry} {table : StaticTable} {access index : Nat}
    (links : entry = BitVec.ofNat 64 (layout.addressOf table ||| access))
    (flags : access < 4096) (inTable : index < 512) :
    entryAt memory (nextTable entry) index =
      BitVec.ofNat 64
        (initialValue layout blocks firstFree pages table index) := by
  rw [links]
  exact entryAt_static initial (tableFrame_link table flags) inTable

theorem tableIndex_lt (pageAddr shift : Nat) :
    tableIndex pageAddr shift < 512 := by
  rw [tableIndex_eq]
  omega

theorem pml1Index_lt (virtAddr : Nat) : pml1Index virtAddr < 512 := by
  rw [pml1Index_eq]
  omega

variable {virtAddr : Nat}

/-- The root entry of an address. -/
theorem pml4Entry_initial
    (initial : InitialTables layout memory blocks firstFree pages) :
    pml4Entry memory (mmuToVirt (layout.addressOf .highBasePml4)) virtAddr =
      BitVec.ofNat 64 (initialValue layout blocks firstFree pages
        .highBasePml4 (pml4Index virtAddr)) :=
  entryAt_static initial tableFrame_root (tableIndex_lt _ _)

/-! ## The three regions -/

/-- Addresses under none of the three root entries are not mapped. -/
theorem outside_regions
    (initial : InitialTables layout memory blocks firstFree pages)
    (notLow : pml4Index virtAddr ≠ 0) (notHeap : pml4Index virtAddr ≠ 510)
    (notHigh : pml4Index virtAddr ≠ 511) :
    FirstAbsentAt memory (mmuToVirt (layout.addressOf .highBasePml4))
      virtAddr 1 := by
  rw [FirstAbsentAt, pml4Entry_initial initial]
  simp only [initialValue, notLow, notHeap, notHigh, if_false]
  exact present_zero

section High

variable (initial : InitialTables layout memory blocks firstFree pages)
  (inHigh : pml4Index virtAddr = 511)

include initial inHigh

theorem pml4Entry_high :
    pml4Entry memory (mmuToVirt (layout.addressOf .highBasePml4)) virtAddr =
      BitVec.ofNat 64 (layout.addressOf .highBasePml3 |||
        kernelPmlAccess) := by
  rw [pml4Entry_initial initial, inHigh]
  rfl

theorem pml3Entry_high :
    pml3Entry memory (mmuToVirt (layout.addressOf .highBasePml4)) virtAddr =
      BitVec.ofNat 64 (initialValue layout blocks firstFree pages
        .highBasePml3 (pml3Index virtAddr)) :=
  entryAt_link initial (pml4Entry_high initial inHigh) (by decide)
    (tableIndex_lt _ _)

/-- Behind the first 64 GiB nothing is mapped in the high region. -/
theorem high_absent (behind : 64 ≤ pml3Index virtAddr) :
    FirstAbsentAt memory (mmuToVirt (layout.addressOf .highBasePml4))
      virtAddr 2 := by
  constructor
  · rw [pml4Entry_high initial inHigh]
    exact present_link _ (by decide) (by decide)
  · rw [pml3Entry_high initial inHigh, initialValue,
      dif_neg (Nat.not_lt.mpr behind)]
    exact present_zero

/-- The large pages of the high region map physical memory in order. -/
theorem high_mapped (mapped : pml3Index virtAddr < 64) :
    mmuTranslateVia memory (mmuToVirt (layout.addressOf .highBasePml4))
      virtAddr = realBits virtAddr % 2 ^ 39 := by
  have p4 := pml4Entry_high initial inHigh
  have p3 := pml3Entry_high initial inHigh
  rw [initialValue, dif_pos mapped] at p3
  have p2 : pml2Entry memory (mmuToVirt (layout.addressOf .highBasePml4))
      virtAddr = BitVec.ofNat 64
        (((pml3Index virtAddr * 2 ^ 18 + pml2Index virtAddr * 2 ^ 9) *
          4096) ||| 0x83) := by
    refine (entryAt_link initial p3 (by decide) (tableIndex_lt _ _)).trans ?_
    rw [initialValue, Nat.or_assoc, Nat.add_mul, Nat.mul_assoc,
      Nat.mul_assoc]
    rfl
  have frameBound : pml3Index virtAddr * 2 ^ 18 +
      pml2Index virtAddr * 2 ^ 9 < 2 ^ 40 := by
    have index := tableIndex_lt (pageAddress virtAddr) 9
    rw [← pml2Index] at index
    omega
  have stored := address_frame_or_access frameBound
    (show 0x83 < 4096 by decide)
  have isPresent := present_frame_or_access frameBound
    (show 0x83 < 4096 by decide) (by decide)
  have isHuge := huge_frame_or_access frameBound
    (show 0x83 < 4096 by decide)
  rw [← p2] at stored isPresent isHuge
  rw [translate_largePage
    (by rw [p4]; exact present_link _ (by decide) (by decide))
    (by rw [p3]; exact present_link _ (by decide) (by decide))
    (by rw [p3]; exact huge_link _ (by decide)) isPresent
    (isHuge.trans (by decide)), stored]
  have offset : virtAddr % 2 ^ 21 < 2 ^ 21 := Nat.mod_lt _ (by decide)
  have lowBits : virtAddr &&& pml2Mask = virtAddr % 2 ^ 21 :=
    Nat.and_two_pow_sub_one_eq_mod virtAddr 21
  have shifted : (pml3Index virtAddr * 2 ^ 18 +
      pml2Index virtAddr * 2 ^ 9) <<< 12 =
        (pml3Index virtAddr * 2 ^ 9 + pml2Index virtAddr) <<< 21 := by
    rw [Nat.shiftLeft_eq, Nat.shiftLeft_eq]
    omega
  rw [lowBits, shifted, or_offset offset, pml3Index_eq, pml2Index_eq,
    realBits]
  rw [pml4Index_eq, realBits] at inHigh
  omega

end High

section Low

variable (initial : InitialTables layout memory blocks firstFree pages)
  (inLow : pml4Index virtAddr = 0)

include initial inLow

theorem pml4Entry_low :
    pml4Entry memory (mmuToVirt (layout.addressOf .highBasePml4)) virtAddr =
      BitVec.ofNat 64 (layout.addressOf (.lowBasePml4s 0) |||
        userPmlAccess) := by
  rw [pml4Entry_initial initial, inLow]
  rfl

theorem pml3Entry_low :
    pml3Entry memory (mmuToVirt (layout.addressOf .highBasePml4)) virtAddr =
      BitVec.ofNat 64 (initialValue layout blocks firstFree pages
        (.lowBasePml4s 0) (pml3Index virtAddr)) :=
  entryAt_link initial (pml4Entry_low initial inLow) (by decide)
    (tableIndex_lt _ _)

theorem low_absent_pml3 (behind : pml3Index virtAddr ≠ 0) :
    FirstAbsentAt memory (mmuToVirt (layout.addressOf .highBasePml4))
      virtAddr 2 := by
  constructor
  · rw [pml4Entry_low initial inLow]
    exact present_link _ (by decide) (by decide)
  · rw [pml3Entry_low initial inLow, initialValue, if_pos rfl,
      if_neg behind]
    exact present_zero

variable (first : pml3Index virtAddr = 0)

include first

theorem pml3Entry_low_first :
    pml3Entry memory (mmuToVirt (layout.addressOf .highBasePml4)) virtAddr =
      BitVec.ofNat 64 (layout.addressOf (.lowBasePml4s 1) |||
        userPmlAccess) := by
  rw [pml3Entry_low initial inLow, first]
  rfl

theorem pml2Entry_low :
    pml2Entry memory (mmuToVirt (layout.addressOf .highBasePml4)) virtAddr =
      BitVec.ofNat 64 (initialValue layout blocks firstFree pages
        (.lowBasePml4s 1) (pml2Index virtAddr)) :=
  entryAt_link initial (pml3Entry_low_first initial inLow first) (by decide)
    (tableIndex_lt _ _)

theorem low_absent_pml2 (behind : blocks ≤ pml2Index virtAddr) :
    FirstAbsentAt memory (mmuToVirt (layout.addressOf .highBasePml4))
      virtAddr 3 := by
  refine ⟨?_, ?_, ?_, ?_⟩
  · rw [pml4Entry_low initial inLow]
    exact present_link _ (by decide) (by decide)
  · rw [pml3Entry_low_first initial inLow first]
    exact present_link _ (by decide) (by decide)
  · rw [pml3Entry_low_first initial inLow first]
    exact huge_link _ (by decide)
  · rw [pml2Entry_low initial inLow first, initialValue,
      if_neg (by decide), if_neg (Nat.not_lt.mpr behind)]
    exact present_zero

variable (inBlocks : pml2Index virtAddr < blocks)

include inBlocks

theorem pml2Entry_low_mapped :
    pml2Entry memory (mmuToVirt (layout.addressOf .highBasePml4)) virtAddr =
      BitVec.ofNat 64
        (layout.addressOf
          (.lowBasePml2s (Fin.ofNat 32 (pml2Index virtAddr))) |||
          kernelPmlAccess) := by
  rw [pml2Entry_low initial inLow first, initialValue, if_neg (by decide),
    if_pos inBlocks]

theorem pml1Entry_low (bound : blocks ≤ 32) :
    pml1Entry memory (mmuToVirt (layout.addressOf .highBasePml4)) virtAddr =
      BitVec.ofNat 64
        (if pml2Index virtAddr = 0 ∧ pml1Index virtAddr = 0 then 0
          else ((pml2Index virtAddr * 512 + pml1Index virtAddr) * 4096) |||
            kernelPmlAccess) := by
  have inArray : (Fin.ofNat 32 (pml2Index virtAddr)).val =
      pml2Index virtAddr := by
    change pml2Index virtAddr % 32 = _
    omega
  have isFirst : Fin.ofNat 32 (pml2Index virtAddr) = 0 ↔
      pml2Index virtAddr = 0 := by
    rw [Fin.ext_iff, inArray]
    rfl
  have value : largePageSize * pml2Index virtAddr +
      pageSize * pml1Index virtAddr =
        (pml2Index virtAddr * 512 + pml1Index virtAddr) * 4096 := by
    simp only [largePageSize, pageSize]
    omega
  refine (entryAt_link initial
    (pml2Entry_low_mapped initial inLow first inBlocks) (by decide)
    (pml1Index_lt _)).trans (congrArg _ ?_)
  rw [initialValue, inArray, value]
  simp only [isFirst]
  by_cases null : pml2Index virtAddr = 0 ∧ pml1Index virtAddr = 0
  · rw [if_pos null, if_neg (fun both => both.2 null)]
  · rw [if_neg null, if_pos ⟨inBlocks, null⟩]

/-- The walk of a low address below the end of the blocks. -/
theorem low_walk :
    ReachesPml1 memory (mmuToVirt (layout.addressOf .highBasePml4))
      virtAddr := by
  apply reachesPml1_of_links
  · exact ⟨_, _, by decide, by decide, pml4Entry_low initial inLow⟩
  · exact ⟨_, _, by decide, by decide,
      pml3Entry_low_first initial inLow first⟩
  · exact ⟨_, _, by decide, by decide,
      pml2Entry_low_mapped initial inLow first inBlocks⟩

/-- The null page is not mapped. -/
theorem low_absent_null
    (bound : blocks ≤ 32)
    (null : pml2Index virtAddr = 0 ∧ pml1Index virtAddr = 0) :
    FirstAbsentAt memory (mmuToVirt (layout.addressOf .highBasePml4))
      virtAddr 4 := by
  apply (low_walk initial inLow first inBlocks).firstAbsentAt
  rw [pml1Entry_low initial inLow first inBlocks bound, if_pos null]
  exact present_zero

/-- Low addresses translate to themselves. -/
theorem low_mapped
    (bound : blocks ≤ 32)
    (notNull : ¬ (pml2Index virtAddr = 0 ∧ pml1Index virtAddr = 0)) :
    mmuTranslateVia memory (mmuToVirt (layout.addressOf .highBasePml4))
      virtAddr = realBits virtAddr := by
  have reaches := low_walk initial inLow first inBlocks
  have p1 := pml1Entry_low initial inLow first inBlocks bound
  rw [if_neg notNull] at p1
  have index := pml1Index_lt virtAddr
  have frameBound : pml2Index virtAddr * 512 + pml1Index virtAddr <
      2 ^ 40 := by
    omega
  rw [reaches.translate_frame frameBound p1]
  rw [pml4Index_eq] at inLow
  rw [pml3Index_eq] at first
  rw [pml2Index_eq, pml1Index_eq_realBits]
  have sameOffset : virtAddr % 4096 = realBits virtAddr % 4096 := by
    rw [realBits]
    omega
  omega

end Low

section Heap

variable (initial : InitialTables layout memory blocks firstFree pages)
  (inHeap : pml4Index virtAddr = 510)

include initial inHeap

theorem pml4Entry_heap :
    pml4Entry memory (mmuToVirt (layout.addressOf .highBasePml4)) virtAddr =
      BitVec.ofNat 64 (layout.addressOf .heapBasePml3 |||
        kernelPmlAccess) := by
  rw [pml4Entry_initial initial, inHeap]
  rfl

theorem pml3Entry_heap :
    pml3Entry memory (mmuToVirt (layout.addressOf .highBasePml4)) virtAddr =
      BitVec.ofNat 64 (initialValue layout blocks firstFree pages
        .heapBasePml3 (pml3Index virtAddr)) :=
  entryAt_link initial (pml4Entry_heap initial inHeap) (by decide)
    (tableIndex_lt _ _)

theorem heap_absent_pml3 (behind : pml3Index virtAddr ≠ 0) :
    FirstAbsentAt memory (mmuToVirt (layout.addressOf .highBasePml4))
      virtAddr 2 := by
  constructor
  · rw [pml4Entry_heap initial inHeap]
    exact present_link _ (by decide) (by decide)
  · rw [pml3Entry_heap initial inHeap, initialValue, if_neg behind]
    exact present_zero

variable (first : pml3Index virtAddr = 0)

include first

theorem pml3Entry_heap_first :
    pml3Entry memory (mmuToVirt (layout.addressOf .highBasePml4)) virtAddr =
      BitVec.ofNat 64 (layout.addressOf .heapBasePml2 |||
        kernelPmlAccess) := by
  rw [pml3Entry_heap initial inHeap, first]
  rfl

theorem pml2Entry_heap :
    pml2Entry memory (mmuToVirt (layout.addressOf .highBasePml4)) virtAddr =
      BitVec.ofNat 64 (initialValue layout blocks firstFree pages
        .heapBasePml2 (pml2Index virtAddr)) :=
  entryAt_link initial (pml3Entry_heap_first initial inHeap first)
    (by decide) (tableIndex_lt _ _)

theorem heap_absent_pml2 (behind : 3 ≤ pml2Index virtAddr) :
    FirstAbsentAt memory (mmuToVirt (layout.addressOf .highBasePml4))
      virtAddr 3 := by
  refine ⟨?_, ?_, ?_, ?_⟩
  · rw [pml4Entry_heap initial inHeap]
    exact present_link _ (by decide) (by decide)
  · rw [pml3Entry_heap_first initial inHeap first]
    exact present_link _ (by decide) (by decide)
  · rw [pml3Entry_heap_first initial inHeap first]
    exact huge_link _ (by decide)
  · rw [pml2Entry_heap initial inHeap first, initialValue,
      dif_neg (Nat.not_lt.mpr behind)]
    exact present_zero

variable (inTables : pml2Index virtAddr < 3)

include inTables

theorem pml2Entry_heap_mapped :
    pml2Entry memory (mmuToVirt (layout.addressOf .highBasePml4)) virtAddr =
      BitVec.ofNat 64
        (layout.addressOf (.heapBasePml1 ⟨pml2Index virtAddr, inTables⟩) |||
          kernelPmlAccess) := by
  rw [pml2Entry_heap initial inHeap first, initialValue, dif_pos inTables]

theorem pml1Entry_heap :
    pml1Entry memory (mmuToVirt (layout.addressOf .highBasePml4)) virtAddr =
      BitVec.ofNat 64
        (if pml2Index virtAddr * 512 + pml1Index virtAddr < pages then
          (firstFree + (pml2Index virtAddr * 512 + pml1Index virtAddr) *
            4096) ||| kernelPmlAccess
        else 0) :=
  entryAt_link initial (pml2Entry_heap_mapped initial inHeap first inTables)
    (by decide) (pml1Index_lt _)

/-- The walk of an address in the heap tables. -/
theorem heap_walk :
    ReachesPml1 memory (mmuToVirt (layout.addressOf .highBasePml4))
      virtAddr := by
  apply reachesPml1_of_links
  · exact ⟨_, _, by decide, by decide, pml4Entry_heap initial inHeap⟩
  · exact ⟨_, _, by decide, by decide,
      pml3Entry_heap_first initial inHeap first⟩
  · exact ⟨_, _, by decide, by decide,
      pml2Entry_heap_mapped initial inHeap first inTables⟩

/-- Behind the metadata nothing is mapped in the heap region. -/
theorem heap_absent_pml1
    (behind : pages ≤ pml2Index virtAddr * 512 + pml1Index virtAddr) :
    FirstAbsentAt memory (mmuToVirt (layout.addressOf .highBasePml4))
      virtAddr 4 := by
  apply (heap_walk initial inHeap first inTables).firstAbsentAt
  rw [pml1Entry_heap initial inHeap first inTables,
    if_neg (Nat.not_lt.mpr behind)]
  exact present_zero

/-- The metadata pages translate to the frames from `first_free_page` on. -/
theorem heap_mapped
    (aligned : firstFree % 4096 = 0) (bound : firstFree < 2 ^ 40)
    (inPages : pml2Index virtAddr * 512 + pml1Index virtAddr < pages) :
    mmuTranslateVia memory (mmuToVirt (layout.addressOf .highBasePml4))
      virtAddr = firstFree + realBits virtAddr % 2 ^ 39 := by
  have reaches := heap_walk initial inHeap first inTables
  have p1 := pml1Entry_heap initial inHeap first inTables
  have value : firstFree +
      (pml2Index virtAddr * 512 + pml1Index virtAddr) * 4096 =
        (firstFree / 4096 + (pml2Index virtAddr * 512 +
          pml1Index virtAddr)) * 4096 := by
    omega
  rw [if_pos inPages, value] at p1
  have index := pml1Index_lt virtAddr
  have frameBound : firstFree / 4096 + (pml2Index virtAddr * 512 +
      pml1Index virtAddr) < 2 ^ 40 := by
    omega
  rw [reaches.translate_frame frameBound p1]
  rw [pml4Index_eq] at inHeap
  rw [pml3Index_eq] at first
  rw [pml2Index_eq] at inTables
  rw [pml2Index_eq, pml1Index_eq_realBits]
  have sameOffset : virtAddr % 4096 = realBits virtAddr % 4096 := by
    rw [realBits]
    omega
  omega

end Heap

/-- The static tables make up the initial address space. -/
theorem addressSpace_of_initialTables
    (initial : InitialTables layout memory blocks firstFree pages)
    (blocksBound : blocks ≤ 32) (pagesBound : pages ≤ 3 * 512)
    (aligned : firstFree % 4096 = 0) (bound : firstFree < 2 ^ 40) :
    AddressSpace memory (mmuToVirt (layout.addressOf .highBasePml4))
      blocks firstFree pages := by
  constructor
  · intro virtAddr notNull inBlocks
    refine low_mapped initial ?_ ?_ ?_ blocksBound ?_
    · rw [pml4Index_eq]
      omega
    · rw [pml3Index_eq]
      omega
    · rw [pml2Index_eq]
      omega
    · rw [pml2Index_eq, pml1Index_eq_realBits]
      omega
  · intro virtAddr physAddr small same
    have position : realBits virtAddr = 511 * 2 ^ 39 + physAddr := by
      rw [same, realBits, highMapRegion]
      omega
    rw [high_mapped initial, position]
    · omega
    · rw [pml4Index_eq, position]
      omega
    · rw [pml3Index_eq, position]
      omega
  · intro virtAddr offset small same
    have position : realBits virtAddr = 510 * 2 ^ 39 + offset := by
      rw [same, realBits, kernelHeapStart]
      omega
    rw [heap_mapped initial _ _ _ aligned bound, position]
    · omega
    · rw [pml2Index_eq, pml1Index_eq_realBits, position]
      omega
    · rw [pml4Index_eq, position]
      omega
    · rw [pml3Index_eq, position]
      omega
    · rw [pml2Index_eq, position]
      omega
  · intro virtAddr notLow notHigh notHeap
    have absent : FirstAbsentAt memory
        (mmuToVirt (layout.addressOf .highBasePml4)) virtAddr
        (absentLevel blocks virtAddr) := by
      rw [absentLevel]
      split_ifs with low first behind heap heapFirst heapBehind high
      · exact low_absent_pml3 initial low first
      · exact low_absent_pml2 initial low (not_not.mp first) behind
      · refine low_absent_null initial low (not_not.mp first)
          (Nat.not_le.mp behind) blocksBound ?_
        rw [pml2Index_eq] at behind ⊢
        rw [pml4Index_eq] at low
        rw [pml3Index_eq] at first
        rw [pml1Index_eq_realBits]
        omega
      · exact heap_absent_pml3 initial heap heapFirst
      · exact heap_absent_pml2 initial heap (not_not.mp heapFirst) heapBehind
      · refine heap_absent_pml1 initial heap (not_not.mp heapFirst)
          (Nat.not_le.mp heapBehind) ?_
        rw [pml4Index_eq] at heap
        rw [pml3Index_eq] at heapFirst
        rw [pml2Index_eq] at heapBehind ⊢
        rw [pml1Index_eq_realBits]
        refine Nat.not_lt.mp fun inside =>
          notHeap (realBits virtAddr - 510 * 2 ^ 39) (by omega) ?_
        simp only [realBits, kernelHeapStart] at heap heapFirst heapBehind ⊢
        omega
      · refine high_absent initial high ?_
        rw [pml4Index_eq] at high
        rw [pml3Index_eq]
        refine Nat.not_lt.mp fun inside =>
          notHigh (realBits virtAddr - 511 * 2 ^ 39) (by omega) ?_
        simp only [realBits, highMapRegion] at high ⊢
        omega
      · exact outside_regions initial low heap high
    exact ⟨translate_of_firstAbsentAt absent, absent⟩

end Walk

/-- Table pointers translate to the frames they are taken to refer to. -/
theorem AddressSpace.table_pointer
    {memory : TableMemory} {root blocks firstFree pages frame : Nat}
    (space : AddressSpace memory root blocks firstFree pages)
    (small : frame < 2 ^ 24) :
    mmuTranslateVia memory root (mmuToVirt (frame * 4096)) =
      frame * 4096 := by
  refine space.high _ (frame * 4096) (by omega) (congrArg realBits ?_)
  have region : highMapRegion = 0x1FFFFFF <<< 39 := by decide
  have inPhys : frame * 4096 < 2 ^ 39 := by omega
  rw [mmuToVirt, Nat.or_comm, region, or_offset inPhys, Nat.shiftLeft_eq]

/--
After `mmu_init` every address translates as the initial address space says;
`kernelEndAddress` is the address that `mmu_init` takes for the end of the
kernel, `kernelEnd` the value it is passed.
-/
theorem initial_address_space
    (layout : Layout) (kernelEndAddress memsize kernelEnd : Nat)
    (kernel : Kernel) (addressBound : kernelEndAddress ≤ 2 ^ 26)
    (pagesBound : metadataPages memsize ≤ 1536)
    (kernelEndBound : kernelEnd < 2 ^ 39)
    (zeroed : ∀ table i, kernel.mm.memory (layout.frame table) i = 0)
    (apart : ∀ table,
      layout.frame table < firstFreePage kernelEnd / 4096 ∨
        firstFreePage kernelEnd / 4096 + metadataPages memsize ≤
          layout.frame table) :
    ∃ after,
      mmuInit layout kernelEndAddress memsize kernelEnd kernel =
        some after ∧
      AddressSpace after.mm.memory after.currentPml4
        ((kernelEndAddress + (2 ^ 24 - 1)) / 2 ^ 24 * 2 ^ 24 / 2 ^ 21)
        (firstFreePage kernelEnd) (metadataPages memsize) := by
  have blocks := pml2Count_eq addressBound
  have blocksBound : pml2Count kernelEndAddress ≤ 32 := by
    omega
  have bounds := firstFreePage_bounds kernelEndBound
  obtain ⟨after, returns, root, -, -, -, initial⟩ := mmuInit_spec layout
    kernel blocksBound pagesBound kernelEndBound zeroed apart
  refine ⟨after, returns, ?_⟩
  have counted : (kernelEndAddress + (2 ^ 24 - 1)) / 2 ^ 24 * 2 ^ 24 /
      2 ^ 21 = pml2Count kernelEndAddress := by
    omega
  rw [counted, root]
  exact addressSpace_of_initialTables initial blocksBound pagesBound
    bounds.2.2 (by omega)

/-- The address space of a kernel of less than 2 MiB on 128 MiB of memory. -/
theorem initial_address_space_small_kernel :
    ∃ after,
      mmuInit Layout.contiguous 0x190000 0x8000000 0x1F0001 Kernel.zeroed =
        some after ∧
      AddressSpace after.mm.memory after.currentPml4 8 0x1F1000 4 := by
  have pages : metadataPages 0x8000000 = 4 := by decide
  have firstFree : firstFreePage 0x1F0001 = 0x1F1000 := by decide
  have space := initial_address_space Layout.contiguous 0x190000 0x8000000
    0x1F0001 Kernel.zeroed (by decide) (by decide) (by decide)
    (fun _ _ => rfl) ?_
  · rw [pages, firstFree] at space
    exact space
  · intro table
    left
    rw [firstFree]
    cases table <;> simp only [Layout.contiguous] <;> omega

end Kernull.InitialAddressSpace
