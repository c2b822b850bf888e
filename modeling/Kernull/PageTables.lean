import Kernull.Library.RadixTree
import Kernull.MmConstants
import Kernull.Pml

/-!
# Page tables

The walkers of `arch/x86_64/mm/mm.c`.  Page tables are read through the high
mapping, of which the 39 bits below `HIGH_MAP_REGION` select physical memory;
a table pointer therefore stands for the frame in these bits.  Page-table
memory is given frame by frame, each a table of 512 entries.
-/

namespace Kernull.PageTables

open Kernull.Mm
open Kernull.Pml
open Kernull.Library.RadixTree

/-- Physical memory, read as page tables. -/
abbrev TableMemory := Tables Nat (Fin 512) PmlEntry

/-- `CANONICAL_MASK`. -/
def canonicalMask : Nat := 0x0000FFFFFFFFFFFF

/-- `PHYS_MASK`. -/
def physMask : Nat := 0x0000007FFFFFFFFF

/-- `PML3_MASK`. -/
def pml3Mask : Nat := 0x3FFFFFFF

/-- `PML2_MASK`. -/
def pml2Mask : Nat := 0x1FFFFF

/-- `PML1_MASK`. -/
def pml1Mask : Nat := 0xFFF

/-- `PML_ENTRY_MASK`. -/
def pmlEntryMask : Nat := 0x1FF

/-- `mmu_to_virt`. -/
def mmuToVirt (physAddr : Nat) : Nat :=
  physAddr ||| highMapRegion

/-- The frame a table pointer refers to. -/
def tableFrame (pointer : Nat) : Nat :=
  (pointer &&& physMask) >>> 12

/-- An index that is masked with `PML_ENTRY_MASK` where it is computed. -/
def slot (index : Nat) : Fin 512 :=
  Fin.ofNat 512 index

theorem slot_val (index : Nat) : (slot index).val = index % 512 :=
  rfl

theorem slot_of_fin (index : Fin 512) : slot index.val = index :=
  Fin.ext (Nat.mod_eq_of_lt index.isLt)

/-- `table[index]`. -/
def entryAt (memory : TableMemory) (table index : Nat) : PmlEntry :=
  memory (tableFrame table) (slot index)

/-- `mmu_to_virt(entry.bits.address << PAGE_SHIFT)`. -/
def nextTable (entry : PmlEntry) : Nat :=
  mmuToVirt (address entry <<< 12)

/-- The error value `-level` as a `u64`. -/
def unmapped (level : Nat) : Nat :=
  2 ^ 64 - level

/-- The error values `-1` to `-4`. -/
def IsError (value : Nat) : Prop :=
  unmapped 4 ≤ value

instance (value : Nat) : Decidable (IsError value) :=
  inferInstanceAs (Decidable (_ ≤ _))

/-! ## The four indices of an address -/

/-- `(page_addr >> shift) & PML_ENTRY_MASK`. -/
def tableIndex (pageAddr shift : Nat) : Nat :=
  (pageAddr >>> shift) &&& pmlEntryMask

/-- `(virt_addr & CANONICAL_MASK) >> PAGE_SHIFT`. -/
def pageAddress (virtAddr : Nat) : Nat :=
  (virtAddr &&& canonicalMask) >>> 12

/-- `pml4_entry_idx`. -/
def pml4Index (virtAddr : Nat) : Nat := tableIndex (pageAddress virtAddr) 27

/-- `pml3_entry_idx`. -/
def pml3Index (virtAddr : Nat) : Nat := tableIndex (pageAddress virtAddr) 18

/-- `pml2_entry_idx`. -/
def pml2Index (virtAddr : Nat) : Nat := tableIndex (pageAddress virtAddr) 9

/-- `pml1_entry_idx`. -/
def pml1Index (virtAddr : Nat) : Nat :=
  pageAddress virtAddr &&& pmlEntryMask

/-! ## The walkers -/

/-- `mmu_translate_via`. -/
def mmuTranslateVia (memory : TableMemory) (root virtAddr : Nat) : Nat :=
  let pml4Entry := entryAt memory root (pml4Index virtAddr)
  if !present pml4Entry then unmapped 1
  else
    let pml3 := nextTable pml4Entry
    let pml3Entry := entryAt memory pml3 (pml3Index virtAddr)
    if !present pml3Entry then unmapped 2
    else if huge pml3Entry then
      (address pml3Entry <<< 12) ||| (virtAddr &&& pml3Mask)
    else
      let pml2 := nextTable pml3Entry
      let pml2Entry := entryAt memory pml2 (pml2Index virtAddr)
      if !present pml2Entry then unmapped 3
      else if huge pml2Entry then
        (address pml2Entry <<< 12) ||| (virtAddr &&& pml2Mask)
      else
        let pml1 := nextTable pml2Entry
        let pml1Entry := entryAt memory pml1 (pml1Index virtAddr)
        if !present pml1Entry then unmapped 4
        else (address pml1Entry <<< 12) ||| (virtAddr &&& pml1Mask)

/-- The pointer `&table[index]`. -/
structure EntryPointer where
  table : Nat
  index : Nat
deriving DecidableEq

/-- The entry a pointer refers to. -/
def EntryPointer.entry (pointer : EntryPointer) (memory : TableMemory) :
    PmlEntry :=
  entryAt memory pointer.table pointer.index

/-- `mmu_get_page`; `none` is `NULL`. -/
def mmuGetPage (memory : TableMemory) (currentPml4 virtAddr : Nat) :
    Option EntryPointer :=
  let pml4Entry := entryAt memory currentPml4 (pml4Index virtAddr)
  if !present pml4Entry then none
  else
    let pml3 := nextTable pml4Entry
    let pml3Entry := entryAt memory pml3 (pml3Index virtAddr)
    if !present pml3Entry then none
    else
      let pml2 := nextTable pml3Entry
      let pml2Entry := entryAt memory pml2 (pml2Index virtAddr)
      if !present pml2Entry then none
      else
        let pml1 := nextTable pml2Entry
        some ⟨pml1, pml1Index virtAddr⟩

/-- The result and the out parameters of `mmu_get_page_deep`. -/
structure DeepResult where
  result : Nat
  pml4Out : Option EntryPointer
  pml3Out : Option EntryPointer
  pml2Out : Option EntryPointer
  pml1Out : Option EntryPointer
deriving DecidableEq

/-- `mmu_get_page_deep`. -/
def mmuGetPageDeep (memory : TableMemory) (currentPml4 virtAddr : Nat) :
    DeepResult :=
  let pml4Out := EntryPointer.mk currentPml4 (pml4Index virtAddr)
  if !present (pml4Out.entry memory) then
    ⟨1, some pml4Out, none, none, none⟩
  else
    let pml3 := nextTable (pml4Out.entry memory)
    let pml3Out := EntryPointer.mk pml3 (pml3Index virtAddr)
    if !present (pml3Out.entry memory) then
      ⟨1, some pml4Out, some pml3Out, none, none⟩
    else
      let pml2 := nextTable (pml3Out.entry memory)
      let pml2Out := EntryPointer.mk pml2 (pml2Index virtAddr)
      if !present (pml2Out.entry memory) then
        ⟨1, some pml4Out, some pml3Out, some pml2Out, none⟩
      else
        let pml1 := nextTable (pml2Out.entry memory)
        let pml1Out := EntryPointer.mk pml1 (pml1Index virtAddr)
        if !present (pml1Out.entry memory) then
          ⟨1, some pml4Out, some pml3Out, some pml2Out, some pml1Out⟩
        else ⟨0, some pml4Out, some pml3Out, some pml2Out, some pml1Out⟩

/-! ## Arithmetic of pointers and indices -/

theorem tableIndex_eq (pageAddr shift : Nat) :
    tableIndex pageAddr shift = pageAddr / 2 ^ shift % 512 := by
  rw [tableIndex, Nat.shiftRight_eq_div_pow]
  exact Nat.and_two_pow_sub_one_eq_mod _ 9

theorem pageAddress_eq (virtAddr : Nat) :
    pageAddress virtAddr = virtAddr % 2 ^ 48 / 4096 := by
  rw [pageAddress, Nat.shiftRight_eq_div_pow]
  exact congrArg (· / 2 ^ 12) (Nat.and_two_pow_sub_one_eq_mod virtAddr 48)

theorem pml1Index_eq (virtAddr : Nat) :
    pml1Index virtAddr = pageAddress virtAddr % 512 :=
  Nat.and_two_pow_sub_one_eq_mod _ 9

theorem tableFrame_eq (pointer : Nat) :
    tableFrame pointer = pointer % 2 ^ 39 / 4096 := by
  rw [tableFrame, Nat.shiftRight_eq_div_pow]
  exact congrArg (· / 2 ^ 12) (Nat.and_two_pow_sub_one_eq_mod pointer 39)

/-- The table an entry leads to lies in the frame of its low address bits. -/
theorem tableFrame_nextTable (entry : PmlEntry) :
    tableFrame (nextTable entry) = address entry % 2 ^ 27 := by
  have region : highMapRegion % 2 ^ 39 = 0 := by decide
  rw [tableFrame_eq, nextTable, mmuToVirt, Nat.or_mod_two_pow, region,
    Nat.or_zero, Nat.shiftLeft_eq]
  omega

/-- Disjoint bits: an aligned address with an offset below the alignment. -/
theorem or_offset {value bits offset : Nat} (small : offset < 2 ^ bits) :
    (value <<< bits) ||| offset = value * 2 ^ bits + offset := by
  rw [← Nat.shiftLeft_add_eq_or_of_lt small, Nat.shiftLeft_eq]

/-- The byte at an offset into a frame. -/
theorem page_or_offset {frame offset : Nat} (small : offset < 4096) :
    (frame <<< 12) ||| offset = frame * 4096 + offset := by
  have joined : (frame <<< 12) ||| offset = frame * 2 ^ 12 + offset :=
    or_offset small
  omega

theorem pml1Mask_eq (virtAddr : Nat) :
    virtAddr &&& pml1Mask = virtAddr % 4096 :=
  Nat.and_two_pow_sub_one_eq_mod virtAddr 12

/-- Physical addresses are no error values. -/
theorem not_isError_or
    (entry : PmlEntry) {offset : Nat} (small : offset < 2 ^ 30) :
    ¬ IsError ((address entry <<< 12) ||| offset) := by
  have bound := address_lt entry
  have shifted : address entry <<< 12 < 2 ^ 52 := by
    rw [Nat.shiftLeft_eq]
    omega
  have joined : (address entry <<< 12) ||| offset < 2 ^ 52 :=
    Nat.or_lt_two_pow shifted (by omega)
  rw [IsError, unmapped]
  omega

theorem isError_unmapped {level : Nat} (named : level ≤ 4) :
    IsError (unmapped level) := by
  rw [IsError, unmapped, unmapped]
  omega

end Kernull.PageTables
