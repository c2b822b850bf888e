import Kernull.Kmalloc
import Kernull.MapAddr

/-!
# Initialisation of the memory manager

`mmu_init` of `arch/x86_64/mm/mm.c`.  The static page tables lie in frames of
their own; the stores into them are listed in the order of the source and
carried out in memory one after the other.  `mmu_init` reads `kernel_end`,
which names its parameter there: the address `&kernel_end` is the address of
the parameter, and it is not related to its value.

The bitmap that `page_allocator_init` clears lies in the pages that
`heap_base_pml1` maps; its frames hold what is left there.
-/

namespace Kernull.MmuInit

open Kernull.Mm
open Kernull.Pml
open Kernull.PageAlloc
open Kernull.PageTables
open Kernull.MapAddr
open Kernull.Kmalloc
open Kernull.Library.RadixTree

/-- The static page tables that `mmu_init` fills, page by page. -/
inductive StaticTable where
  | highBasePml4
  | highBasePml3
  | highBasePml2s (i : Fin 64)
  | lowBasePml4s (i : Fin 2)
  | lowBasePml2s (i : Fin 32)
  | heapBasePml3
  | heapBasePml2
  | heapBasePml1 (i : Fin 3)
deriving DecidableEq

/-- Where the linker puts the static tables: frames below 64 MiB. -/
structure Layout where
  frame : StaticTable → Nat
  distinct : ∀ left right, frame left = frame right → left = right
  low : ∀ table, frame table < 2 ^ 14

/-- The static tables one after the other from 1 MiB on. -/
def Layout.contiguous : Layout where
  frame
    | .highBasePml4 => 256
    | .highBasePml3 => 257
    | .highBasePml2s i => 258 + i.val
    | .lowBasePml4s i => 322 + i.val
    | .lowBasePml2s i => 324 + i.val
    | .heapBasePml3 => 356
    | .heapBasePml2 => 357
    | .heapBasePml1 i => 358 + i.val
  distinct := by
    intro left right same
    cases left <;> cases right <;> simp only [StaticTable.highBasePml2s.injEq,
      StaticTable.lowBasePml4s.injEq, StaticTable.lowBasePml2s.injEq,
      StaticTable.heapBasePml1.injEq, Fin.ext_iff, reduceCtorEq] at same ⊢ <;>
      omega
  low := by
    intro table
    cases table <;> simp only [] <;> omega

/-- `&table`. -/
def Layout.addressOf (layout : Layout) (table : StaticTable) : Nat :=
  layout.frame table * 4096

/-- `KERNEL_PML_ACCESS`. -/
def kernelPmlAccess : Nat := 0x03

/-- `USER_PML_ACCESS`. -/
def userPmlAccess : Nat := 0x07

/-- `LARGE_PAGE_BIT`. -/
def largePageBit : Nat := 0x80

/-- A store `table[index].full = value`. -/
structure TableStore where
  table : StaticTable
  index : Nat
  value : Nat

/-- The bytes of the kernel image to map, as a number of 2 MiB blocks. -/
def pml2Count (kernelEndAddress : Nat) : Nat :=
  let endPml1r := pageRound kernelEndAddress
  let lowPages := endPml1r >>> 12
  let lowPages := pageRound lowPages
  (lowPages + pmlEntryMask) >>> 9

/-- `first_free_page`. -/
def firstFreePage (kernelEnd : Nat) : Nat :=
  pageRound kernelEnd

/-- `metadata_pages`. -/
def metadataPages (memsize : Nat) : Nat :=
  pageRound (metadataSize memsize) >>> 12

section Stores

variable (layout : Layout)

/-- The stores up to the identity mapping of low memory. -/
def highStores : List TableStore :=
  [⟨.highBasePml4, 511,
      layout.addressOf .highBasePml3 ||| kernelPmlAccess⟩,
    ⟨.highBasePml4, 510,
      layout.addressOf .heapBasePml3 ||| kernelPmlAccess⟩] ++
  (List.finRange 64).flatMap fun (i : Fin 64) =>
    ⟨.highBasePml3, i,
      layout.addressOf (.highBasePml2s i) ||| kernelPmlAccess⟩ ::
    (List.finRange 512).map fun (j : Fin 512) =>
      ⟨.highBasePml2s i, j,
        ((i.val <<< 30) + (j.val <<< 21)) ||| largePageBit |||
          kernelPmlAccess⟩

/-- The stores of the identity mapping of low memory. -/
def lowStores (pml2Count : Nat) : List TableStore :=
  ⟨.lowBasePml4s 0, 0,
    layout.addressOf (.lowBasePml4s 1) ||| userPmlAccess⟩ ::
  (List.range pml2Count).flatMap fun j =>
    ⟨.lowBasePml4s 1, j,
      layout.addressOf (.lowBasePml2s (Fin.ofNat 32 j)) |||
        kernelPmlAccess⟩ ::
    (List.finRange 512).map fun (i : Fin 512) =>
      ⟨.lowBasePml2s (Fin.ofNat 32 j), i,
        (largePageSize * j + pageSize * i.val) ||| kernelPmlAccess⟩

/-- The stores from the removal of the null page on. -/
def heapStores (firstFreePage metadataPages : Nat) : List TableStore :=
  [⟨.lowBasePml2s 0, 0, 0⟩,
    ⟨.highBasePml4, 0,
      layout.addressOf (.lowBasePml4s 0) ||| userPmlAccess⟩,
    ⟨.heapBasePml3, 0,
      layout.addressOf .heapBasePml2 ||| kernelPmlAccess⟩,
    ⟨.heapBasePml2, 0,
      layout.addressOf (.heapBasePml1 0) ||| kernelPmlAccess⟩,
    ⟨.heapBasePml2, 1,
      layout.addressOf (.heapBasePml1 1) ||| kernelPmlAccess⟩,
    ⟨.heapBasePml2, 2,
      layout.addressOf (.heapBasePml1 2) ||| kernelPmlAccess⟩] ++
  (List.range metadataPages).map fun i =>
    ⟨.heapBasePml1 (Fin.ofNat 3 (i / 512)), i,
      (firstFreePage + (i <<< 12)) ||| kernelPmlAccess⟩

/-- The cell of memory a store is about. -/
def TableStore.cell (store : TableStore) : Nat × Fin 512 × PmlEntry :=
  (layout.frame store.table, slot store.index, BitVec.ofNat 64 store.value)

/-- Memory after a list of stores. -/
def applyStores (memory : TableMemory) (stores : List TableStore) :
    TableMemory :=
  writeAll memory (stores.map (TableStore.cell layout))

end Stores

/-! ## The state of the kernel -/

/-- The variables of the memory manager and the memory they describe. -/
structure Kernel where
  mm : MmState
  currentPml4 : Nat
  heap : Heap

/-- The kernel with zeroed memory. -/
def Kernel.zeroed : Kernel where
  mm :=
    { memory := fun _ _ => 0
      allocator :=
        { frames := fun _ => 0
          nframes := 0
          totalMemory := 0
          unavailableMemory := 0 } }
  currentPml4 := 0
  heap :=
    { memory := fun _ => 0
      freeBlockList := 0
      heapStart := 0
      heapEnd := 0
      totalMemory := 0 }

/-- Eight bytes of the bitmap, read as a page-table entry. -/
def bitmapEntry (allocator : PageAllocator) (offset : Nat) : PmlEntry :=
  (List.range 8).foldr
    (fun byte entry =>
      (entry <<< 8) ||| (allocator.frames (offset + byte)).setWidth 64)
    0

/-- Memory with the bitmap in the given frames. -/
def withBitmap (firstFrame pages : Nat) (allocator : PageAllocator)
    (memory : TableMemory) : TableMemory := fun frame index =>
  if firstFrame ≤ frame ∧ frame < firstFrame + pages then
    bitmapEntry allocator ((frame - firstFrame) * 4096 + index.val * 8)
  else memory frame index

/--
`mmu_init`; `none` when a store is out of the bounds of its table, when
`page_allocator_init` does not return, or when an assertion fails.
-/
def mmuInit (layout : Layout) (kernelEndAddress memsize kernelEnd : Nat)
    (kernel : Kernel) : Option Kernel :=
  let blocks := pml2Count kernelEndAddress
  let firstFree := firstFreePage kernelEnd
  let pages := metadataPages memsize
  if blocks ≤ 32 ∧ pages ≤ 3 * 512 then
    let memory := applyStores layout kernel.mm.memory
      (highStores layout ++ lowStores layout blocks ++
        heapStores layout firstFree pages)
    (pageAllocatorInit firstFree memsize kernel.mm.allocator).bind
      fun allocator =>
        (kheapAllocatorInit (kernelHeapStart + pages * pageSize)
          kernel.heap).map fun heap =>
            { mm :=
                { memory := withBitmap (firstFree / 4096) pages allocator
                    memory
                  allocator := allocator }
              currentPml4 := mmuToVirt (layout.addressOf .highBasePml4)
              heap := { heap with totalMemory := allocator.totalMemory } }
  else none

/-- `mmu_translate`. -/
def mmuTranslate (kernel : Kernel) (virtAddr : Nat) : Nat :=
  mmuTranslateVia kernel.mm.memory kernel.currentPml4 virtAddr

/-! ## The contents of the static tables -/

/-- What `mmu_init` leaves in the static tables. -/
def initialValue (layout : Layout) (blocks firstFree pages : Nat) :
    StaticTable → Nat → Nat
  | .highBasePml4, i =>
      if i = 511 then layout.addressOf .highBasePml3 ||| kernelPmlAccess
      else if i = 510 then
        layout.addressOf .heapBasePml3 ||| kernelPmlAccess
      else if i = 0 then
        layout.addressOf (.lowBasePml4s 0) ||| userPmlAccess
      else 0
  | .highBasePml3, i =>
      if inside : i < 64 then
        layout.addressOf (.highBasePml2s ⟨i, inside⟩) ||| kernelPmlAccess
      else 0
  | .highBasePml2s i, j =>
      (i.val * 2 ^ 30 + j * 2 ^ 21) ||| largePageBit ||| kernelPmlAccess
  | .lowBasePml4s table, j =>
      if table = 0 then
        if j = 0 then layout.addressOf (.lowBasePml4s 1) ||| userPmlAccess
        else 0
      else if j < blocks then
        layout.addressOf (.lowBasePml2s (Fin.ofNat 32 j)) |||
          kernelPmlAccess
      else 0
  | .lowBasePml2s j, i =>
      if j.val < blocks ∧ ¬ (j = 0 ∧ i = 0) then
        (largePageSize * j.val + pageSize * i) ||| kernelPmlAccess
      else 0
  | .heapBasePml3, i =>
      if i = 0 then layout.addressOf .heapBasePml2 ||| kernelPmlAccess
      else 0
  | .heapBasePml2, i =>
      if inside : i < 3 then
        layout.addressOf (.heapBasePml1 ⟨i, inside⟩) ||| kernelPmlAccess
      else 0
  | .heapBasePml1 k, i =>
      if k.val * 512 + i < pages then
        (firstFree + (k.val * 512 + i) * 4096) ||| kernelPmlAccess
      else 0

section Contents

variable {layout : Layout} {blocks firstFree pages : Nat}
  {store : TableStore}

/-- The final value of the cell of a store. -/
def TableStore.finalValue (layout : Layout) (blocks firstFree pages : Nat)
    (store : TableStore) : Nat :=
  initialValue layout blocks firstFree pages store.table
    (slot store.index).val

theorem value_of_mem_highStores (member : store ∈ highStores layout) :
    store.value = store.finalValue layout blocks firstFree pages := by
  simp only [highStores, List.mem_append, List.mem_cons, List.mem_flatMap,
    List.mem_map, List.mem_finRange, true_and, List.not_mem_nil,
    or_false] at member
  rcases member with (rfl | rfl) | ⟨i, rfl | ⟨j, rfl⟩⟩
  · rfl
  · rfl
  · have inTable : i.val % 512 = i.val := by omega
    simp [TableStore.finalValue, initialValue, slot_val, inTable]
  · have inTable : j.val % 512 = j.val := by omega
    simp only [TableStore.finalValue, initialValue, slot_val, inTable,
      Nat.shiftLeft_eq]

theorem value_of_mem_lowStores
    (bound : blocks ≤ 32) (member : store ∈ lowStores layout blocks)
    (notNull : ¬ (store.table = .lowBasePml2s 0 ∧ slot store.index = 0)) :
    store.value = store.finalValue layout blocks firstFree pages := by
  simp only [lowStores, List.mem_cons, List.mem_flatMap, List.mem_map,
    List.mem_finRange, List.mem_range, true_and] at member
  rcases member with rfl | ⟨j, inBlocks, rfl | ⟨i, rfl⟩⟩
  · rfl
  · have inTable : j % 512 = j := by omega
    simp [TableStore.finalValue, initialValue, slot_val, inTable, inBlocks]
  · have inTable : i.val % 512 = i.val := by omega
    have inArray : (Fin.ofNat 32 j).val = j := by
      change j % 32 = j
      omega
    have mapped : ¬ (Fin.ofNat 32 j = 0 ∧ i.val = 0) := by
      rintro ⟨first, zero⟩
      refine notNull ⟨?_, ?_⟩
      · rw [first]
      · rw [zero]
        rfl
    simp only [TableStore.finalValue, initialValue, slot_val, inTable,
      inArray, inBlocks, mapped, not_false_eq_true, and_self, if_true]

theorem value_of_mem_heapStores
    (bound : pages ≤ 3 * 512)
    (member : store ∈ heapStores layout firstFree pages) :
    store.value = store.finalValue layout blocks firstFree pages := by
  simp only [heapStores, List.mem_append, List.mem_cons, List.mem_map,
    List.mem_range, List.not_mem_nil, or_false] at member
  rcases member with (rfl | rfl | rfl | rfl | rfl | rfl) |
    ⟨i, inPages, rfl⟩
  · simp [TableStore.finalValue, initialValue, slot_val]
  · rfl
  · rfl
  · rfl
  · rfl
  · rfl
  · have position : i / 512 % 3 * 512 + i % 512 = i := by omega
    simp [TableStore.finalValue, initialValue, slot_val, position, inPages,
      Nat.shiftLeft_eq]

theorem mem_highStores_table (i : Fin 64) :
    ⟨.highBasePml3, i,
      layout.addressOf (.highBasePml2s i) ||| kernelPmlAccess⟩ ∈
        highStores layout := by
  apply List.mem_append_right
  apply List.mem_flatMap.mpr
  exact ⟨i, List.mem_finRange i, List.mem_cons_self⟩

theorem mem_highStores_page (i : Fin 64) (j : Fin 512) :
    ⟨.highBasePml2s i, j,
      ((i.val <<< 30) + (j.val <<< 21)) ||| largePageBit |||
        kernelPmlAccess⟩ ∈ highStores layout := by
  apply List.mem_append_right
  apply List.mem_flatMap.mpr
  refine ⟨i, List.mem_finRange i, List.mem_cons_of_mem _ ?_⟩
  exact List.mem_map.mpr ⟨j, List.mem_finRange j, rfl⟩

theorem mem_lowStores_table {j : Nat} (inside : j < blocks) :
    ⟨.lowBasePml4s 1, j,
      layout.addressOf (.lowBasePml2s (Fin.ofNat 32 j)) |||
        kernelPmlAccess⟩ ∈ lowStores layout blocks := by
  apply List.mem_cons_of_mem
  apply List.mem_flatMap.mpr
  exact ⟨j, List.mem_range.mpr inside, List.mem_cons_self⟩

theorem mem_lowStores_page {j : Nat} (inside : j < blocks) (i : Fin 512) :
    ⟨.lowBasePml2s (Fin.ofNat 32 j), i,
      (largePageSize * j + pageSize * i.val) ||| kernelPmlAccess⟩ ∈
        lowStores layout blocks := by
  apply List.mem_cons_of_mem
  apply List.mem_flatMap.mpr
  refine ⟨j, List.mem_range.mpr inside, List.mem_cons_of_mem _ ?_⟩
  exact List.mem_map.mpr ⟨i, List.mem_finRange i, rfl⟩

theorem mem_heapStores_page {i : Nat} (inside : i < pages) :
    ⟨.heapBasePml1 (Fin.ofNat 3 (i / 512)), i,
      (firstFree + (i <<< 12)) ||| kernelPmlAccess⟩ ∈
        heapStores layout firstFree pages := by
  apply List.mem_append_right
  exact List.mem_map.mpr ⟨i, List.mem_range.mpr inside, rfl⟩

/-- A cell with a final value is stored to. -/
theorem exists_store
    (table : StaticTable) (i : Fin 512)
    (nonzero : initialValue layout blocks firstFree pages table i ≠ 0) :
    ∃ store ∈ highStores layout ++ lowStores layout blocks ++
        heapStores layout firstFree pages,
      store.table = table ∧ slot store.index = i := by
  have high : ∀ {store}, store ∈ highStores layout →
      store ∈ highStores layout ++ lowStores layout blocks ++
        heapStores layout firstFree pages := fun member =>
    List.mem_append_left _ (List.mem_append_left _ member)
  have low : ∀ {store}, store ∈ lowStores layout blocks →
      store ∈ highStores layout ++ lowStores layout blocks ++
        heapStores layout firstFree pages := fun member =>
    List.mem_append_left _ (List.mem_append_right _ member)
  have heap : ∀ {store}, store ∈ heapStores layout firstFree pages →
      store ∈ highStores layout ++ lowStores layout blocks ++
        heapStores layout firstFree pages := fun member =>
    List.mem_append_right _ member
  cases table with
  | highBasePml4 =>
      simp only [initialValue] at nonzero
      split_ifs at nonzero with last heapEntry first
      · exact ⟨⟨.highBasePml4, 511, _⟩, high List.mem_cons_self, rfl,
          Fin.ext last.symm⟩
      · exact ⟨⟨.highBasePml4, 510, _⟩,
          high (List.mem_cons_of_mem _ List.mem_cons_self), rfl,
          Fin.ext heapEntry.symm⟩
      · exact ⟨⟨.highBasePml4, 0, _⟩,
          heap (List.mem_cons_of_mem _ List.mem_cons_self), rfl,
          Fin.ext first.symm⟩
      · exact absurd rfl nonzero
  | highBasePml3 =>
      simp only [initialValue] at nonzero
      split_ifs at nonzero with inside
      · exact ⟨_, high (mem_highStores_table ⟨i.val, inside⟩), rfl,
          slot_of_fin i⟩
      · exact absurd rfl nonzero
  | highBasePml2s block =>
      exact ⟨_, high (mem_highStores_page block i), rfl, slot_of_fin i⟩
  | lowBasePml4s level =>
      simp only [initialValue] at nonzero
      split_ifs at nonzero with upper first inside
      · exact ⟨⟨.lowBasePml4s 0, 0, _⟩, low List.mem_cons_self,
          by rw [upper], Fin.ext first.symm⟩
      · exact absurd rfl nonzero
      · have lower : level = 1 := by omega
        exact ⟨_, low (mem_lowStores_table inside), by rw [lower],
          slot_of_fin i⟩
      · exact absurd rfl nonzero
  | lowBasePml2s block =>
      simp only [initialValue] at nonzero
      split_ifs at nonzero with mapped
      · have inArray : Fin.ofNat 32 block.val = block :=
          Fin.ext (Nat.mod_eq_of_lt block.isLt)
        exact ⟨_, low (mem_lowStores_page mapped.1 i), by rw [inArray],
          slot_of_fin i⟩
      · exact absurd rfl nonzero
  | heapBasePml3 =>
      simp only [initialValue] at nonzero
      split_ifs at nonzero with first
      · exact ⟨⟨.heapBasePml3, 0, _⟩,
          heap (List.mem_of_getElem? (i := 2) rfl), rfl, Fin.ext first.symm⟩
      · exact absurd rfl nonzero
  | heapBasePml2 =>
      simp only [initialValue] at nonzero
      split_ifs at nonzero with inside
      · have three : i.val = 0 ∨ i.val = 1 ∨ i.val = 2 := by omega
        rcases three with first | second | third
        · exact ⟨⟨.heapBasePml2, 0, _⟩,
            heap (List.mem_of_getElem? (i := 3) rfl), rfl,
            Fin.ext first.symm⟩
        · exact ⟨⟨.heapBasePml2, 1, _⟩,
            heap (List.mem_of_getElem? (i := 4) rfl), rfl,
            Fin.ext second.symm⟩
        · exact ⟨⟨.heapBasePml2, 2, _⟩,
            heap (List.mem_of_getElem? (i := 5) rfl), rfl,
            Fin.ext third.symm⟩
      · exact absurd rfl nonzero
  | heapBasePml1 page =>
      simp only [initialValue] at nonzero
      split_ifs at nonzero with inside
      · have inArray :
            Fin.ofNat 3 ((page.val * 512 + i.val) / 512) = page := by
          refine Fin.ext ?_
          change (page.val * 512 + i.val) / 512 % 3 = page.val
          omega
        have inTable : slot (page.val * 512 + i.val) = i := by
          refine Fin.ext ?_
          rw [slot_val]
          omega
        exact ⟨_, heap (mem_heapStores_page inside), by rw [inArray],
          inTable⟩
      · exact absurd rfl nonzero

/-- Stores of the final values leave the final value where they go. -/
theorem cells_agree
    {stores : List TableStore} {table : StaticTable} {i : Fin 512}
    (final : ∀ store ∈ stores, store.table = table → slot store.index = i →
      store.value = store.finalValue layout blocks firstFree pages) :
    ∀ cell ∈ stores.map (TableStore.cell layout),
      cell.1 = layout.frame table → cell.2.1 = i →
      cell.2.2 = BitVec.ofNat 64
        (initialValue layout blocks firstFree pages table i) := by
  intro cell member sameFrame sameIndex
  obtain ⟨store, stored, rfl⟩ := List.mem_map.mp member
  have sameTable := layout.distinct _ _ sameFrame
  change BitVec.ofNat 64 store.value = _
  rw [final store stored sameTable sameIndex, TableStore.finalValue,
    sameTable, show slot store.index = i from sameIndex]

/-- The static tables hold the final values after the stores. -/
theorem applyStores_frame
    {memory : TableMemory} (bound : blocks ≤ 32)
    (pagesBound : pages ≤ 3 * 512) (table : StaticTable) (i : Fin 512)
    (zeroed : memory (layout.frame table) i = 0) :
    applyStores layout memory (highStores layout ++ lowStores layout blocks ++
        heapStores layout firstFree pages) (layout.frame table) i =
      BitVec.ofNat 64
        (initialValue layout blocks firstFree pages table i) := by
  have split : ∀ earlier later, applyStores layout memory
      (earlier ++ later) =
        applyStores layout (applyStores layout memory earlier) later := by
    intro earlier later
    simp only [applyStores, writeAll, List.map_append, List.foldl_append]
  rw [split]
  by_cases later : ∃ store ∈ heapStores layout firstFree pages,
      store.table = table ∧ slot store.index = i
  · refine writeAll_of_agreed _ (cells_agree fun store member _ _ =>
      value_of_mem_heapStores pagesBound member) (Or.inr ?_)
    obtain ⟨store, member, sameTable, sameIndex⟩ := later
    exact ⟨store.cell layout, List.mem_map_of_mem member,
      congrArg layout.frame sameTable, sameIndex⟩
  · rw [applyStores, writeAll_of_unwritten]
    · refine writeAll_of_agreed _ (cells_agree ?_) ?_
      · intro store member sameTable sameIndex
        rcases List.mem_append.mp member with high | low
        · exact value_of_mem_highStores high
        · refine value_of_mem_lowStores bound low ?_
          rintro ⟨nullTable, nullIndex⟩
          exact later ⟨⟨.lowBasePml2s 0, 0, 0⟩, List.mem_cons_self,
            nullTable.symm.trans sameTable, nullIndex.symm.trans sameIndex⟩
      · by_cases zero : initialValue layout blocks firstFree pages table i = 0
        · left
          rw [zeroed, zero]
          rfl
        · right
          obtain ⟨store, member, sameTable, sameIndex⟩ :=
            exists_store table i zero
          rcases List.mem_append.mp member with earlier | heap
          · exact ⟨store.cell layout, List.mem_map_of_mem earlier,
              congrArg layout.frame sameTable, sameIndex⟩
          · exact absurd ⟨store, heap, sameTable, sameIndex⟩ later
    · intro cell member
      obtain ⟨store, stored, rfl⟩ := List.mem_map.mp member
      rintro ⟨sameFrame, sameIndex⟩
      exact later ⟨store, stored, layout.distinct _ _ sameFrame, sameIndex⟩

end Contents

/-! ## Entries of the static tables -/

/-- A value that is made of a frame and flags below the page size. -/
theorem toNat_frame_or_access
    {frame access : Nat} (small : frame < 2 ^ 40) (low : access < 4096) :
    (BitVec.ofNat 64 ((frame * 4096) ||| access)).toNat =
      frame * 4096 + access := by
  have joined : (frame <<< 12) ||| access = frame * 2 ^ 12 + access :=
    or_offset low
  rw [Nat.shiftLeft_eq] at joined
  rw [joined, BitVec.toNat_ofNat]
  omega

section Entries

variable {frame access : Nat} (small : frame < 2 ^ 40)
  (low : access < 4096)

include small low

theorem address_frame_or_access :
    address (BitVec.ofNat 64 ((frame * 4096) ||| access)) = frame := by
  rw [address_eq, toNat_frame_or_access small low]
  omega

theorem present_frame_or_access (odd : access % 2 = 1) :
    present (BitVec.ofNat 64 ((frame * 4096) ||| access)) = true := by
  rw [present_eq, toNat_frame_or_access small low, decide_eq_true_iff]
  omega

theorem huge_frame_or_access :
    huge (BitVec.ofNat 64 ((frame * 4096) ||| access)) =
      decide (access / 128 % 2 = 1) := by
  rw [huge_eq, toNat_frame_or_access small low]
  congr 1
  rw [eq_iff_iff]
  omega

end Entries

/-- What `mmu_init` computes as the number of 2 MiB blocks. -/
theorem pml2Count_eq
    {kernelEndAddress : Nat} (bound : kernelEndAddress ≤ 2 ^ 26) :
    pml2Count kernelEndAddress =
      (kernelEndAddress + (2 ^ 24 - 1)) / 2 ^ 24 * 8 := by
  have mask : pmlEntryMask = 511 := rfl
  simp only [pml2Count, pageRound, pageLowMask, pageSize, mask,
    Nat.shiftRight_eq_div_pow]
  omega

/-- `first_free_page` is a page at or behind `kernel_end`. -/
theorem firstFreePage_bounds
    {kernelEnd : Nat} (bound : kernelEnd < 2 ^ 39) :
    kernelEnd ≤ firstFreePage kernelEnd ∧
      firstFreePage kernelEnd < kernelEnd + 4096 ∧
      firstFreePage kernelEnd % 4096 = 0 :=
  pageRound_bounds (by omega)

/-- Below 4 GiB the metadata takes at most 128 pages. -/
theorem metadataPages_le {memsize : Nat} (small : memsize < 2 ^ 32) :
    metadataPages memsize ≤ 128 := by
  simp only [metadataPages, pageRound, metadataSize, pageLowMask, pageSize,
    Nat.shiftRight_eq_div_pow]
  omega

section Outcome

variable {layout : Layout} {kernelEndAddress memsize kernelEnd : Nat}
  {kernel : Kernel}

/-- `mmu_init` returns when `page_allocator_init` does. -/
theorem mmuInit_of_pageAllocatorInit
    (layout : Layout) {allocator : PageAllocator}
    (blocksBound : pml2Count kernelEndAddress ≤ 32)
    (pagesBound : metadataPages memsize ≤ 3 * 512)
    (initialises : pageAllocatorInit (firstFreePage kernelEnd) memsize
      kernel.mm.allocator = some allocator) :
    mmuInit layout kernelEndAddress memsize kernelEnd kernel =
      some
        { mm :=
            { memory := withBitmap (firstFreePage kernelEnd / 4096)
                (metadataPages memsize) allocator
                (applyStores layout kernel.mm.memory
                  (highStores layout ++
                    lowStores layout (pml2Count kernelEndAddress) ++
                    heapStores layout (firstFreePage kernelEnd)
                      (metadataPages memsize)))
              allocator := allocator }
          currentPml4 := mmuToVirt (layout.addressOf .highBasePml4)
          heap :=
            { kernel.heap with
              heapStart := kernelHeapStart + metadataPages memsize * pageSize
              heapEnd := kernelHeapStart + metadataPages memsize * pageSize
              freeBlockList := null
              totalMemory := allocator.totalMemory } } := by
  have heapAccepted : kernelHeapStart ≤
        kernelHeapStart + metadataPages memsize * pageSize ∧
      (kernelHeapStart + metadataPages memsize * pageSize) % pageSize =
        0 := by
    simp only [kernelHeapStart, pageSize]
    omega
  rw [mmuInit, if_pos ⟨blocksBound, pagesBound⟩, initialises,
    Option.bind_some, kheapAllocatorInit, if_pos heapAccepted,
    Option.map_some]

/-- What `mmu_init` leaves behind when it returns. -/
theorem mmuInit_eq_some
    {booted : Kernel}
    (returns : mmuInit layout kernelEndAddress memsize kernelEnd kernel =
      some booted) :
    pageAllocatorInit (firstFreePage kernelEnd) memsize
        kernel.mm.allocator = some booted.mm.allocator ∧
      booted.mm.memory =
        withBitmap (firstFreePage kernelEnd / 4096) (metadataPages memsize)
          booted.mm.allocator
          (applyStores layout kernel.mm.memory
            (highStores layout ++
              lowStores layout (pml2Count kernelEndAddress) ++
              heapStores layout (firstFreePage kernelEnd)
                (metadataPages memsize))) := by
  rw [mmuInit] at returns
  split_ifs at returns
  obtain ⟨allocator, initialised, returns⟩ :=
    Option.bind_eq_some_iff.mp returns
  obtain ⟨heap, -, rfl⟩ := Option.map_eq_some_iff.mp returns
  exact ⟨initialised, rfl⟩

end Outcome

/-- `mmu_init` returns, and leaves the final values in the static tables. -/
theorem mmuInit_spec
    (layout : Layout) {kernelEndAddress memsize kernelEnd : Nat}
    (kernel : Kernel) (blocksBound : pml2Count kernelEndAddress ≤ 32)
    (pagesBound : metadataPages memsize ≤ 3 * 512)
    (kernelEndBound : kernelEnd < 2 ^ 39)
    (zeroed : ∀ table i, kernel.mm.memory (layout.frame table) i = 0)
    (apart : ∀ table,
      layout.frame table < firstFreePage kernelEnd / 4096 ∨
        firstFreePage kernelEnd / 4096 + metadataPages memsize ≤
          layout.frame table) :
    ∃ after,
      mmuInit layout kernelEndAddress memsize kernelEnd kernel =
        some after ∧
      after.currentPml4 = mmuToVirt (layout.addressOf .highBasePml4) ∧
      pageAllocatorInit (firstFreePage kernelEnd) memsize
        kernel.mm.allocator = some after.mm.allocator ∧
      after.heap.heapStart =
        kernelHeapStart + metadataPages memsize * 4096 ∧
      after.heap.heapEnd =
        kernelHeapStart + metadataPages memsize * 4096 ∧
      ∀ table i, after.mm.memory (layout.frame table) i =
        BitVec.ofNat 64 (initialValue layout (pml2Count kernelEndAddress)
          (firstFreePage kernelEnd) (metadataPages memsize) table i) := by
  have bounds := firstFreePage_bounds kernelEndBound
  obtain ⟨allocator, initialises⟩ := pageAllocatorInit_returns
    (show firstFreePage kernelEnd < 2 ^ 63 by omega) memsize
    kernel.mm.allocator
  have equation := mmuInit_of_pageAllocatorInit layout blocksBound pagesBound
    initialises
  refine ⟨_, equation, rfl, initialises, rfl, rfl, ?_⟩
  · intro table i
    have outside : ¬ (firstFreePage kernelEnd / 4096 ≤ layout.frame table ∧
        layout.frame table < firstFreePage kernelEnd / 4096 +
          metadataPages memsize) := by
      have away := apart table
      omega
    exact (if_neg outside).trans
      (applyStores_frame blocksBound pagesBound table i (zeroed table i))

end Kernull.MmuInit
