import Kernull.InitialAddressSpace

/-!
# The tree of the static tables

After `mmu_init` the static tables that can be reached from `high_base_pml4`
form a tree: every one of them is reached along one path only.  The large
pages of the high region end its walks, and in the heap region no walk meets a
large page.
-/

namespace Kernull.InitialTree

open Kernull.Mm
open Kernull.Pml
open Kernull.PageTables
open Kernull.PageWalkers
open Kernull.MapAddr
open Kernull.MmuInit
open Kernull.InitialAddressSpace
open Kernull.Library.RadixTree

/-- The numerals among the slots of a table. -/
local instance neZero_slots : NeZero 512 :=
  ⟨by decide⟩

/-- The numerals among the low PML4s. -/
local instance neZero_lowBasePml4s : NeZero 2 :=
  ⟨by decide⟩

/-- The path along which a static table is reached. -/
def pathOf : StaticTable → List (Fin 512)
  | .highBasePml4 => []
  | .highBasePml3 => [511]
  | .highBasePml2s i => [511, i.castLE (by decide)]
  | .lowBasePml4s i => if i = 0 then [0] else [0, 0]
  | .lowBasePml2s j => [0, 0, j.castLE (by decide)]
  | .heapBasePml3 => [510]
  | .heapBasePml2 => [510, 0]
  | .heapBasePml1 k => [510, 0, k.castLE (by decide)]

section Tree

variable {layout : Layout} {memory : TableMemory}
  {blocks firstFree pages : Nat}

/-- A link leads to its table. -/
theorem child_link
    (table : StaticTable) {access : Nat} (flags : access < 4096) :
    pmlShape.child (BitVec.ofNat 64 (layout.addressOf table ||| access)) =
      layout.frame table := by
  rw [← tableFrame_link table flags, tableFrame_nextTable]
  rfl

/-- The pages of the high region are large. -/
theorem huge_highBasePml2s (i : Fin 64) (j : Fin 512) :
    huge (BitVec.ofNat 64 (initialValue layout blocks firstFree pages
      (.highBasePml2s i) j)) = true := by
  have value : initialValue layout blocks firstFree pages
      (.highBasePml2s i) j =
        ((i.val * 2 ^ 18 + j.val * 2 ^ 9) * 4096) ||| 0x83 := by
    rw [initialValue, Nat.or_assoc, Nat.add_mul, Nat.mul_assoc,
      Nat.mul_assoc]
    rfl
  rw [value, huge_frame_or_access (by omega) (by decide)]
  rfl

/-- The large pages of the third level end a walk. -/
theorem stops_two (entry : PmlEntry) :
    pmlShape.stops 2 entry = huge entry :=
  Bool.true_and _

/-- An entry that is not zero is the one that was stored. -/
theorem value_of_present {condition : Prop} [Decidable condition]
    {value : Nat}
    (entry : present (BitVec.ofNat 64 (if condition then value else 0)) =
      true) :
    condition := by
  by_contra fails
  rw [if_neg fails] at entry
  exact absurd (entry.symm.trans present_zero) (by decide)

/-- Above the last level the entries of a static table lead to others. -/
theorem child_static
    (initial : InitialTables layout memory blocks firstFree pages)
    (blocksBound : blocks ≤ 32) {table : StaticTable} {i : Fin 512}
    (above : (pathOf table).length < 3)
    (present : pmlShape.present (memory (layout.frame table) i) = true)
    (goesOn : pmlShape.stops (pathOf table).length
      (memory (layout.frame table) i) = false) :
    ∃ below, pmlShape.child (memory (layout.frame table) i) =
        layout.frame below ∧
      pathOf below = pathOf table ++ [i] := by
  rw [initial] at present goesOn ⊢
  cases table with
  | highBasePml4 =>
      simp only [initialValue] at present goesOn ⊢
      by_cases high : i.val = 511
      · rw [if_pos high]
        exact ⟨.highBasePml3, child_link _ (by decide),
          congrArg (fun index => [index]) (Fin.ext high.symm)⟩
      · rw [if_neg high] at present goesOn ⊢
        by_cases heap : i.val = 510
        · rw [if_pos heap]
          exact ⟨.heapBasePml3, child_link _ (by decide),
            congrArg (fun index => [index]) (Fin.ext heap.symm)⟩
        · rw [if_neg heap] at present goesOn ⊢
          have low := value_of_present present
          rw [if_pos low]
          exact ⟨.lowBasePml4s 0, child_link _ (by decide),
            congrArg (fun index => [index]) (Fin.ext low.symm)⟩
  | highBasePml3 =>
      by_cases inside : i.val < 64
      · simp only [initialValue, dif_pos inside]
        exact ⟨.highBasePml2s ⟨i.val, inside⟩, child_link _ (by decide), rfl⟩
      · simp only [initialValue, dif_neg inside] at present
        exact absurd (present.symm.trans present_zero) (by decide)
  | highBasePml2s block =>
      have depth : (pathOf (.highBasePml2s block)).length = 2 := rfl
      rw [depth, stops_two, huge_highBasePml2s] at goesOn
      exact absurd goesOn (by decide)
  | lowBasePml4s level =>
      simp only [initialValue] at present ⊢
      by_cases upper : level = 0
      · rw [if_pos upper] at present ⊢
        have first := value_of_present present
        rw [if_pos first]
        refine ⟨.lowBasePml4s 1, child_link _ (by decide), ?_⟩
        rw [pathOf, pathOf, if_pos upper, if_neg (by decide)]
        exact congrArg (fun index => [0, index]) (Fin.ext first.symm)
      · rw [if_neg upper] at present ⊢
        have inside := value_of_present present
        rw [if_pos inside]
        refine ⟨.lowBasePml2s (Fin.ofNat 32 i.val),
          child_link _ (by decide), ?_⟩
        have inArray : i.val % 32 = i.val := by omega
        rw [pathOf, pathOf, if_neg upper]
        exact congrArg (fun index => [0, 0, index]) (Fin.ext inArray)
  | lowBasePml2s block => exact absurd above (by simp [pathOf])
  | heapBasePml3 =>
      simp only [initialValue] at present ⊢
      have first := value_of_present present
      rw [if_pos first]
      exact ⟨.heapBasePml2, child_link _ (by decide),
        congrArg (fun index => [510, index]) (Fin.ext first.symm)⟩
  | heapBasePml2 =>
      by_cases inside : i.val < 3
      · simp only [initialValue, dif_pos inside]
        exact ⟨.heapBasePml1 ⟨i.val, inside⟩, child_link _ (by decide), rfl⟩
      · simp only [initialValue, dif_neg inside] at present
        exact absurd (present.symm.trans present_zero) (by decide)
  | heapBasePml1 page => exact absurd above (by simp [pathOf])

/-- Paths from a static table lead to static tables. -/
theorem tableAt_static
    (initial : InitialTables layout memory blocks firstFree pages)
    (blocksBound : blocks ≤ 32) {table : StaticTable}
    {path : List (Fin 512)} {other : Nat}
    (short : (pathOf table).length + path.length ≤ 3)
    (reaches : tableAt pmlShape memory (pathOf table).length
      (layout.frame table) path = some other) :
    ∃ final, other = layout.frame final ∧
      pathOf final = pathOf table ++ path := by
  induction path generalizing table with
  | nil =>
      exact ⟨table, (Option.some.inj reaches).symm,
        (List.append_nil _).symm⟩
  | cons index path inductionHypothesis =>
      rw [List.length_cons] at short
      obtain ⟨present, goesOn, reachesBelow⟩ := tableAt_cons_some reaches
      obtain ⟨below, child, longer⟩ := child_static initial blocksBound
        (by omega) present goesOn
      have deeper : (pathOf below).length = (pathOf table).length + 1 := by
        rw [longer, List.length_append, List.length_singleton]
      rw [child, ← deeper] at reachesBelow
      obtain ⟨final, same, path⟩ :=
        inductionHypothesis (by omega) reachesBelow
      exact ⟨final, same, by rw [path, longer, List.append_assoc]; rfl⟩

/-- The static tables form a tree. -/
theorem pageTree_of_initialTables
    (initial : InitialTables layout memory blocks firstFree pages)
    (blocksBound : blocks ≤ 32) {fresh : List Nat}
    (outside : ∀ table, layout.frame table ∉ fresh) :
    PageTree memory (mmuToVirt (layout.addressOf .highBasePml4)) fresh := by
  have origin : ∀ path other, path.length ≤ 3 →
      tableAt pmlShape memory 0 (layout.frame .highBasePml4) path =
        some other →
      ∃ final, other = layout.frame final ∧ pathOf final = path := by
    intro path other short reaches
    have start : (pathOf .highBasePml4).length = 0 := rfl
    rw [← start] at reaches
    exact tableAt_static initial blocksBound (by omega) reaches
  constructor
  · rw [tableFrame_root]
    intro left right other leftShort rightShort leftReaches rightReaches
    obtain ⟨leftTable, leftFrame, rfl⟩ := origin left other leftShort
      leftReaches
    obtain ⟨rightTable, rightFrame, rfl⟩ := origin right other rightShort
      rightReaches
    exact congrArg pathOf
      (layout.distinct _ _ (leftFrame.symm.trans rightFrame))
  · rw [tableFrame_root]
    intro path other short reaches
    obtain ⟨table, rfl, -⟩ := origin path other short reaches
    exact outside table

/-- The heap region has no large pages. -/
theorem heap_noHuge
    (initial : InitialTables layout memory blocks firstFree pages)
    {virtAddr : Nat} (inHeap : pml4Index virtAddr = 510) :
    ¬ MeetsHuge memory (mmuToVirt (layout.addressOf .highBasePml4))
      virtAddr := by
  rintro ⟨-, p3, meets⟩
  have first : pml3Index virtAddr = 0 := by
    rw [pml3Entry_heap initial inHeap, initialValue] at p3
    exact value_of_present p3
  rcases meets with h3 | ⟨p2, h2⟩
  · rw [pml3Entry_heap_first initial inHeap first,
      huge_link _ (by decide)] at h3
    exact absurd h3 (by decide)
  · by_cases inTables : pml2Index virtAddr < 3
    · rw [pml2Entry_heap_mapped initial inHeap first inTables,
        huge_link _ (by decide)] at h2
      exact absurd h2 (by decide)
    · rw [pml2Entry_heap initial inHeap first, initialValue,
        dif_neg inTables] at p2
      exact absurd (p2.symm.trans present_zero) (by decide)

end Tree

end Kernull.InitialTree
