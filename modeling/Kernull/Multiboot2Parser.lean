import Kernull.Library.ByteMemory
import Mathlib.Data.Finset.Lattice.Fold
import Mathlib.Order.Lattice.Nat
import Mathlib.Order.Nat

/-!
# The multiboot memory map

`multiboot_find_tag` and `multiboot_get_memory_end` of
`kernel/multiboot2_parser.c` over a byte-addressed memory.  The pointer to a
memory map entry is a typed one, so adding `entry_size / 8` to it advances it
by that many entries of 24 bytes: three entries of the tag at a time.  The
walk therefore sees only every third entry.
-/

namespace Kernull.Multiboot2Parser

open Kernull.Library.ByteMemory

/-! ## Fields of tags and entries -/

/-- `MULTIBOOT_TAG_TYPE_END`. -/
def multibootTagTypeEnd : Nat := 0

/-- `MULTIBOOT_TAG_TYPE_MMAP`. -/
def multibootTagTypeMmap : Nat := 6

/-- `MULTIBOOT_MEMORY_AVAILABLE`. -/
def multibootMemoryAvailable : Nat := 1

/-- The size of `struct multiboot_mmap_entry`. -/
def sizeofMmapEntry : Nat := 24

/-- `tag->type`. -/
def tagType (memory : Memory) (tag : Nat) : Nat :=
  readBytes memory tag 4

/-- `tag->size`. -/
def tagSize (memory : Memory) (tag : Nat) : Nat :=
  readBytes memory (tag + 4) 4

/-- `mmap->entry_size`. -/
def mmapEntrySize (memory : Memory) (mmap : Nat) : Nat :=
  readBytes memory (mmap + 8) 4

/-- `mmap->entries`. -/
def mmapEntries (mmap : Nat) : Nat :=
  mmap + 16

/-- `entry->addr`. -/
def entryAddr (memory : Memory) (entry : Nat) : Nat :=
  readBytes memory entry 8

/-- `entry->len`. -/
def entryLen (memory : Memory) (entry : Nat) : Nat :=
  readBytes memory (entry + 8) 8

/-- `entry->type`. -/
def entryType (memory : Memory) (entry : Nat) : Nat :=
  readBytes memory (entry + 16) 4

/-- `entry->addr + entry->len - 1` on `u64`. -/
def entryHighest (memory : Memory) (entry : Nat) : Nat :=
  (entryAddr memory entry + entryLen memory entry + (2 ^ 64 - 1)) % 2 ^ 64

/-! ## The functions of the parser -/

/-- The next tag: the size is rounded up to eight in 32 bits. -/
def nextTag (memory : Memory) (tag : Nat) : Nat :=
  tag + (tagSize memory tag + 7) % 2 ^ 32 / 8 * 8

/--
`multiboot_find_tag`; the outer `none` is a walk that runs out of fuel, the
inner one is `NULL`.
-/
def multibootFindTag (memory : Memory) (wanted : Nat) :
    Nat → Nat → Option (Option Nat)
  | 0, _ => none
  | fuel + 1, tag =>
      if tagType memory tag ≠ multibootTagTypeEnd then
        if tagType memory tag = wanted then some (some tag)
        else multibootFindTag memory wanted fuel (nextTag memory tag)
      else
        some none

/-- The loop of `multiboot_get_memory_end` from one entry on. -/
def memoryEndLoop (memory : Memory) (limit stride : Nat) :
    Nat → Nat → Nat → Option Nat
  | 0, _, _ => none
  | fuel + 1, entry, highest =>
      if entry < limit then
        memoryEndLoop memory limit stride fuel (entry + stride)
          (if entryType memory entry = multibootMemoryAvailable ∧
              highest < entryHighest memory entry then
            entryHighest memory entry
          else
            highest)
      else
        some highest

/--
`multiboot_get_memory_end`.  The result is `none` when a walk does not end
within the fuel, or when there is no memory map to dereference.
-/
def multibootGetMemoryEnd (memory : Memory) (fuel tags : Nat) :
    Option Nat :=
  (multibootFindTag memory multibootTagTypeMmap fuel tags).bind fun found =>
    found.bind fun mmap =>
      memoryEndLoop memory (mmap + tagSize memory mmap)
        (mmapEntrySize memory mmap / 8 * sizeofMmapEntry) fuel
        (mmapEntries mmap) 0

/-! ## Tag lists and memory maps -/

/-- The first tag of a type in the tag list that starts at an address. -/
inductive FirstTag (memory : Memory) (wanted : Nat) : Nat → Nat → Prop
  | here {tag : Nat} : tagType memory tag ≠ multibootTagTypeEnd →
      tagType memory tag = wanted → FirstTag memory wanted tag tag
  | later {tag found : Nat} : tagType memory tag ≠ multibootTagTypeEnd →
      tagType memory tag ≠ wanted →
      FirstTag memory wanted (nextTag memory tag) found →
        FirstTag memory wanted tag found

/-- The address of an entry. -/
def entryAt (mmap entrySize index : Nat) : Nat :=
  mmapEntries mmap + index * entrySize

/-- A memory map tag with a number of entries of a size. -/
structure MemoryMap (memory : Memory) (mmap entrySize count : Nat) :
    Prop where
  entry_size : mmapEntrySize memory mmap = entrySize
  size : tagSize memory mmap = 16 + count * entrySize
  large : 24 ≤ entrySize
  aligned : entrySize % 8 = 0
  unwrapped : ∀ index, index < count →
    entryAddr memory (entryAt mmap entrySize index) +
      entryLen memory (entryAt mmap entrySize index) ≤ 2 ^ 64

/-- An entry of available memory that is not empty. -/
def Usable (memory : Memory) (entry : Nat) : Prop :=
  entryType memory entry = multibootMemoryAvailable ∧
    0 < entryLen memory entry

instance (memory : Memory) (entry : Nat) :
    Decidable (Usable memory entry) :=
  inferInstanceAs (Decidable (_ ∧ _))

/-- The highest address of usable memory, or zero if there is none. -/
def highestUsable (memory : Memory) (mmap entrySize count : Nat) : Nat :=
  ((Finset.range count).filter fun index =>
      Usable memory (entryAt mmap entrySize index)).sup fun index =>
    entryAddr memory (entryAt mmap entrySize index) +
      entryLen memory (entryAt mmap entrySize index) - 1

/-- With enough fuel, the function returns a value. -/
def Returns (memory : Memory) (tags value : Nat) : Prop :=
  ∃ enough, ∀ fuel, enough ≤ fuel →
    multibootGetMemoryEnd memory fuel tags = some value

/--
When the walk finds the maximum: among every third entry, no empty one of
available memory has a predecessor address above the maximum, and one of
available memory ends at the maximum, unless that is zero.
-/
def WalkFindsHighest
    (memory : Memory) (mmap entrySize count : Nat) : Prop :=
  (∀ index, index < count → index % 3 = 0 →
    entryType memory (entryAt mmap entrySize index) =
        multibootMemoryAvailable →
    entryLen memory (entryAt mmap entrySize index) = 0 →
      entryHighest memory (entryAt mmap entrySize index) ≤
        highestUsable memory mmap entrySize count) ∧
  (highestUsable memory mmap entrySize count = 0 ∨
    ∃ index, index < count ∧ index % 3 = 0 ∧
      entryType memory (entryAt mmap entrySize index) =
        multibootMemoryAvailable ∧
      entryHighest memory (entryAt mmap entrySize index) =
        highestUsable memory mmap entrySize count)

/-! ## The walk -/

theorem multibootFindTag_of_firstTag
    {memory : Memory} {wanted tag found : Nat}
    (first : FirstTag memory wanted tag found) :
    ∃ enough, ∀ fuel, enough ≤ fuel →
      multibootFindTag memory wanted fuel tag = some (some found) := by
  induction first with
  | here running isWanted =>
      refine ⟨1, fun fuel bound => ?_⟩
      obtain ⟨fuel, rfl⟩ := Nat.exists_eq_add_of_le' bound
      rw [multibootFindTag, if_pos running, if_pos isWanted]
  | later running notWanted _ inductionHypothesis =>
      obtain ⟨enough, finds⟩ := inductionHypothesis
      refine ⟨enough + 1, fun fuel bound => ?_⟩
      obtain ⟨fuel, rfl⟩ :=
        Nat.exists_eq_add_of_le' (Nat.le_trans (Nat.le_add_left 1 _) bound)
      rw [multibootFindTag, if_pos running, if_neg notWanted]
      exact finds fuel (Nat.le_of_succ_le_succ bound)

/-- What a visited entry contributes to the result. -/
def contribution (memory : Memory) (entry : Nat) : Nat :=
  if entryType memory entry = multibootMemoryAvailable then
    entryHighest memory entry
  else
    0

/-- The entries visited from one on: every third. -/
def visitedFrom (count start : Nat) : Finset Nat :=
  (Finset.range count).filter fun index =>
    start ≤ index ∧ (index - start) % 3 = 0

theorem visitedFrom_step {count start : Nat} (inside : start < count) :
    visitedFrom count start =
      insert start (visitedFrom count (start + 3)) := by
  ext index
  simp only [visitedFrom, Finset.mem_filter, Finset.mem_range,
    Finset.mem_insert]
  omega

theorem visitedFrom_of_le {count start : Nat} (outside : count ≤ start) :
    visitedFrom count start = ∅ := by
  ext index
  simp only [visitedFrom, Finset.mem_filter, Finset.mem_range,
    Finset.notMem_empty, iff_false]
  omega

/-- One visited entry raises the running maximum. -/
theorem update_eq_max (memory : Memory) (entry highest : Nat) :
    (if entryType memory entry = multibootMemoryAvailable ∧
        highest < entryHighest memory entry then
      entryHighest memory entry
    else
      highest) = max highest (contribution memory entry) := by
  rw [contribution]
  by_cases available : entryType memory entry = multibootMemoryAvailable
  · simp only [available, true_and, if_true]
    split_ifs <;> omega
  · simp [available]

namespace MemoryMap

variable {memory : Memory} {mmap entrySize count : Nat}

/-- The pointer advances by three entries of the tag. -/
theorem stride (isMap : MemoryMap memory mmap entrySize count) :
    mmapEntrySize memory mmap / 8 * sizeofMmapEntry = 3 * entrySize := by
  have aligned := isMap.aligned
  rw [isMap.entry_size, sizeofMmapEntry]
  omega

/-- The loop ends at the last entry. -/
theorem entryAt_lt_iff (isMap : MemoryMap memory mmap entrySize count)
    (index : Nat) :
    entryAt mmap entrySize index < mmap + tagSize memory mmap ↔
      index < count := by
  have large := isMap.large
  have scaled : index * entrySize < count * entrySize ↔ index < count :=
    Nat.mul_lt_mul_right (by omega)
  rw [isMap.size, entryAt, mmapEntries, ← scaled]
  omega

/-- The loop from an entry on, with enough fuel. -/
theorem memoryEndLoop_eq (isMap : MemoryMap memory mmap entrySize count)
    {fuel start : Nat} (highest : Nat) (positive : 0 < fuel)
    (enough : count + 3 ≤ start + 3 * fuel) :
    memoryEndLoop memory (mmap + tagSize memory mmap) (3 * entrySize) fuel
        (entryAt mmap entrySize start) highest =
      some (max highest ((visitedFrom count start).sup fun index =>
        contribution memory (entryAt mmap entrySize index))) := by
  induction fuel generalizing start highest with
  | zero => exact absurd positive (Nat.lt_irrefl 0)
  | succ fuel inductionHypothesis =>
      rw [memoryEndLoop]
      by_cases inside : start < count
      · have next : entryAt mmap entrySize start + 3 * entrySize =
            entryAt mmap entrySize (start + 3) := by
          rw [entryAt, entryAt, Nat.add_mul]
          omega
        rw [if_pos ((isMap.entryAt_lt_iff start).mpr inside), next,
          update_eq_max, inductionHypothesis _ (by omega) (by omega),
          visitedFrom_step inside, Finset.sup_insert, max_assoc]
      · rw [if_neg (mt (isMap.entryAt_lt_iff start).mp inside),
          visitedFrom_of_le (Nat.not_lt.mp inside), Finset.sup_empty]
        exact congrArg some (Nat.max_zero highest).symm

/-- What the function returns: the maximum over every third entry. -/
theorem returns_visited (isMap : MemoryMap memory mmap entrySize count)
    {tags : Nat} (first : FirstTag memory multibootTagTypeMmap tags mmap) :
    Returns memory tags ((visitedFrom count 0).sup fun index =>
      contribution memory (entryAt mmap entrySize index)) := by
  obtain ⟨enough, finds⟩ := multibootFindTag_of_firstTag first
  refine ⟨enough + count + 1, fun fuel bound => ?_⟩
  have start : mmapEntries mmap = entryAt mmap entrySize 0 := by
    rw [entryAt, Nat.zero_mul, Nat.add_zero]
  rw [multibootGetMemoryEnd, finds fuel (by omega), Option.bind_some,
    Option.bind_some, isMap.stride, start,
    isMap.memoryEndLoop_eq 0 (by omega) (by omega), Nat.zero_max]

/-- An entry that is not empty ends where its region ends. -/
theorem entryHighest_of_usable
    (isMap : MemoryMap memory mmap entrySize count) {index : Nat}
    (inside : index < count)
    (nonempty : 0 < entryLen memory (entryAt mmap entrySize index)) :
    entryHighest memory (entryAt mmap entrySize index) =
      entryAddr memory (entryAt mmap entrySize index) +
        entryLen memory (entryAt mmap entrySize index) - 1 := by
  have unwrapped := isMap.unwrapped index inside
  rw [entryHighest]
  omega

/-- No usable entry ends above the highest usable address. -/
theorem le_highestUsable
    (isMap : MemoryMap memory mmap entrySize count) {index : Nat}
    (inside : index < count)
    (usable : Usable memory (entryAt mmap entrySize index)) :
    entryHighest memory (entryAt mmap entrySize index) ≤
      highestUsable memory mmap entrySize count := by
  rw [isMap.entryHighest_of_usable inside usable.2]
  exact Finset.le_sup
    (f := fun index =>
      entryAddr memory (entryAt mmap entrySize index) +
        entryLen memory (entryAt mmap entrySize index) - 1)
    (Finset.mem_filter.mpr ⟨Finset.mem_range.mpr inside, usable⟩)

theorem visited_le_iff
    (isMap : MemoryMap memory mmap entrySize count) :
    ((visitedFrom count 0).sup fun index =>
        contribution memory (entryAt mmap entrySize index)) ≤
      highestUsable memory mmap entrySize count ↔
    ∀ index, index < count → index % 3 = 0 →
      entryType memory (entryAt mmap entrySize index) =
          multibootMemoryAvailable →
      entryLen memory (entryAt mmap entrySize index) = 0 →
        entryHighest memory (entryAt mmap entrySize index) ≤
          highestUsable memory mmap entrySize count := by
  rw [Finset.sup_le_iff]
  constructor
  · intro bounded index inside third available _
    have below := bounded index (by
      simp only [visitedFrom, Finset.mem_filter, Finset.mem_range]
      omega)
    rwa [contribution, if_pos available] at below
  · intro bounded index visited
    simp only [visitedFrom, Finset.mem_filter, Finset.mem_range,
      Nat.zero_le, Nat.sub_zero, true_and] at visited
    rw [contribution]
    split_ifs with available
    · rcases Nat.eq_zero_or_pos
          (entryLen memory (entryAt mmap entrySize index)) with
        empty | nonempty
      · exact bounded index visited.1 visited.2 available empty
      · exact isMap.le_highestUsable visited.1 ⟨available, nonempty⟩
    · exact Nat.zero_le _

/-- The walk reaches the maximum. -/
theorem le_visited_iff {highest : Nat} (positive : 0 < highest) :
    highest ≤ ((visitedFrom count 0).sup fun index =>
        contribution memory (entryAt mmap entrySize index)) ↔
    ∃ index, index < count ∧ index % 3 = 0 ∧
      entryType memory (entryAt mmap entrySize index) =
        multibootMemoryAvailable ∧
      highest ≤ entryHighest memory (entryAt mmap entrySize index) := by
  rw [Finset.le_sup_iff positive]
  constructor
  · rintro ⟨index, visited, reached⟩
    simp only [visitedFrom, Finset.mem_filter, Finset.mem_range,
      Nat.zero_le, Nat.sub_zero, true_and] at visited
    rw [contribution] at reached
    split_ifs at reached with available
    · exact ⟨index, visited.1, visited.2, available, reached⟩
    · exact absurd reached (Nat.not_le.mpr positive)
  · rintro ⟨index, inside, third, available, reached⟩
    refine ⟨index, ?_, ?_⟩
    · simp only [visitedFrom, Finset.mem_filter, Finset.mem_range]
      omega
    · rwa [contribution, if_pos available]

end MemoryMap

/-- A function returns one value. -/
theorem Returns.unique
    {memory : Memory} {tags left right : Nat}
    (returnsLeft : Returns memory tags left)
    (returnsRight : Returns memory tags right) : left = right := by
  obtain ⟨enoughLeft, left⟩ := returnsLeft
  obtain ⟨enoughRight, right⟩ := returnsRight
  have same := (left (max enoughLeft enoughRight) (le_max_left _ _)).symm.trans
    (right _ (le_max_right _ _))
  exact Option.some.inj same

/--
The function returns the highest address of usable memory exactly when the
walk over every third entry finds it.
-/
theorem memory_end_is_highest_iff
    {memory : Memory} {tags mmap entrySize count : Nat}
    (first : FirstTag memory multibootTagTypeMmap tags mmap)
    (isMap : MemoryMap memory mmap entrySize count) :
    Returns memory tags (highestUsable memory mmap entrySize count) ↔
      WalkFindsHighest memory mmap entrySize count := by
  have returned := isMap.returns_visited first
  constructor
  · intro returns
    have same := returned.unique returns
    refine ⟨isMap.visited_le_iff.mp (Nat.le_of_eq same), ?_⟩
    rcases Nat.eq_zero_or_pos
        (highestUsable memory mmap entrySize count) with none | positive
    · exact Or.inl none
    · obtain ⟨index, inside, third, available, reached⟩ :=
        (MemoryMap.le_visited_iff positive).mp (Nat.le_of_eq same.symm)
      have bounded :=
        ((MemoryMap.le_visited_iff (Nat.lt_of_lt_of_le positive
          reached)).mpr ⟨index, inside, third, available, Nat.le_refl _⟩)
      exact Or.inr ⟨index, inside, third, available,
        Nat.le_antisymm (same ▸ bounded) reached⟩
  · rintro ⟨emptyBounded, attained⟩
    have upper := isMap.visited_le_iff.mpr emptyBounded
    have lower : highestUsable memory mmap entrySize count ≤
        (visitedFrom count 0).sup fun index =>
          contribution memory (entryAt mmap entrySize index) := by
      rcases attained with none | ⟨index, inside, third, available, ends⟩
      · rw [none]
        exact Nat.zero_le _
      · rcases Nat.eq_zero_or_pos
            (highestUsable memory mmap entrySize count) with
          none | positive
        · rw [none]
          exact Nat.zero_le _
        · exact (MemoryMap.le_visited_iff positive).mpr
            ⟨index, inside, third, available, Nat.le_of_eq ends.symm⟩
    rwa [Nat.le_antisymm upper lower] at returned

/-! ## A memory map the walk reads wrongly -/

/--
A tag list with a memory map of two entries, 64 KiB of reserved memory and
64 KiB of available memory after it, and the end tag.
-/
def skippedEntry : Memory := fun address =>
  ([6, 0, 0, 0, 64, 0, 0, 0, 24, 0, 0, 0, 0, 0, 0, 0,
    0, 0, 0, 0, 0, 0, 0, 0, 0, 0, 1, 0, 0, 0, 0, 0, 2, 0, 0, 0, 0, 0, 0, 0,
    0, 0, 1, 0, 0, 0, 0, 0, 0, 0, 1, 0, 0, 0, 0, 0, 1, 0, 0, 0, 0, 0, 0, 0,
    0, 0, 0, 0, 8, 0, 0, 0] : List (BitVec 8)).getD address 0

theorem firstTag_skippedEntry :
    FirstTag skippedEntry multibootTagTypeMmap 0 0 :=
  .here (by decide) (by decide)

theorem memoryMap_skippedEntry : MemoryMap skippedEntry 0 24 2 where
  entry_size := by decide
  size := by decide
  large := Nat.le_refl 24
  aligned := by decide
  unwrapped := by decide +kernel

/-- The only usable entry of the map is the second, which is not visited. -/
theorem usable_entry_skipped :
    ¬ ∀ memory tags mmap entrySize count,
      FirstTag memory multibootTagTypeMmap tags mmap →
      MemoryMap memory mmap entrySize count →
        Returns memory tags
          (highestUsable memory mmap entrySize count) := by
  intro always
  obtain ⟨enough, returns⟩ := always skippedEntry 0 0 24 2
    firstTag_skippedEntry memoryMap_skippedEntry
  obtain ⟨enough', visited⟩ := memoryMap_skippedEntry.returns_visited
    firstTag_skippedEntry
  have same := Returns.unique ⟨enough, returns⟩ ⟨enough', visited⟩
  revert same
  decide +kernel

/-- The same map with its entries exchanged is read correctly. -/
def leadingEntry : Memory := fun address =>
  ([6, 0, 0, 0, 64, 0, 0, 0, 24, 0, 0, 0, 0, 0, 0, 0,
    0, 0, 1, 0, 0, 0, 0, 0, 0, 0, 1, 0, 0, 0, 0, 0, 1, 0, 0, 0, 0, 0, 0, 0,
    0, 0, 0, 0, 0, 0, 0, 0, 0, 0, 1, 0, 0, 0, 0, 0, 2, 0, 0, 0, 0, 0, 0, 0,
    0, 0, 0, 0, 8, 0, 0, 0] : List (BitVec 8)).getD address 0

theorem memory_end_of_leadingEntry :
    highestUsable leadingEntry 0 24 2 = 0x1FFFF ∧
      Returns leadingEntry 0 0x1FFFF := by
  have highest : highestUsable leadingEntry 0 24 2 = 0x1FFFF := by
    decide +kernel
  refine ⟨highest, ?_⟩
  have isMap : MemoryMap leadingEntry 0 24 2 :=
    { entry_size := by decide
      size := by decide
      large := Nat.le_refl 24
      aligned := by decide
      unwrapped := by decide +kernel }
  rw [← highest]
  apply (memory_end_is_highest_iff (.here (by decide) (by decide)) isMap).mpr
  constructor
  · intro index below third _ empty
    obtain rfl : index = 0 := by omega
    exact absurd empty (by decide +kernel)
  · right
    exact ⟨0, by decide, rfl, by decide +kernel, highest.symm ▸ by
      decide +kernel⟩

end Kernull.Multiboot2Parser
