import Kernull.Multiboot2Parser

/-!
# The parser on arbitrary boot information

The functions of the parser with every read checked against the information
area: a run of the checked functions gets stuck where the source reads outside
the area or dereferences `NULL`, and where it goes on for ever.  The contents
of the area on which the parser ends safely are described exactly: the headers
lead to a memory map tag, and the entries that are visited lie in the area.
-/

namespace Kernull.MultibootSafety

open Kernull.Library.ByteMemory
open Kernull.Multiboot2Parser

/-! ## Checked reads -/

/-- The size of the area, as its header announces it. -/
def totalSize (memory : Memory) (start : Nat) : Nat :=
  readBytes memory start 4

/-- The bytes of a field lie in the area. -/
def Covers (memory : Memory) (start address width : Nat) : Prop :=
  start ≤ address ∧ address + width ≤ start + totalSize memory start

instance (memory : Memory) (start address width : Nat) :
    Decidable (Covers memory start address width) :=
  inferInstanceAs (Decidable (_ ∧ _))

/-- A read that is stuck outside the area. -/
def readIn (memory : Memory) (start address width : Nat) : Option Nat :=
  if Covers memory start address width then
    some (readBytes memory address width)
  else
    none

/-- `multiboot_find_tag` with checked reads. -/
def findTagIn (memory : Memory) (start wanted : Nat) :
    Nat → Nat → Option (Option Nat)
  | 0, _ => none
  | fuel + 1, tag => do
      let type ← readIn memory start tag 4
      if type ≠ multibootTagTypeEnd then
        if type = wanted then
          some (some tag)
        else do
          let size ← readIn memory start (tag + 4) 4
          findTagIn memory start wanted fuel
            (tag + (size + 7) % 2 ^ 32 / 8 * 8)
      else
        some none

/--
The loop of `multiboot_get_memory_end` with checked reads: the size of the tag
is read before each entry and the size of an entry behind each.
-/
def memoryEndLoopIn (memory : Memory) (start mmap : Nat) :
    Nat → Nat → Nat → Option Nat
  | 0, _, _ => none
  | fuel + 1, entry, highest => do
      let size ← readIn memory start (mmap + 4) 4
      if entry < mmap + size then do
        let addr ← readIn memory start entry 8
        let len ← readIn memory start (entry + 8) 8
        let type ← readIn memory start (entry + 16) 4
        let entrySize ← readIn memory start (mmap + 8) 4
        let entryEnd := (addr + len + (2 ^ 64 - 1)) % 2 ^ 64
        memoryEndLoopIn memory start mmap fuel
          (entry + entrySize / 8 * sizeofMmapEntry)
          (if type = multibootMemoryAvailable ∧ highest < entryEnd then
            entryEnd
          else
            highest)
      else
        some highest

/--
`multiboot_get_memory_end` with checked reads, on the tags behind the header of
the area; a missing tag is stuck, since its size is read through `NULL`.
-/
def memoryEndIn (memory : Memory) (start fuel : Nat) : Option Nat := do
  let found ← findTagIn memory start multibootTagTypeMmap fuel (start + 8)
  let mmap ← found
  memoryEndLoopIn memory start mmap fuel (mmapEntries mmap) 0

/--
The parser ends, having read nothing outside the area and nothing through
`NULL`.
-/
def EndsSafely (memory : Memory) (start : Nat) : Prop :=
  ∃ fuel value, memoryEndIn memory start fuel = some value

/-- The headers lead to a memory map tag, all of them in the area. -/
inductive ReachesMap (memory : Memory) (start : Nat) : Nat → Nat → Prop
  | here {tag : Nat} :
      Covers memory start tag 4 →
      tagType memory tag = multibootTagTypeMmap →
        ReachesMap memory start tag tag
  | later {tag mmap : Nat} :
      Covers memory start tag 8 →
      tagType memory tag ≠ multibootTagTypeEnd →
      tagType memory tag ≠ multibootTagTypeMmap →
      ReachesMap memory start (nextTag memory tag) mmap →
        ReachesMap memory start tag mmap

/-- How far the walk moves from one entry to the next. -/
def stride (memory : Memory) (mmap : Nat) : Nat :=
  mmapEntrySize memory mmap / 8 * sizeofMmapEntry

/-- The entries that the walk visits. -/
def visitedEntry (memory : Memory) (mmap k : Nat) : Nat :=
  mmapEntries mmap + k * stride memory mmap

/--
The size of the tag is in the area, the walk moves if it starts at all, and all
the fields that it reads of an entry are in the area.
-/
structure MapInside (memory : Memory) (start mmap : Nat) : Prop where
  header : Covers memory start mmap 8
  moves : 16 < tagSize memory mmap → 8 ≤ mmapEntrySize memory mmap
  entries : ∀ k,
    visitedEntry memory mmap k < mmap + tagSize memory mmap →
      Covers memory start (visitedEntry memory mmap k) 20

/-! ## The search for the memory map -/

section Search

variable {memory : Memory} {start address width value : Nat}

theorem readIn_eq_some :
    readIn memory start address width = some value ↔
      Covers memory start address width ∧
        readBytes memory address width = value := by
  rw [readIn]
  split_ifs with covers
  · rw [Option.some_inj, and_iff_right covers]
  · simp [covers]

theorem readIn_of_covers (covers : Covers memory start address width) :
    readIn memory start address width =
      some (readBytes memory address width) :=
  if_pos covers

/-- A header in the area has its type and its size in the area. -/
theorem covers_header (covers : Covers memory start address 8) :
    Covers memory start address 4 ∧ Covers memory start (address + 4) 4 := by
  simp only [Covers] at covers ⊢
  omega

theorem covers_of_fields
    (type : Covers memory start address 4)
    (size : Covers memory start (address + 4) 4) :
    Covers memory start address 8 := by
  simp only [Covers] at type size ⊢
  omega

/-- A search that is not stuck has followed headers in the area. -/
theorem reachesMap_of_findTagIn
    {fuel tag mmap : Nat}
    (run :
      findTagIn memory start multibootTagTypeMmap fuel tag =
        some (some mmap)) :
    ReachesMap memory start tag mmap := by
  induction fuel generalizing tag with
  | zero => exact nomatch run
  | succ fuel inductionHypothesis =>
      rw [findTagIn] at run
      rcases Option.bind_eq_some_iff.mp run with ⟨type, typeRead, run⟩
      rcases readIn_eq_some.mp typeRead with ⟨typeCovers, same⟩
      subst same
      split_ifs at run with running isMap
      · rw [Option.some_inj, Option.some_inj] at run
        subst run
        exact .here typeCovers isMap
      · rcases Option.bind_eq_some_iff.mp run with ⟨size, sizeRead, run⟩
        rcases readIn_eq_some.mp sizeRead with ⟨sizeCovers, same⟩
        subst same
        exact
          .later (covers_of_fields typeCovers sizeCovers) running isMap
            (inductionHypothesis run)
      · exact nomatch Option.some_inj.mp run

/-- Headers in the area that lead to a memory map are followed. -/
theorem findTagIn_of_reachesMap
    {tag mmap : Nat} (reaches : ReachesMap memory start tag mmap) :
    ∃ enough, ∀ fuel, enough ≤ fuel →
      findTagIn memory start multibootTagTypeMmap fuel tag =
        some (some mmap) := by
  induction reaches with
  | @here tag covers isMap =>
      have running : readBytes memory tag 4 ≠ multibootTagTypeEnd := by
        rw [show readBytes memory tag 4 = multibootTagTypeMmap from isMap]
        decide
      refine ⟨1, ?_⟩
      intro fuel bound
      rcases Nat.exists_eq_add_of_le' bound with ⟨fuel, same⟩
      subst same
      rw [findTagIn, readIn_of_covers covers]
      simp only [Option.bind_eq_bind, Option.bind_some, if_pos running]
      exact if_pos isMap
  | @later tag mmap covers running notMap _ inductionHypothesis =>
      rcases inductionHypothesis with ⟨enough, finds⟩
      rcases covers_header covers with ⟨typeCovers, sizeCovers⟩
      refine ⟨enough + 1, ?_⟩
      intro fuel bound
      rcases Nat.exists_eq_add_of_le'
          (Nat.le_trans (Nat.le_add_left 1 enough) bound) with
        ⟨fuel, same⟩
      subst same
      rw [tagType] at running notMap
      rw [findTagIn, readIn_of_covers typeCovers,
        readIn_of_covers sizeCovers]
      simp only [Option.bind_eq_bind, Option.bind_some, if_pos running,
        if_neg notMap]
      exact finds fuel (Nat.le_of_succ_le_succ bound)

end Search

/-! ## The walk through the entries -/

section Walk

variable {memory : Memory} {start mmap : Nat}

theorem visitedEntry_succ (memory : Memory) (mmap k : Nat) :
    visitedEntry memory mmap (k + 1) =
      visitedEntry memory mmap k + stride memory mmap := by
  rw [visitedEntry, visitedEntry, Nat.succ_mul, Nat.add_assoc]

/-- The fields of an entry that are read. -/
theorem covers_entry {entry : Nat} :
    Covers memory start entry 20 ↔
      Covers memory start entry 8 ∧ Covers memory start (entry + 8) 8 ∧
        Covers memory start (entry + 16) 4 := by
  simp only [Covers]
  omega

/--
What one round of the walk needs: it stops, or all of its reads are in the area
and it goes on at the next entry.
-/
theorem memoryEndLoopIn_succ
    {fuel k highest value : Nat}
    (sizeCovers : Covers memory start (mmap + 4) 4) :
    memoryEndLoopIn memory start mmap (fuel + 1)
        (visitedEntry memory mmap k) highest = some value ↔
      if visitedEntry memory mmap k < mmap + tagSize memory mmap then
        Covers memory start (visitedEntry memory mmap k) 20 ∧
          Covers memory start (mmap + 8) 4 ∧
          memoryEndLoopIn memory start mmap fuel
            (visitedEntry memory mmap (k + 1))
            (if entryType memory (visitedEntry memory mmap k) =
                  multibootMemoryAvailable ∧
                highest <
                  entryHighest memory (visitedEntry memory mmap k) then
              entryHighest memory (visitedEntry memory mmap k)
            else
              highest) = some value
      else
        highest = value := by
  rw [memoryEndLoopIn, readIn_of_covers sizeCovers]
  simp only [Option.bind_eq_bind, Option.bind_some]
  have size : readBytes memory (mmap + 4) 4 = tagSize memory mmap := rfl
  rw [size]
  by_cases inside :
      visitedEntry memory mmap k < mmap + tagSize memory mmap
  · rw [if_pos inside, if_pos inside, visitedEntry_succ, covers_entry]
    constructor
    · intro run
      rcases Option.bind_eq_some_iff.mp run with ⟨addr, addrRead, run⟩
      rcases Option.bind_eq_some_iff.mp run with ⟨len, lenRead, run⟩
      rcases Option.bind_eq_some_iff.mp run with ⟨type, typeRead, run⟩
      rcases Option.bind_eq_some_iff.mp run with ⟨entrySize, sizeRead, run⟩
      rcases readIn_eq_some.mp addrRead with ⟨addrCovers, addrSame⟩
      rcases readIn_eq_some.mp lenRead with ⟨lenCovers, lenSame⟩
      rcases readIn_eq_some.mp typeRead with ⟨typeCovers, typeSame⟩
      rcases readIn_eq_some.mp sizeRead with ⟨entrySizeCovers, sizeSame⟩
      subst addrSame lenSame typeSame sizeSame
      exact ⟨⟨addrCovers, lenCovers, typeCovers⟩, entrySizeCovers, run⟩
    · rintro ⟨⟨addrCovers, lenCovers, typeCovers⟩, entrySizeCovers, run⟩
      rw [readIn_of_covers addrCovers, readIn_of_covers lenCovers,
        readIn_of_covers typeCovers, readIn_of_covers entrySizeCovers]
      exact run
  · rw [if_neg inside, if_neg inside]
    exact Option.some_inj

/-- A walk that is not stuck moves, and has visited entries in the area. -/
theorem entries_of_memoryEndLoopIn
    {fuel k highest value : Nat}
    (sizeCovers : Covers memory start (mmap + 4) 4)
    (run :
      memoryEndLoopIn memory start mmap fuel (visitedEntry memory mmap k)
        highest = some value) :
    (visitedEntry memory mmap k < mmap + tagSize memory mmap →
        0 < stride memory mmap) ∧
      ∀ later, k ≤ later →
        visitedEntry memory mmap later < mmap + tagSize memory mmap →
          Covers memory start (visitedEntry memory mmap later) 20 := by
  induction fuel generalizing k highest with
  | zero => exact nomatch run
  | succ fuel inductionHypothesis =>
      rw [memoryEndLoopIn_succ sizeCovers] at run
      by_cases inside :
          visitedEntry memory mmap k < mmap + tagSize memory mmap
      · rw [if_pos inside] at run
        rcases run with ⟨here, _, rest⟩
        rcases inductionHypothesis rest with ⟨moves, others⟩
        constructor
        · intro _
          -- without a move the next entry is this one again
          by_contra still
          have same := visitedEntry_succ memory mmap k
          rw [Nat.eq_zero_of_not_pos still, Nat.add_zero] at same
          rw [same] at moves
          exact still (moves inside)
        · intro later behind inMap
          cases Nat.eq_or_lt_of_le behind with
          | inl same => rwa [← same]
          | inr further => exact others later further inMap
      · constructor
        · intro other
          exact absurd other inside
        · intro later behind inMap
          have ordered :
              visitedEntry memory mmap k ≤ visitedEntry memory mmap later :=
            Nat.add_le_add_left (Nat.mul_le_mul_right _ behind) _
          omega

/-- With the entries in the area, the walk ends once it is past the tag. -/
theorem memoryEndLoopIn_ends
    {fuel k : Nat} (highest : Nat)
    (sizeCovers : Covers memory start (mmap + 4) 4)
    (entrySizeCovers :
      visitedEntry memory mmap k < mmap + tagSize memory mmap →
        Covers memory start (mmap + 8) 4)
    (entries : ∀ later,
      visitedEntry memory mmap later < mmap + tagSize memory mmap →
        Covers memory start (visitedEntry memory mmap later) 20)
    (enough :
      mmap + tagSize memory mmap ≤ visitedEntry memory mmap (k + fuel)) :
    ∃ value,
      memoryEndLoopIn memory start mmap (fuel + 1)
        (visitedEntry memory mmap k) highest = some value := by
  induction fuel generalizing k highest with
  | zero =>
      have past :
          ¬ visitedEntry memory mmap k < mmap + tagSize memory mmap :=
        Nat.not_lt.mpr enough
      refine ⟨highest, ?_⟩
      rw [memoryEndLoopIn_succ sizeCovers, if_neg past]
  | succ fuel inductionHypothesis =>
      by_cases inside :
          visitedEntry memory mmap k < mmap + tagSize memory mmap
      · have entrySize := entrySizeCovers inside
        have further : k + 1 + fuel = k + (fuel + 1) := by omega
        rw [← further] at enough
        rcases inductionHypothesis
            (if entryType memory (visitedEntry memory mmap k) =
                  multibootMemoryAvailable ∧
                highest <
                  entryHighest memory (visitedEntry memory mmap k) then
              entryHighest memory (visitedEntry memory mmap k)
            else
              highest)
            (fun _ => entrySize) enough with
          ⟨value, run⟩
        refine ⟨value, ?_⟩
        rw [memoryEndLoopIn_succ sizeCovers, if_pos inside]
        exact ⟨entries k inside, entrySize, run⟩
      · refine ⟨highest, ?_⟩
        rw [memoryEndLoopIn_succ sizeCovers, if_neg inside]

theorem visitedEntry_zero (memory : Memory) (mmap : Nat) :
    visitedEntry memory mmap 0 = mmapEntries mmap := by
  rw [visitedEntry, Nat.zero_mul, Nat.add_zero]

/-- The size of the tag is read before anything else of the map. -/
theorem covers_size_of_memoryEndLoopIn
    {fuel entry highest value : Nat}
    (run :
      memoryEndLoopIn memory start mmap fuel entry highest = some value) :
    Covers memory start (mmap + 4) 4 := by
  cases fuel with
  | zero => exact nomatch run
  | succ fuel =>
      rw [memoryEndLoopIn] at run
      rcases Option.bind_eq_some_iff.mp run with ⟨size, sizeRead, _⟩
      exact (readIn_eq_some.mp sizeRead).1

theorem ReachesMap.covers
    {tag : Nat} (reaches : ReachesMap memory start tag mmap) :
    Covers memory start mmap 4 := by
  induction reaches with
  | here covers _ => exact covers
  | later _ _ _ _ inductionHypothesis => exact inductionHypothesis

theorem stride_pos_iff :
    0 < stride memory mmap ↔ 8 ≤ mmapEntrySize memory mmap := by
  rw [stride, sizeofMmapEntry]
  omega

/-- A walk that moves has passed the map after as many rounds as its size. -/
theorem visitedEntry_passes
    (moves : 16 < tagSize memory mmap → 8 ≤ mmapEntrySize memory mmap)
    {rounds : Nat} (enough : tagSize memory mmap ≤ rounds) :
    mmap + tagSize memory mmap ≤ visitedEntry memory mmap rounds := by
  rw [visitedEntry, mmapEntries]
  by_cases long : 16 < tagSize memory mmap
  · have positive := stride_pos_iff.mpr (moves long)
    have scaled : rounds ≤ rounds * stride memory mmap :=
      Nat.le_mul_of_pos_right _ positive
    omega
  · omega

/-- Between the header and the first entry stands the size of the entries. -/
theorem MapInside.covers_entrySize
    (inside : MapInside memory start mmap)
    (running :
      visitedEntry memory mmap 0 < mmap + tagSize memory mmap) :
    Covers memory start (mmap + 8) 4 := by
  have header := inside.header
  have covers := inside.entries 0 running
  rw [visitedEntry_zero, mmapEntries] at covers
  simp only [Covers] at covers header ⊢
  omega

end Walk

/-! ## The checked functions and the functions of the parser -/

/-- A search that is not stuck is the search of the parser. -/
theorem multibootFindTag_of_findTagIn
    {memory : Memory} {start wanted fuel tag : Nat} {result : Option Nat}
    (run : findTagIn memory start wanted fuel tag = some result) :
    multibootFindTag memory wanted fuel tag = some result := by
  induction fuel generalizing tag with
  | zero => exact nomatch run
  | succ fuel inductionHypothesis =>
      rw [findTagIn] at run
      rcases Option.bind_eq_some_iff.mp run with ⟨type, typeRead, run⟩
      rcases readIn_eq_some.mp typeRead with ⟨_, same⟩
      subst same
      have typeOf : readBytes memory tag 4 = tagType memory tag := rfl
      rw [typeOf] at run
      rw [multibootFindTag]
      split_ifs at run ⊢ with running isWanted
      · exact run
      · rcases Option.bind_eq_some_iff.mp run with ⟨size, sizeRead, run⟩
        rcases readIn_eq_some.mp sizeRead with ⟨_, same⟩
        subst same
        exact inductionHypothesis run
      · exact run

/-- A walk that is not stuck is the walk of the parser. -/
theorem memoryEndLoop_of_memoryEndLoopIn
    {memory : Memory} {start mmap fuel k highest value : Nat}
    (run :
      memoryEndLoopIn memory start mmap fuel (visitedEntry memory mmap k)
        highest = some value) :
    memoryEndLoop memory (mmap + tagSize memory mmap) (stride memory mmap)
      fuel (visitedEntry memory mmap k) highest = some value := by
  induction fuel generalizing k highest with
  | zero => exact nomatch run
  | succ fuel inductionHypothesis =>
      have sizeCovers := covers_size_of_memoryEndLoopIn run
      rw [memoryEndLoopIn_succ sizeCovers] at run
      rw [memoryEndLoop]
      by_cases inside :
          visitedEntry memory mmap k < mmap + tagSize memory mmap
      · rw [if_pos inside] at run ⊢
        rw [← visitedEntry_succ]
        exact inductionHypothesis run.2.2
      · rw [if_neg inside] at run ⊢
        exact congrArg some run

/-- A checked run that is not stuck returns what the parser returns. -/
theorem multibootGetMemoryEnd_of_memoryEndIn
    {memory : Memory} {start fuel value : Nat}
    (run : memoryEndIn memory start fuel = some value) :
    multibootGetMemoryEnd memory fuel (start + 8) = some value := by
  rcases Option.bind_eq_some_iff.mp run with ⟨found, search, run⟩
  rcases Option.bind_eq_some_iff.mp run with ⟨mmap, same, walk⟩
  subst same
  rw [← visitedEntry_zero memory] at walk
  rw [multibootGetMemoryEnd, multibootFindTag_of_findTagIn search,
    Option.bind_some, Option.bind_some, ← visitedEntry_zero memory]
  exact memoryEndLoop_of_memoryEndLoopIn walk

/-! ## The whole parser -/

/--
`multiboot_get_memory_end` ends, reads nothing outside the area and nothing
through `NULL` exactly when the headers lead to a memory map tag in the area,
the walk through its entries moves, and visits only entries in the area.
-/
theorem parser_ends_safely_iff (memory : Memory) (start : Nat) :
    EndsSafely memory start ↔
      ∃ mmap,
        ReachesMap memory start (start + 8) mmap ∧
          MapInside memory start mmap := by
  constructor
  · rintro ⟨fuel, value, run⟩
    rcases Option.bind_eq_some_iff.mp run with ⟨found, search, run⟩
    rcases Option.bind_eq_some_iff.mp run with ⟨mmap, same, walk⟩
    subst same
    have reaches := reachesMap_of_findTagIn search
    have sizeCovers := covers_size_of_memoryEndLoopIn walk
    rw [← visitedEntry_zero memory] at walk
    rcases entries_of_memoryEndLoopIn sizeCovers walk with ⟨moves, entries⟩
    refine ⟨mmap, reaches, covers_of_fields reaches.covers sizeCovers,
      ?_, ?_⟩
    · intro long
      apply stride_pos_iff.mp
      apply moves
      rw [visitedEntry_zero, mmapEntries]
      omega
    · intro k
      exact entries k (Nat.zero_le k)
  · rintro ⟨mmap, reaches, inside⟩
    rcases findTagIn_of_reachesMap reaches with ⟨enough, finds⟩
    have past :
        mmap + tagSize memory mmap ≤
          visitedEntry memory mmap (0 + (enough + tagSize memory mmap)) :=
      visitedEntry_passes inside.moves (by omega)
    rcases memoryEndLoopIn_ends 0 (covers_header inside.header).2
        inside.covers_entrySize inside.entries past with
      ⟨value, walk⟩
    rw [visitedEntry_zero] at walk
    refine ⟨enough + tagSize memory mmap + 1, value, ?_⟩
    rw [memoryEndIn, finds _ (by omega)]
    exact walk

/-- Boot information of 16 bytes at 0x1000: the header and an end tag. -/
def noMapMemory : Memory := fun a =>
  if a < 0x1000 then 0
  else
    [16, 0, 0, 0, 0, 0, 0, 0, 0, 0, 0, 0, 8, 0, 0, 0].getD (a - 0x1000) 0

/-- Without a memory map tag the parser reads through `NULL`. -/
theorem parser_stuck_without_map :
    ¬ ∀ (memory : Memory) (start : Nat), EndsSafely memory start := by
  intro always
  rcases always noMapMemory 0x1000 with ⟨fuel, value, run⟩
  rcases Option.bind_eq_some_iff.mp run with ⟨found, search, run⟩
  rcases Option.bind_eq_some_iff.mp run with ⟨mmap, same, _⟩
  subst same
  cases reachesMap_of_findTagIn search with
  | here _ isMap => exact absurd isMap (by decide)
  | later _ running _ _ => exact running (by decide)

end Kernull.MultibootSafety
