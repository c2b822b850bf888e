import Kernull.Library.ByteMemory
import Kernull.PageTables

/-!
# The page tables of the boot code

`setup_page_tables` of `arch/x86_64/boot/boot.asm` on the registers it uses and
a memory of bytes, and the walk of the processor over these bytes.  The loop
that fills the last table stores `ebx` and adds the size of a page to `edx`:
all of the 32 entries name the same page.
-/

namespace Kernull.BootPageTables

open Kernull.Pml
open Kernull.PageTables
open Kernull.Library.ByteMemory
open Kernull.Library.RadixTree

/-! ## The walk of the processor -/

/-- The eight bytes of an entry. -/
def entryIn (memory : Memory) (place : Nat) : PmlEntry :=
  BitVec.ofNat 64 (readBytes memory place 8)

/-- The bytes of a memory as tables of entries. -/
def tablesIn (memory : Memory) : TableMemory :=
  fun frame index => entryIn memory (frame * 4096 + 8 * index.val)

/-- How the processor reads an entry. -/
def processorShape : Shape Nat PmlEntry where
  present := present
  stops := fun depth entry => (depth == 1 || depth == 2) && huge entry
  child := address

/-- The path of an address through the four levels. -/
def processorPath (virtAddr : Nat) : List (Fin 512) :=
  [slot (virtAddr / 2 ^ 39), slot (virtAddr / 2 ^ 30),
    slot (virtAddr / 2 ^ 21), slot (virtAddr / 2 ^ 12)]

/-- The physical address, by the size of the page that was found. -/
def physicalAddress (virtAddr : Nat) : Outcome PmlEntry → Option Nat
  | .found 1 entry =>
      some (address entry / 2 ^ 18 * 2 ^ 30 + virtAddr % 2 ^ 30)
  | .found 2 entry =>
      some (address entry / 2 ^ 9 * 2 ^ 21 + virtAddr % 2 ^ 21)
  | .found 3 entry => some (address entry * 2 ^ 12 + virtAddr % 2 ^ 12)
  | _ => none

/-- The translation of an address; `none` is a page fault. -/
def processorWalk (memory : Memory) (root virtAddr : Nat) : Option Nat :=
  physicalAddress virtAddr
    (lookup processorShape (tablesIn memory) 0 (root / 4096)
      (processorPath virtAddr))

/-! ## The boot code -/

/-- The registers that the code uses, and memory. -/
structure Machine where
  eax : BitVec 32
  ebx : BitVec 32
  ecx : BitVec 32
  edx : BitVec 32
  edi : BitVec 32
  memory : Memory

/-- `mov [place], value` -/
def Machine.store (machine : Machine) (place value : BitVec 32) : Machine :=
  { machine with
    memory := writeBytes machine.memory place.toNat 4 value.toNat }

/-- A round of `.set_entry`, with the decrement of `loop`. -/
def Machine.nextEntry (machine : Machine) : Machine :=
  let machine := machine.store machine.edi machine.ebx
  let machine := { machine with edx := machine.edx + 0x200000 }
  let machine := { machine with edi := machine.edi + 8 }
  { machine with ecx := machine.ecx - 1 }

/-- `.set_entry`; the count of rounds bounds what `loop` can run. -/
def setEntry : Nat → Machine → Option Machine
  | 0, _ => none
  | rounds + 1, machine =>
      let machine := machine.nextEntry
      if machine.ecx ≠ 0 then
        setEntry rounds machine
      else
        some machine

/-- `setup_page_tables` up to `.set_entry`. -/
def Machine.linkTables (initialPageTables : BitVec 32) (machine : Machine) :
    Machine :=
  let machine := { machine with edi := initialPageTables }
  -- P4[0] = &P3[0] | PRESENT | WRITABLE
  let machine := { machine with eax := 0x1000 }
  let machine := { machine with eax := machine.eax + machine.edi }
  let machine := { machine with eax := machine.eax ||| 0b11 }
  let machine := machine.store machine.edi machine.eax
  -- P3[0] = &P2[0] | PRESENT | WRITABLE
  let machine := { machine with edi := machine.edi + 0x1000 }
  let machine := { machine with eax := 0x1000 }
  let machine := { machine with eax := machine.eax + machine.edi }
  let machine := { machine with eax := machine.eax ||| 0b11 }
  let machine := machine.store machine.edi machine.eax
  -- PRESENT | WRITABLE | HUGE
  let machine := { machine with edi := machine.edi + 0x1000 }
  let machine := { machine with ebx := 0b10000011 }
  { machine with ecx := 32 }

/-- More rounds than a 32-bit counter allows. -/
def allRounds : Nat := 2 ^ 32 + 1

/-- `setup_page_tables`, with the address of `initial_page_tables`. -/
def setupPageTables (initialPageTables : BitVec 32) (machine : Machine) :
    Option Machine :=
  setEntry allRounds (machine.linkTables initialPageTables)

/-- `initial_page_tables`: three aligned tables of zero bytes. -/
structure ZeroedTables (memory : Memory) (tables : BitVec 32) : Prop where
  aligned : tables.toNat % 4096 = 0
  fits : tables.toNat + 3 * 4096 ≤ 2 ^ 32
  zeroed : ∀ offset, offset < 3 * 4096 → memory (tables.toNat + offset) = 0

/-- The low 64 MiB are mapped to themselves, and nothing else. -/
def MapsRightly (memory : Memory) (root virtAddr : Nat) : Prop :=
  processorWalk memory root virtAddr =
    if virtAddr < 2 ^ 26 then some virtAddr else none

/-! ## The loop -/

/-- The same four bytes at the start of `count` entries. -/
def fillEntries (memory : Memory) (place value : Nat) : Nat → Memory
  | 0 => memory
  | count + 1 =>
      fillEntries (writeBytes memory place 4 value) (place + 8) value count

/-- Bytes behind the first four of an entry are not written. -/
theorem fillEntries_unwritten
    (memory : Memory) (value : Nat) {place count other : Nat}
    (unwritten : ∀ i, i < count →
      other < place + 8 * i ∨ place + 8 * i + 4 ≤ other) :
    fillEntries memory place value count other = memory other := by
  induction count generalizing memory place with
  | zero => rfl
  | succ count inductionHypothesis =>
      have later : ∀ i, i < count →
          other < place + 8 + 8 * i ∨ place + 8 + 8 * i + 4 ≤ other := by
        intro i bound
        have shifted := unwritten (i + 1) (Nat.succ_lt_succ bound)
        omega
      have first := unwritten 0 (Nat.succ_pos count)
      rw [fillEntries, inductionHypothesis _ later]
      exact writeBytes_outside memory value first

/-- What is read at the start of an entry that has been filled. -/
theorem readBytes_fillEntries
    (memory : Memory) (value : Nat) {place count i : Nat}
    (filled : i < count) :
    readBytes (fillEntries memory place value count) (place + 8 * i) 4 =
      value % 256 ^ 4 := by
  induction count generalizing memory place i with
  | zero => exact absurd filled (Nat.not_lt_zero i)
  | succ count inductionHypothesis =>
      rw [fillEntries]
      cases i with
      | zero =>
          rw [← readBytes_writeBytes_same memory place 4 value]
          apply readBytes_congr
          intro offset inside
          apply fillEntries_unwritten
          intro j bound
          left
          omega
      | succ i =>
          have shifted : place + 8 * (i + 1) = place + 8 + 8 * i := by
            omega
          rw [shifted]
          exact inductionHypothesis _ (Nat.lt_of_succ_lt_succ filled)

@[simp]
theorem Machine.nextEntry_ebx (machine : Machine) :
    machine.nextEntry.ebx = machine.ebx := rfl

@[simp]
theorem Machine.nextEntry_ecx (machine : Machine) :
    machine.nextEntry.ecx = machine.ecx - 1 := rfl

@[simp]
theorem Machine.nextEntry_edi (machine : Machine) :
    machine.nextEntry.edi = machine.edi + 8 := rfl

@[simp]
theorem Machine.nextEntry_memory (machine : Machine) :
    machine.nextEntry.memory =
      writeBytes machine.memory machine.edi.toNat 4 machine.ebx.toNat := rfl

/-- The loop runs as often as `ecx` says and never changes `ebx`. -/
theorem setEntry_eq
    {machine : Machine} {rounds count : Nat}
    (counter : machine.ecx.toNat = count + 1) (enough : count < rounds)
    (fits : machine.edi.toNat + 8 * count < 2 ^ 32) :
    ∃ after, setEntry rounds machine = some after ∧
      after.memory = fillEntries machine.memory machine.edi.toNat
        machine.ebx.toNat (count + 1) := by
  induction count generalizing rounds machine with
  | zero =>
      cases rounds with
      | zero => exact absurd enough (Nat.not_lt_zero _)
      | succ rounds =>
          have last : machine.nextEntry.ecx = 0 := by
            apply BitVec.eq_of_toNat_eq
            rw [Machine.nextEntry_ecx, BitVec.toNat_sub, counter]
            rfl
          refine ⟨machine.nextEntry, ?_, rfl⟩
          rw [setEntry, if_neg (not_not.mpr last)]
  | succ count inductionHypothesis =>
      cases rounds with
      | zero => exact absurd enough (Nat.not_lt_zero _)
      | succ rounds =>
          have counted : machine.nextEntry.ecx.toNat = count + 1 := by
            rw [Machine.nextEntry_ecx]
            bv_omega
          have goesOn : machine.nextEntry.ecx ≠ 0 := by
            intro zero
            rw [zero] at counted
            exact nomatch counted
          have next : machine.nextEntry.edi.toNat = machine.edi.toNat + 8 := by
            rw [Machine.nextEntry_edi]
            bv_omega
          rcases inductionHypothesis counted
              (Nat.lt_of_succ_lt_succ enough) (by rw [next]; omega) with
            ⟨after, runs, filled⟩
          refine ⟨after, ?_, ?_⟩
          · rw [setEntry, if_pos goesOn]
            exact runs
          · rw [filled, next, Machine.nextEntry_ebx,
              Machine.nextEntry_memory]
            rfl

/-! ## The tables -/

/-- The entry that leads to the table behind, as a number. -/
def linkValue (table : Nat) : Nat :=
  table + 4096 + 3

/-- The memory that the code leaves. -/
def filledMemory (memory : Memory) (base : Nat) : Memory :=
  fillEntries
    (writeBytes (writeBytes memory base 4 (linkValue base))
      (base + 4096) 4 (linkValue (base + 4096)))
    (base + 2 * 4096) 0x83 32

/-- The two low bits of an aligned address are set by an addition. -/
theorem link_toNat
    {table : BitVec 32} (aligned : table.toNat % 4096 = 0)
    (fits : table.toNat + 4096 < 2 ^ 32) :
    ((0x1000 + table) ||| 0b11).toNat = linkValue table.toNat := by
  have sum : (0x1000 + table).toNat = table.toNat + 4096 := by
    bv_omega
  have shifted : table.toNat + 4096 =
      (table.toNat / 4096 + 1) <<< 12 := by
    rw [Nat.shiftLeft_eq]
    omega
  have three : (0b11 : BitVec 32).toNat = 3 := rfl
  rw [BitVec.toNat_or, sum, three, shifted, page_or_offset (by decide),
    linkValue]
  omega

/-- The code ends, and this is the memory after it. -/
theorem setupPageTables_eq
    {tables : BitVec 32} {machine : Machine}
    (initial : ZeroedTables machine.memory tables) :
    ∃ after, setupPageTables tables machine = some after ∧
      after.memory = filledMemory machine.memory tables.toNat := by
  have fits := initial.fits
  have aligned := initial.aligned
  have second : (tables + 0x1000).toNat = tables.toNat + 4096 := by
    bv_omega
  have third : (tables + 0x1000 + 0x1000).toNat =
      tables.toNat + 2 * 4096 := by
    bv_omega
  have firstLink := link_toNat aligned (by omega)
  have secondLink : ((0x1000 + (tables + 0x1000)) ||| 0b11).toNat =
      linkValue (tables.toNat + 4096) := by
    rw [← second]
    apply link_toNat
    · rw [second]
      omega
    · rw [second]
      omega
  have edi : (machine.linkTables tables).edi.toNat =
      tables.toNat + 2 * 4096 := third
  have memory : (machine.linkTables tables).memory =
      writeBytes
        (writeBytes machine.memory tables.toNat 4
          ((0x1000 + tables) ||| 0b11).toNat)
        (tables + 0x1000).toNat 4
        ((0x1000 + (tables + 0x1000)) ||| 0b11).toNat := by
    simp only [Machine.linkTables, Machine.store]
  have counter : (machine.linkTables tables).ecx.toNat = 31 + 1 := rfl
  have ebx : (machine.linkTables tables).ebx.toNat = 0x83 := rfl
  have enough : 31 < allRounds := by
    rw [allRounds]
    omega
  rcases setEntry_eq counter enough (by omega) with ⟨after, runs, filled⟩
  refine ⟨after, runs, ?_⟩
  rw [filled, memory, edi, ebx, firstLink, secondLink, second, filledMemory]

/-- An entry of zero bytes. -/
theorem entryIn_of_zero
    {memory : Memory} {place : Nat}
    (zero : ∀ offset, offset < 8 → memory (place + offset) = 0) :
    entryIn memory place = 0 := by
  rw [entryIn, readBytes_of_zero zero]
  rfl

/-- An entry whose high half is zero. -/
theorem entryIn_of_low
    {memory : Memory} {place value : Nat}
    (low : readBytes memory place 4 = value)
    (high : ∀ offset, 4 ≤ offset → offset < 8 →
      memory (place + offset) = 0) :
    entryIn memory place = BitVec.ofNat 64 value := by
  have upper : readBytes memory (place + 4) 4 = 0 := by
    apply readBytes_of_zero
    intro offset bound
    rw [Nat.add_assoc]
    exact high (4 + offset) (Nat.le_add_right 4 offset) (by omega)
  have joined := readBytes_add memory place 4 4
  rw [low, upper, Nat.mul_zero, Nat.add_zero] at joined
  rw [entryIn]
  exact congrArg (BitVec.ofNat 64) joined

/-- The entries of the tables as far as the walk of low addresses meets them. -/
structure FilledTables (memory : Memory) (base : Nat) : Prop where
  pml4 : entryIn memory base = BitVec.ofNat 64 (linkValue base)
  pml3 : entryIn memory (base + 4096) =
    BitVec.ofNat 64 (linkValue (base + 4096))
  pml3Rest : ∀ i, 0 < i → i < 512 →
    entryIn memory (base + 4096 + 8 * i) = 0
  pml2 : ∀ i, i < 32 → entryIn memory (base + 2 * 4096 + 8 * i) = 0x83
  pml2Rest : ∀ i, 32 ≤ i → i < 512 →
    entryIn memory (base + 2 * 4096 + 8 * i) = 0

/-- Only the bytes of the tables matter. -/
theorem FilledTables.congr
    {left right : Memory} {base : Nat} (filled : FilledTables left base)
    (same : ∀ place, base ≤ place → place < base + 3 * 4096 →
      right place = left place) : FilledTables right base := by
  have entry (place : Nat) (above : base ≤ place)
      (below : place + 8 ≤ base + 3 * 4096) :
      entryIn right place = entryIn left place := by
    apply congrArg (BitVec.ofNat 64)
    apply readBytes_congr
    intro offset bound
    exact same _ (by omega) (by omega)
  constructor
  · rw [entry _ (by omega) (by omega)]
    exact filled.pml4
  · rw [entry _ (by omega) (by omega)]
    exact filled.pml3
  · intro i least most
    rw [entry _ (by omega) (by omega)]
    exact filled.pml3Rest i least most
  · intro i bound
    rw [entry _ (by omega) (by omega)]
    exact filled.pml2 i bound
  · intro i least most
    rw [entry _ (by omega) (by omega)]
    exact filled.pml2Rest i least most

section

variable {memory : Memory} {base : Nat}

/-- Bytes of the tables that are not written stay zero. -/
theorem filledMemory_zero
    (zeroed : ∀ offset, offset < 3 * 4096 → memory (base + offset) = 0)
    {offset : Nat} (inside : offset < 3 * 4096) (notPml4 : 4 ≤ offset)
    (notPml3 : offset < 4096 ∨ 4096 + 4 ≤ offset)
    (notPml2 : ∀ i, i < 32 →
      offset < 2 * 4096 + 8 * i ∨ 2 * 4096 + 8 * i + 4 ≤ offset) :
    filledMemory memory base (base + offset) = 0 := by
  have unwritten : ∀ i, i < 32 →
      base + offset < base + 2 * 4096 + 8 * i ∨
        base + 2 * 4096 + 8 * i + 4 ≤ base + offset := by
    intro i bound
    have apart := notPml2 i bound
    omega
  rw [filledMemory, fillEntries_unwritten _ _ unwritten,
    writeBytes_outside _ _ (by omega), writeBytes_outside _ _ (by omega)]
  exact zeroed offset inside

/-- Below the last table, the loop has written nothing. -/
theorem readBytes_filledMemory
    (memory : Memory) {place : Nat} (below : place + 4 ≤ base + 2 * 4096) :
    readBytes (filledMemory memory base) place 4 =
      readBytes
        (writeBytes (writeBytes memory base 4 (linkValue base))
          (base + 4096) 4 (linkValue (base + 4096))) place 4 := by
  apply readBytes_congr
  intro offset bound
  apply fillEntries_unwritten
  intro i _
  left
  omega

theorem filledTables
    (zeroed : ∀ offset, offset < 3 * 4096 → memory (base + offset) = 0)
    (fits : base + 3 * 4096 ≤ 2 ^ 32) :
    FilledTables (filledMemory memory base) base := by
  constructor
  · apply entryIn_of_low
    · rw [readBytes_filledMemory memory (by omega),
        readBytes_writeBytes_of_disjoint _ _ (by omega),
        readBytes_writeBytes_same]
      apply Nat.mod_eq_of_lt
      rw [linkValue]
      omega
    · intro offset least most
      apply filledMemory_zero zeroed <;> omega
  · apply entryIn_of_low
    · rw [readBytes_filledMemory memory (by omega), readBytes_writeBytes_same]
      apply Nat.mod_eq_of_lt
      rw [linkValue]
      omega
    · intro offset least most
      rw [Nat.add_assoc]
      apply filledMemory_zero zeroed <;> omega
  · intro i least most
    apply entryIn_of_zero
    intro offset bound
    rw [Nat.add_assoc, Nat.add_assoc]
    apply filledMemory_zero zeroed <;> omega
  · intro i bound
    apply entryIn_of_low
    · exact readBytes_fillEntries _ 0x83 bound
    · intro offset least most
      rw [Nat.add_assoc, Nat.add_assoc]
      apply filledMemory_zero zeroed <;> omega
  · intro i least most
    apply entryIn_of_zero
    intro offset bound
    rw [Nat.add_assoc, Nat.add_assoc]
    apply filledMemory_zero zeroed <;> omega

end

/-! ## Walking the tables -/

section

variable {memory : Memory} {base virtAddr : Nat}

/-- A linking entry is no page and leads one table on. -/
theorem link_fields
    (aligned : base % 4096 = 0) (small : linkValue base < 2 ^ 32) :
    processorShape.present (BitVec.ofNat 64 (linkValue base)) = true ∧
      (∀ depth, processorShape.stops depth
        (BitVec.ofNat 64 (linkValue base)) = false) ∧
      processorShape.child (BitVec.ofNat 64 (linkValue base)) =
        base / 4096 + 1 := by
  have value : (BitVec.ofNat 64 (linkValue base)).toNat = linkValue base := by
    rw [BitVec.toNat_ofNat]
    apply Nat.mod_eq_of_lt
    omega
  rw [linkValue] at small value
  simp only [processorShape, present_eq, huge_eq, address_eq, linkValue,
    value]
  refine ⟨?_, ?_, ?_⟩
  · apply decide_eq_true
    omega
  · intro depth
    have notHuge : ¬ (base + 4096 + 3) / 128 % 2 = 1 := by omega
    rw [decide_eq_false notHuge, Bool.and_false]
  · omega

/-- The place of an entry in the tables of a memory. -/
theorem tablesIn_slot (memory : Memory) (frame index : Nat) :
    tablesIn memory frame (slot index) =
      entryIn memory (frame * 4096 + 8 * (index % 512)) :=
  rfl

/-- The entry of an address in the first table. -/
theorem pml4_walked (filled : FilledTables memory base)
    (aligned : base % 4096 = 0) (low : virtAddr < 2 ^ 39) :
    tablesIn memory (base / 4096) (slot (virtAddr / 2 ^ 39)) =
      BitVec.ofNat 64 (linkValue base) := by
  rw [tablesIn_slot, ← filled.pml4]
  congr 1
  omega

/-- The entry of an address in the second table. -/
theorem pml3_walked (filled : FilledTables memory base)
    (aligned : base % 4096 = 0) (low : virtAddr < 2 ^ 39) :
    tablesIn memory (base / 4096 + 1) (slot (virtAddr / 2 ^ 30)) =
      if virtAddr < 2 ^ 30 then
        BitVec.ofNat 64 (linkValue (base + 4096))
      else 0 := by
  rw [tablesIn_slot]
  by_cases first : virtAddr < 2 ^ 30
  · rw [if_pos first, ← filled.pml3]
    congr 1
    omega
  · rw [if_neg first,
      ← filled.pml3Rest (virtAddr / 2 ^ 30) (by omega) (by omega)]
    congr 1
    omega

/-- The entry of an address in the third table. -/
theorem pml2_walked (filled : FilledTables memory base)
    (aligned : base % 4096 = 0) (low : virtAddr < 2 ^ 30) :
    tablesIn memory (base / 4096 + 2) (slot (virtAddr / 2 ^ 21)) =
      if virtAddr < 2 ^ 26 then 0x83 else 0 := by
  rw [tablesIn_slot]
  by_cases page : virtAddr < 2 ^ 26
  · rw [if_pos page, ← filled.pml2 (virtAddr / 2 ^ 21) (by omega)]
    congr 1
    omega
  · rw [if_neg page,
      ← filled.pml2Rest (virtAddr / 2 ^ 21) (by omega) (by omega)]
    congr 1
    omega

/-- All pages below 64 MiB are the first one, and there are no others. -/
theorem processorWalk_filled (filled : FilledTables memory base)
    (aligned : base % 4096 = 0) (fits : base + 3 * 4096 ≤ 2 ^ 32)
    (low : virtAddr < 2 ^ 39) :
    processorWalk memory base virtAddr =
      if virtAddr < 2 ^ 26 then some (virtAddr % 2 ^ 21) else none := by
  have firstSmall : linkValue base < 2 ^ 32 := by
    rw [linkValue]
    omega
  have secondSmall : linkValue (base + 4096) < 2 ^ 32 := by
    rw [linkValue]
    omega
  rcases link_fields aligned firstSmall with
    ⟨firstPresent, firstLink, firstChild⟩
  rcases link_fields (by omega) secondSmall with
    ⟨secondPresent, secondLink, secondChild⟩
  have pml4 := pml4_walked filled aligned low
  have pml3 := pml3_walked filled aligned low
  rw [processorWalk, processorPath,
    lookup_of_entry pml4 firstPresent (firstLink 0), firstChild]
  by_cases inPml3 : virtAddr < 2 ^ 30
  · have pml2 := pml2_walked filled aligned inPml3
    have third : (base + 4096) / 4096 + 1 = base / 4096 + 2 := by omega
    rw [if_pos inPml3] at pml3
    rw [lookup_of_entry pml3 secondPresent (secondLink 1), secondChild, third]
    by_cases page : virtAddr < 2 ^ 26
    · rw [if_pos page] at pml2 ⊢
      rw [lookup_of_stop pml2 (by decide) (by decide)]
      exact congrArg some (Nat.zero_add _)
    · rw [if_neg page] at pml2 ⊢
      rw [lookup_of_absent pml2 (by decide)]
      rfl
  · have beyond : ¬ virtAddr < 2 ^ 26 := by omega
    rw [if_neg inPml3] at pml3
    rw [if_neg beyond, lookup_of_absent pml3 (by decide)]
    rfl

end

/-- Where the tables agree with the identity below 64 MiB. -/
theorem mapsRightly_iff
    {memory : Memory} {base virtAddr : Nat}
    (filled : FilledTables memory base) (aligned : base % 4096 = 0)
    (fits : base + 3 * 4096 ≤ 2 ^ 32) (low : virtAddr < 2 ^ 39) :
    MapsRightly memory base virtAddr ↔
      virtAddr < 2 ^ 21 ∨ 2 ^ 26 ≤ virtAddr := by
  rw [MapsRightly, processorWalk_filled filled aligned fits low]
  by_cases page : virtAddr < 2 ^ 26
  · rw [if_pos page, if_pos page, Option.some_inj]
    constructor
    · intro same
      left
      rw [← same]
      exact Nat.mod_lt _ (by decide)
    · intro either
      apply Nat.mod_eq_of_lt
      omega
  · rw [if_neg page, if_neg page]
    apply iff_of_true rfl
    right
    omega

/--
For all initial registers and zeroed tables the code ends, and an address below
512 GiB is then translated as it should be exactly when it is below 2 MiB or
not below 64 MiB.
-/
theorem boot_identity_map_iff
    (tables : BitVec 32) (machine : Machine)
    (initial : ZeroedTables machine.memory tables) :
    ∃ after, setupPageTables tables machine = some after ∧
      ∀ virtAddr, virtAddr < 2 ^ 39 →
        (MapsRightly after.memory tables.toNat virtAddr ↔
          virtAddr < 2 ^ 21 ∨ 2 ^ 26 ≤ virtAddr) := by
  rcases setupPageTables_eq initial with ⟨after, runs, memory⟩
  refine ⟨after, runs, ?_⟩
  intro virtAddr low
  rw [memory]
  exact mapsRightly_iff (filledTables initial.zeroed initial.fits)
    initial.aligned initial.fits low

/-- A machine whose memory and registers are zero. -/
def zeroMachine : Machine where
  eax := 0
  ebx := 0
  ecx := 0
  edx := 0
  edi := 0
  memory := fun _ => 0

/-- Tables at 2 MiB. -/
theorem zeroMachine_tables :
    ZeroedTables zeroMachine.memory 0x200000 where
  aligned := by decide
  fits := by decide
  zeroed _ _ := rfl

theorem boot_identity_map_zeroMachine :
    ∃ after, setupPageTables 0x200000 zeroMachine = some after ∧
      MapsRightly after.memory 0x200000 0x1FFFFF ∧
      ¬ MapsRightly after.memory 0x200000 0x200000 := by
  obtain ⟨after, runs, maps⟩ :=
    boot_identity_map_iff 0x200000 zeroMachine zeroMachine_tables
  refine ⟨after, runs, ?_, ?_⟩
  · exact (maps 0x1FFFFF (by decide)).mpr (by decide)
  · intro mapped
    exact absurd ((maps 0x200000 (by decide)).mp mapped) (by decide)

/-- The page at 2 MiB is translated to the first page. -/
theorem second_page_not_mapped_to_itself :
    ¬ ∀ (tables : BitVec 32) (machine : Machine),
      ZeroedTables machine.memory tables →
      ∃ after, setupPageTables tables machine = some after ∧
        ∀ virtAddr, virtAddr < 2 ^ 39 →
          MapsRightly after.memory tables.toNat virtAddr := by
  intro always
  have initial := zeroMachine_tables
  rcases always 0x200000 zeroMachine initial with ⟨after, runs, maps⟩
  rcases setupPageTables_eq initial with ⟨same, sameRuns, memory⟩
  rw [runs] at sameRuns
  have inRange : 2 ^ 21 < 2 ^ 39 := by omega
  have right := maps (2 ^ 21) inRange
  rw [Option.some.inj sameRuns, memory,
    mapsRightly_iff (filledTables initial.zeroed initial.fits)
      initial.aligned initial.fits inRange] at right
  omega

end Kernull.BootPageTables
