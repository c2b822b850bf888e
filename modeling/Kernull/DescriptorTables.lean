import Kernull.IdtGates

/-!
# The descriptor tables of the kernel

`idt_init` of `arch/x86_64/idt.c` and the descriptors of `arch/x86_64/gdt.c`,
as the processor finds them through `IDTR` and `GDTR`.  Whatever gates are set,
the last call for a vector decides; after `idt_init` an interrupt with a
wrapper leads through its gate to 64-bit code of the kernel, and no other
vector has a gate.
-/

namespace Kernull.DescriptorTables

open Kernull.IdtGates
open Kernull.Library.ByteMemory

/-! ## Sequences of gates -/

/-- The arguments of a call of `idt_set_gate`. -/
structure GateCall where
  idx : BitVec 8
  base : BitVec 64
  sel : BitVec 16
  ist : BitVec 8
  attrs : BitVec 8

/-- The call in the source. -/
def GateCall.perform (idt : Nat) (memory : Memory) (call : GateCall) :
    Memory :=
  idtSetGate idt call.idx call.base call.sel call.ist call.attrs memory

/-- The gate that the call asks for. -/
def GateCall.gate (call : GateCall) : Gate :=
  requestedGate call.base call.sel call.ist call.attrs

/-- The bytes outside the 256 entries of a table. -/
def OutsideIdt (idt a : Nat) : Prop :=
  a < idt ∨ idt + 256 * sizeofIdtEntry ≤ a

theorem GateCall.perform_outside
    {idt a : Nat} (outside : OutsideIdt idt a) (memory : Memory)
    (call : GateCall) :
    call.perform idt memory a = memory a := by
  apply idtSetGate_outside
  have small := call.idx.isLt
  simp only [OutsideIdt, idtEntryAddress, sizeofIdtEntry] at outside ⊢
  omega

theorem foldl_perform_outside
    {idt a : Nat} (outside : OutsideIdt idt a) (memory : Memory)
    (calls : List GateCall) :
    calls.foldl (GateCall.perform idt) memory a = memory a := by
  induction calls generalizing memory with
  | nil => rfl
  | cons call calls inductionHypothesis =>
      rw [List.foldl_cons, inductionHypothesis,
        call.perform_outside outside]

/-- The gate that a sequence of calls leaves, given the one before them. -/
def lastGate (calls : List GateCall) (vector : BitVec 8) (before : Gate) :
    Gate :=
  ((calls.reverse.find? fun call => call.idx = vector).map
    GateCall.gate).getD before

theorem lastGate_cons
    (call : GateCall) (calls : List GateCall) (vector : BitVec 8)
    (before : Gate) :
    lastGate (call :: calls) vector before =
      lastGate calls vector
        (if vector = call.idx then call.gate else before) := by
  rw [lastGate, lastGate, List.reverse_cons, List.find?_append]
  cases found : calls.reverse.find? fun call => call.idx = vector with
  | some later => rfl
  | none =>
      by_cases here : vector = call.idx
      · simp [here]
      · simp [here, Ne.symm here]

/-- Reading the table after some calls. -/
theorem gatesAt_foldl_perform
    (idt : Nat) (calls : List GateCall) (memory : Memory)
    (vector : BitVec 8) :
    gatesAt (calls.foldl (GateCall.perform idt) memory) idt vector =
      lastGate calls vector (gatesAt memory idt vector) := by
  induction calls generalizing memory with
  | nil => rfl
  | cons call calls inductionHypothesis =>
      rw [List.foldl_cons, inductionHypothesis, lastGate_cons,
        GateCall.perform, gatesAt_idtSetGate, Function.update_apply]
      rfl

/--
After any sequence of calls the processor finds for every vector the gate of
the last call for it, or the one of before if there was none, and no byte
outside the table has changed.
-/
theorem gates_set_by_last_call
    (idt : Nat) (calls : List GateCall) (memory : Memory) :
    (∀ vector,
      gatesAt (calls.foldl (GateCall.perform idt) memory) idt vector =
        lastGate calls vector (gatesAt memory idt vector)) ∧
    ∀ a, OutsideIdt idt a →
      calls.foldl (GateCall.perform idt) memory a = memory a := by
  constructor
  · exact gatesAt_foldl_perform idt calls memory
  · intro a outside
    exact foldl_perform_outside outside memory calls

/-! ## Table registers -/

/-- `IDTR` and `GDTR` of the processor. -/
structure TableRegister where
  size : BitVec 16
  base : BitVec 64

/-- What `lidt` and `lgdt` load from a packed structure. -/
def loadTableRegister (memory : Memory) (address : Nat) : TableRegister where
  size := BitVec.ofNat 16 (readBytes memory address 2)
  base := BitVec.ofNat 64 (readBytes memory (address + 2) 8)

/-- Store a packed `idtr`. -/
def storeTableRegister (memory : Memory) (address : Nat)
    (register : TableRegister) : Memory :=
  writeBytes (writeBytes memory address 2 register.size.toNat)
    (address + 2) 8 register.base.toNat

theorem loadTableRegister_storeTableRegister
    (memory : Memory) (address : Nat) (register : TableRegister) :
    loadTableRegister (storeTableRegister memory address register) address =
      register := by
  have sizeSmall := register.size.isLt
  have baseSmall := register.base.isLt
  rw [loadTableRegister, storeTableRegister,
    readBytes_writeBytes_of_disjoint _ _ (Or.inl (Nat.le_refl _)),
    readBytes_writeBytes_same, readBytes_writeBytes_same]
  congr 1
  · apply BitVec.eq_of_toNat_eq
    rw [BitVec.toNat_ofNat]
    omega
  · apply BitVec.eq_of_toNat_eq
    rw [BitVec.toNat_ofNat]
    omega

/-- The gate of a vector, where the table has one. -/
def gateThrough (memory : Memory) (idtr : TableRegister)
    (vector : BitVec 8) : Option Gate :=
  if sizeofIdtEntry * vector.toNat + 15 ≤ idtr.size.toNat then
    some (gatesAt memory idtr.base.toNat vector)
  else
    none

/-! ## The segment descriptors -/

/-- `gdt_entry`. -/
structure GdtEntry where
  limitLow : BitVec 16
  baseLow : BitVec 16
  baseMiddle : BitVec 8
  access : BitVec 8
  flags : BitVec 8
  baseHigh : BitVec 8

/-- `GDT_ENTRY`. -/
def gdtEntry (base limit access flags : BitVec 32) : GdtEntry where
  limitLow := (limit >>> 0 &&& 0xFFFF#32).setWidth 16
  baseLow := (base >>> 0 &&& 0xFFFF#32).setWidth 16
  baseMiddle := (base >>> 16 &&& 0xFF#32).setWidth 8
  access := (access &&& 0xFF#32).setWidth 8
  flags := ((limit >>> 16 &&& 0x0F#32) ||| (flags <<< 4 &&& 0xF0#32)).setWidth 8
  baseHigh := (base >>> 24 &&& 0xFF#32).setWidth 8

/-- `GDT`. -/
def gdt : List GdtEntry := [
  -- NULL
  gdtEntry 0 0 0 0,
  -- kernel code
  gdtEntry 0 0xFFFFFFFF 0x9A 0x0A,
  -- kernel data
  gdtEntry 0 0xFFFFFFFF 0x92 0x0C,
  -- user code
  gdtEntry 0 0xFFFFFFFF 0xFA 0x0A,
  -- user data
  gdtEntry 0 0xFFFFFFFF 0xF2 0x0C]

/-- The fields of an entry stand at an address, in the order of the source. -/
structure GdtEntry.StandsAt (entry : GdtEntry) (memory : Memory)
    (address : Nat) : Prop where
  limitLow : readBytes memory address 2 = entry.limitLow.toNat
  baseLow : readBytes memory (address + 2) 2 = entry.baseLow.toNat
  baseMiddle : readBytes memory (address + 4) 1 = entry.baseMiddle.toNat
  access : readBytes memory (address + 5) 1 = entry.access.toNat
  flags : readBytes memory (address + 6) 1 = entry.flags.toNat
  baseHigh : readBytes memory (address + 7) 1 = entry.baseHigh.toNat

/-- What the processor makes of a segment descriptor. -/
structure Descriptor where
  base : BitVec 32
  limit : BitVec 20
  access : BitVec 8
  flags : BitVec 4
  deriving DecidableEq

/-- The descriptor in a quadword. -/
def descriptorOf (quadword : Nat) : Descriptor where
  base :=
    BitVec.ofNat 32
      (quadword / 2 ^ 16 % 2 ^ 24 + 2 ^ 24 * (quadword / 2 ^ 56))
  limit :=
    BitVec.ofNat 20 (quadword % 2 ^ 16 + 2 ^ 16 * (quadword / 2 ^ 48 % 2 ^ 4))
  access := bitsFrom quadword 40 8
  flags := bitsFrom quadword 52 4

/-- The descriptor that a selector names, where the table has one. -/
def descriptorThrough (memory : Memory) (gdtr : TableRegister)
    (selector : BitVec 16) : Option Descriptor :=
  if selector.toNat / 8 * 8 + 7 ≤ gdtr.size.toNat then
    some
      (descriptorOf
        (readBytes memory (gdtr.base.toNat + selector.toNat / 8 * 8) 8))
  else
    none

namespace Descriptor

/-- Present, for level 0, a code segment, and of 64 bits. -/
def isKernelCode64 (descriptor : Descriptor) : Bool :=
  descriptor.access.getLsbD 7 && bitsFrom descriptor.access.toNat 5 2 == 0 &&
    descriptor.access.getLsbD 4 && descriptor.access.getLsbD 3 &&
    descriptor.flags.getLsbD 1 && !descriptor.flags.getLsbD 2

end Descriptor

/-- The fields of the macro, as numbers. -/
structure GdtFields (entry : GdtEntry)
    (base limit access flags : BitVec 32) : Prop where
  limitLow : entry.limitLow.toNat = limit.toNat % 2 ^ 16
  baseLow : entry.baseLow.toNat = base.toNat % 2 ^ 16
  baseMiddle : entry.baseMiddle.toNat = base.toNat / 2 ^ 16 % 2 ^ 8
  access : entry.access.toNat = access.toNat % 2 ^ 8
  flags : entry.flags.toNat =
    limit.toNat / 2 ^ 16 % 2 ^ 4 + 2 ^ 4 * (flags.toNat % 2 ^ 4)
  baseHigh : entry.baseHigh.toNat = base.toNat / 2 ^ 24

/-- The bits above the lower nibble of `flags` are added to it. -/
theorem nibbles_toNat (limit flags : BitVec 32) :
    (((limit >>> 16 &&& 0x0F#32) |||
        (flags <<< 4 &&& 0xF0#32)).setWidth 8).toNat =
      limit.toNat / 2 ^ 16 % 2 ^ 4 + 2 ^ 4 * (flags.toNat % 2 ^ 4) := by
  have shifted : flags <<< 4 &&& 0xF0#32 = (flags &&& 0x0F#32) <<< 4 :=
    (BitVec.shiftLeft_and_distrib flags 0x0F#32 4).symm
  have high : ((flags &&& 0x0F#32) <<< 4).toNat =
      (flags.toNat % 2 ^ 4) <<< 4 := by
    rw [BitVec.toNat_shiftLeft, toNat_and_mask _ _ 4 rfl,
      Nat.shiftLeft_eq]
    omega
  have low : (limit >>> 16 &&& 0x0F#32).toNat =
      limit.toNat / 2 ^ 16 % 2 ^ 4 := by
    rw [toNat_and_mask _ _ 4 rfl, BitVec.toNat_ushiftRight,
      Nat.shiftRight_eq_div_pow]
  have small : limit.toNat / 2 ^ 16 % 2 ^ 4 < 2 ^ 4 :=
    Nat.mod_lt _ (by decide)
  rw [shifted, BitVec.toNat_setWidth, BitVec.toNat_or, high, low, Nat.or_comm,
    ← Nat.shiftLeft_add_eq_or_of_lt small, Nat.shiftLeft_eq]
  omega

/-- The low bits of a shifted value. -/
theorem toNat_shift_mask
    (value mask : BitVec 32) (shift width count : Nat)
    (ones : mask.toNat = 2 ^ count - 1) (fits : count ≤ width) :
    ((value >>> shift &&& mask).setWidth width).toNat =
      value.toNat / 2 ^ shift % 2 ^ count := by
  have small : value.toNat / 2 ^ shift % 2 ^ count < 2 ^ width :=
    Nat.lt_of_lt_of_le (Nat.mod_lt _ (Nat.two_pow_pos count))
      (Nat.pow_le_pow_right (by decide) fits)
  rw [BitVec.toNat_setWidth, toNat_and_mask _ _ _ ones,
    BitVec.toNat_ushiftRight, Nat.shiftRight_eq_div_pow,
    Nat.mod_eq_of_lt small]

theorem gdtFields_gdtEntry (base limit access flags : BitVec 32) :
    GdtFields (gdtEntry base limit access flags) base limit access flags := by
  have baseSmall := base.isLt
  constructor
  · have field := toNat_shift_mask limit 0xFFFF#32 0 16 16 rfl
      (Nat.le_refl _)
    rwa [Nat.pow_zero, Nat.div_one] at field
  · have field := toNat_shift_mask base 0xFFFF#32 0 16 16 rfl
      (Nat.le_refl _)
    rwa [Nat.pow_zero, Nat.div_one] at field
  · exact toNat_shift_mask base 0xFF#32 16 8 8 rfl (Nat.le_refl _)
  · have field := toNat_and_mask access 0xFF#32 8 rfl
    rw [gdtEntry, BitVec.toNat_setWidth, field]
    exact Nat.mod_mod _ _
  · exact nibbles_toNat limit flags
  · have field := toNat_shift_mask base 0xFF#32 24 8 8 rfl (Nat.le_refl _)
    rw [gdtEntry, field]
    omega

/-- The quadword of an entry, from its fields. -/
theorem GdtEntry.StandsAt.quadword
    {entry : GdtEntry} {memory : Memory} {address : Nat}
    (stands : entry.StandsAt memory address) :
    readBytes memory address 8 =
      entry.limitLow.toNat + 2 ^ 16 * entry.baseLow.toNat +
        2 ^ 32 * entry.baseMiddle.toNat + 2 ^ 40 * entry.access.toNat +
        2 ^ 48 * entry.flags.toNat + 2 ^ 56 * entry.baseHigh.toNat := by
  have first := readBytes_add memory address 2 6
  have second := readBytes_add memory (address + 2) 2 4
  have third := readBytes_add memory (address + 4) 1 3
  have fourth := readBytes_add memory (address + 5) 1 2
  have fifth := readBytes_add memory (address + 6) 1 1
  rw [stands.limitLow] at first
  simp only [Nat.add_assoc, Nat.reduceAdd] at second third fourth fifth
  rw [stands.baseLow] at second
  rw [stands.baseMiddle] at third
  rw [stands.access] at fourth
  rw [stands.flags, stands.baseHigh] at fifth
  simp only [Nat.reduceAdd, Nat.reducePow] at *
  omega

/-- Taking the quadword of an entry apart. -/
structure QuadwordFields (quadword limitLow baseLow baseMiddle access flags
    baseHigh : Nat) : Prop where
  limitLow : quadword % 2 ^ 16 = limitLow
  baseLow : quadword / 2 ^ 16 % 2 ^ 24 = baseLow + 2 ^ 16 * baseMiddle
  access : quadword / 2 ^ 40 % 2 ^ 8 = access
  flags : quadword / 2 ^ 48 % 2 ^ 8 = flags
  baseHigh : quadword / 2 ^ 56 = baseHigh

theorem quadwordFields_of_sum
    {limitLow baseLow baseMiddle access flags baseHigh : Nat}
    (limitSmall : limitLow < 2 ^ 16) (baseSmall : baseLow < 2 ^ 16)
    (middleSmall : baseMiddle < 2 ^ 8) (accessSmall : access < 2 ^ 8)
    (flagsSmall : flags < 2 ^ 8) :
    QuadwordFields
      (limitLow + 2 ^ 16 * baseLow + 2 ^ 32 * baseMiddle + 2 ^ 40 * access +
        2 ^ 48 * flags + 2 ^ 56 * baseHigh)
      limitLow baseLow baseMiddle access flags baseHigh := by
  constructor <;> omega

/-- The processor reads from an entry what the macro was given. -/
theorem descriptorOf_gdtEntry
    {base limit access flags : BitVec 32} {memory : Memory} {address : Nat}
    (stands : (gdtEntry base limit access flags).StandsAt memory address) :
    descriptorOf (readBytes memory address 8) =
      { base := base
        limit := limit.setWidth 20
        access := access.setWidth 8
        flags := flags.setWidth 4 } := by
  have given := gdtFields_gdtEntry base limit access flags
  have fields : QuadwordFields (readBytes memory address 8)
      (limit.toNat % 2 ^ 16) (base.toNat % 2 ^ 16)
      (base.toNat / 2 ^ 16 % 2 ^ 8) (access.toNat % 2 ^ 8)
      (limit.toNat / 2 ^ 16 % 2 ^ 4 + 2 ^ 4 * (flags.toNat % 2 ^ 4))
      (base.toNat / 2 ^ 24) := by
    rw [stands.quadword, given.limitLow, given.baseLow, given.baseMiddle,
      given.access, given.flags, given.baseHigh]
    apply quadwordFields_of_sum <;> omega
  rw [descriptorOf, Descriptor.mk.injEq]
  refine ⟨?_, ?_, ?_, ?_⟩
  · apply BitVec.eq_of_toNat_eq
    have small := base.isLt
    rw [BitVec.toNat_ofNat, fields.baseLow, fields.baseHigh]
    omega
  · apply BitVec.eq_of_toNat_eq
    have byte := fields.flags
    rw [BitVec.toNat_ofNat, BitVec.toNat_setWidth, fields.limitLow]
    omega
  · apply BitVec.eq_of_toNat_eq
    rw [bitsFrom, BitVec.toNat_ofNat, BitVec.toNat_setWidth, fields.access]
  · apply BitVec.eq_of_toNat_eq
    have byte := fields.flags
    have above : readBytes memory address 8 / 2 ^ 52 =
        readBytes memory address 8 / 2 ^ 48 / 2 ^ 4 := by
      rw [Nat.div_div_eq_div_mul]
      rfl
    rw [bitsFrom, BitVec.toNat_ofNat, BitVec.toNat_setWidth, above]
    omega

/-! ## Initialisation -/

/-- The addresses of the wrappers `isr0` to `isr31` and `irq0` to `irq15`. -/
structure Wrappers where
  isr : Nat → BitVec 64
  irq : Nat → BitVec 64

/-- The wrappers in the order of their vectors. -/
def Wrappers.inOrder (wrappers : Wrappers) : List (BitVec 64) :=
  (List.range 32).map wrappers.isr ++ (List.range 16).map wrappers.irq

/-- The calls of `idt_set_gate` in `idt_init`. -/
def initCalls (wrappers : Wrappers) : List GateCall :=
  wrappers.inOrder.mapIdx fun i base =>
    { idx := BitVec.ofNat 8 i, base := base, sel := 0x08, ist := 0,
      attrs := 0x8E }

/-- What `idt_init` stores in `IDTR`. -/
def idtrOf (idt : Nat) : TableRegister where
  size := BitVec.ofNat 16 (sizeofIdtEntry * 256 - 1)
  base := BitVec.ofNat 64 idt

/-- `idt_init`, apart from `pic_remap`; `idtr` is the address of `IDTR`. -/
def idtInit (wrappers : Wrappers) (idt idtr : Nat) (memory : Memory) :
    Memory :=
  let memory := storeTableRegister memory idtr (idtrOf idt)
  (initCalls wrappers).foldl (GateCall.perform idt) memory

/-- An interrupt gate of the kernel. -/
def kernelGate (base : BitVec 64) : Gate where
  offset := base
  selector := 0x08
  ist := 0
  gateType := 0xE
  dpl := 0
  present := true

theorem requestedGate_kernel (base : BitVec 64) :
    requestedGate base 0x08 0 0x8E = kernelGate base :=
  rfl

/-- `GDTR`. -/
def gdtr (gdtAddress : Nat) : TableRegister where
  size := BitVec.ofNat 16 (8 * gdt.length - 1)
  base := BitVec.ofNat 64 gdtAddress

/-- Where the tables lie before `idt_init`, and what is in them. -/
structure TableLayout (memory : Memory) (idt idtr gdtAddress : Nat) :
    Prop where
  idtFits : idt + 256 * sizeofIdtEntry ≤ 2 ^ 64
  idtZero : ∀ a, ¬ OutsideIdt idt a → memory a = 0
  idtrApart : ∀ offset, offset < 10 → OutsideIdt idt (idtr + offset)
  gdtFits : gdtAddress + 8 * gdt.length ≤ 2 ^ 64
  gdtStands : ∀ i (inside : i < gdt.length),
    gdt[i].StandsAt memory (gdtAddress + 8 * i)
  gdtApart : ∀ offset, offset < 8 * gdt.length →
    OutsideIdt idt (gdtAddress + offset) ∧
      (gdtAddress + offset < idtr ∨ idtr + 10 ≤ gdtAddress + offset)

/-- A call for a vector that no other call is for decides on its gate. -/
theorem lastGate_of_unique
    {calls : List GateCall} {call : GateCall} {vector : BitVec 8}
    (member : call ∈ calls) (isFor : call.idx = vector)
    (unique : ∀ other ∈ calls, other.idx = vector → other = call)
    (before : Gate) :
    lastGate calls vector before = call.gate := by
  rw [lastGate]
  cases found : calls.reverse.find? fun call => call.idx = vector with
  | none =>
      have missing := List.find?_eq_none.mp found call
        (List.mem_reverse.mpr member)
      exact absurd (decide_eq_true isFor) missing
  | some other =>
      have sought := List.find?_some found
      have inside := List.mem_reverse.mp (List.mem_of_find?_eq_some found)
      rw [unique other inside (of_decide_eq_true sought)]
      rfl

theorem lastGate_of_absent
    {calls : List GateCall} {vector : BitVec 8}
    (absent : ∀ call ∈ calls, call.idx ≠ vector) (before : Gate) :
    lastGate calls vector before = before := by
  have none_ : (calls.reverse.find? fun call => call.idx = vector) = none := by
    apply List.find?_eq_none.mpr
    intro call member isFor
    exact absent call (List.mem_reverse.mp member) (of_decide_eq_true isFor)
  rw [lastGate, none_]
  rfl

section

variable (wrappers : Wrappers)

theorem length_inOrder : wrappers.inOrder.length = 48 := by
  rw [Wrappers.inOrder, List.length_append, List.length_map, List.length_map,
    List.length_range, List.length_range]

theorem mem_initCalls_iff {call : GateCall} :
    call ∈ initCalls wrappers ↔
      ∃ i, ∃ inside : i < wrappers.inOrder.length,
        { idx := BitVec.ofNat 8 i, base := wrappers.inOrder[i], sel := 0x08,
          ist := 0, attrs := 0x8E } = call := by
  rw [initCalls, List.mem_mapIdx]

/-- The calls set the gates of the first 48 vectors to their wrappers. -/
theorem lastGate_initCalls (vector : BitVec 8) (before : Gate) :
    lastGate (initCalls wrappers) vector before =
      (wrappers.inOrder[vector.toNat]?.map kernelGate).getD before := by
  have all := length_inOrder wrappers
  by_cases handled : vector.toNat < wrappers.inOrder.length
  · rw [List.getElem?_eq_getElem handled]
    have member : (⟨BitVec.ofNat 8 vector.toNat,
        wrappers.inOrder[vector.toNat], 0x08, 0, 0x8E⟩ : GateCall) ∈
          initCalls wrappers :=
      (mem_initCalls_iff wrappers).mpr ⟨vector.toNat, handled, rfl⟩
    have named : BitVec.ofNat 8 vector.toNat = vector :=
      BitVec.ofNat_toNat .. ▸ BitVec.setWidth_eq vector
    rw [lastGate_of_unique member named]
    · exact requestedGate_kernel _
    · intro other otherMember isFor
      obtain ⟨i, inside, rfl⟩ :=
        (mem_initCalls_iff wrappers).mp otherMember
      have same : i = vector.toNat := by
        rw [← isFor, BitVec.toNat_ofNat]
        omega
      subst same
      rfl
  · rw [List.getElem?_eq_none (Nat.not_lt.mp handled)]
    apply lastGate_of_absent
    intro call member isFor
    obtain ⟨i, inside, rfl⟩ := (mem_initCalls_iff wrappers).mp member
    apply handled
    rw [← isFor, BitVec.toNat_ofNat]
    omega

end

/-- A gate in zero bytes is not present. -/
theorem gateAt_of_zero
    {memory : Memory} {address : Nat}
    (zero : ∀ offset, offset < sizeofIdtEntry →
      memory (address + offset) = 0) :
    (gateAt memory address).present = false := by
  have low : readBytes memory address 8 = 0 :=
    readBytes_of_zero fun offset small =>
      zero offset (Nat.lt_of_lt_of_le small (by decide))
  rw [gateAt, gateOf, low]
  rfl

/-- What interrupts find after `idt_init`. -/
structure InterruptsRouted (memory : Memory) (idtr gdtAddress : Nat)
    (wrappers : Wrappers) : Prop where
  handled : ∀ (vector : BitVec 8)
      (inside : vector.toNat < wrappers.inOrder.length),
    gateThrough memory (loadTableRegister memory idtr) vector =
      some (kernelGate wrappers.inOrder[vector.toNat])
  others : ∀ vector : BitVec 8, wrappers.inOrder.length ≤ vector.toNat →
    (gateThrough memory (loadTableRegister memory idtr) vector).map
      Gate.present = some false
  segment :
    (descriptorThrough memory (gdtr gdtAddress) (kernelGate 0).selector).map
      Descriptor.isKernelCode64 = some true

namespace TableLayout

variable {memory : Memory} {idt idtr gdtAddress : Nat}

/-- `lidt` loads what `idt_init` has stored. -/
theorem loadTableRegister_idtInit
    (layout : TableLayout memory idt idtr gdtAddress)
    (wrappers : Wrappers) :
    loadTableRegister (idtInit wrappers idt idtr memory) idtr =
      idtrOf idt := by
  have unchanged (offset : Nat) (small : offset < 10) :
      idtInit wrappers idt idtr memory (idtr + offset) =
        storeTableRegister memory idtr (idtrOf idt) (idtr + offset) :=
    foldl_perform_outside (layout.idtrApart offset small) _ _
  have size : readBytes (idtInit wrappers idt idtr memory) idtr 2 =
      readBytes (storeTableRegister memory idtr (idtrOf idt)) idtr 2 := by
    apply readBytes_congr
    intro offset small
    exact unchanged offset (Nat.lt_trans small (by decide))
  have base : readBytes (idtInit wrappers idt idtr memory) (idtr + 2) 8 =
      readBytes (storeTableRegister memory idtr (idtrOf idt))
        (idtr + 2) 8 := by
    apply readBytes_congr
    intro offset small
    rw [Nat.add_assoc]
    exact unchanged (2 + offset) (Nat.add_lt_add_left small 2)
  rw [← loadTableRegister_storeTableRegister memory idtr (idtrOf idt),
    loadTableRegister, loadTableRegister, size, base]

/-- The gates of the table after `idt_init`. -/
theorem gateThrough_idtInit
    (layout : TableLayout memory idt idtr gdtAddress)
    (wrappers : Wrappers) (vector : BitVec 8) :
    gateThrough (idtInit wrappers idt idtr memory)
        (loadTableRegister (idtInit wrappers idt idtr memory) idtr) vector =
      some (lastGate (initCalls wrappers) vector
        (gatesAt (storeTableRegister memory idtr (idtrOf idt)) idt
          vector)) := by
  have small := vector.isLt
  have fits := layout.idtFits
  have named : (idtrOf idt).base.toNat = idt := by
    rw [idtrOf, BitVec.toNat_ofNat]
    apply Nat.mod_eq_of_lt
    simp only [sizeofIdtEntry] at fits
    omega
  have limit : sizeofIdtEntry * vector.toNat + 15 ≤
      (idtrOf idt).size.toNat := by
    show 16 * vector.toNat + 15 ≤ 4095
    omega
  rw [layout.loadTableRegister_idtInit, gateThrough, if_pos limit, named,
    idtInit, gatesAt_foldl_perform]

/-- The vectors with a wrapper have an interrupt gate that leads to it. -/
theorem gateThrough_handled
    (layout : TableLayout memory idt idtr gdtAddress)
    (wrappers : Wrappers) {vector : BitVec 8}
    (inside : vector.toNat < wrappers.inOrder.length) :
    gateThrough (idtInit wrappers idt idtr memory)
        (loadTableRegister (idtInit wrappers idt idtr memory) idtr) vector =
      some (kernelGate wrappers.inOrder[vector.toNat]) := by
  rw [layout.gateThrough_idtInit, lastGate_initCalls,
    List.getElem?_eq_getElem inside]
  rfl

/-- Entries that `idt_init` does not set stay zero. -/
theorem not_present_before
    (layout : TableLayout memory idt idtr gdtAddress) (vector : BitVec 8)
    (register : TableRegister) :
    (gatesAt (storeTableRegister memory idtr register) idt
      vector).present = false := by
  apply gateAt_of_zero
  intro offset small
  have inTable := vector.isLt
  have inside : ¬ OutsideIdt idt (idtEntryAddress idt vector + offset) := by
    simp only [OutsideIdt, idtEntryAddress, sizeofIdtEntry] at small ⊢
    omega
  have apart : idtEntryAddress idt vector + offset < idtr ∨
      idtr + 10 ≤ idtEntryAddress idt vector + offset := by
    by_cases before : idtEntryAddress idt vector + offset < idtr
    · exact Or.inl before
    · right
      apply Nat.not_lt.mp
      intro within
      have clash := layout.idtrApart
        (idtEntryAddress idt vector + offset - idtr) (by omega)
      rw [Nat.add_sub_cancel' (Nat.not_lt.mp before)] at clash
      exact inside clash
  rw [storeTableRegister, writeBytes_outside _ _ (by omega),
    writeBytes_outside _ _ (by omega)]
  exact layout.idtZero _ inside

/-- The descriptors are as before. -/
theorem descriptorThrough_idtInit
    (layout : TableLayout memory idt idtr gdtAddress)
    (wrappers : Wrappers) :
    descriptorThrough (idtInit wrappers idt idtr memory) (gdtr gdtAddress)
        (kernelGate 0).selector =
      some
        { base := 0, limit := 0xFFFFF, access := 0x9A, flags := 0xA } := by
  have fits := layout.gdtFits
  have named : (BitVec.ofNat 64 gdtAddress).toNat = gdtAddress := by
    rw [BitVec.toNat_ofNat]
    apply Nat.mod_eq_of_lt
    simp only [gdt, List.length_cons, List.length_nil] at fits
    omega
  have unchanged :
      readBytes (idtInit wrappers idt idtr memory) (gdtAddress + 8) 8 =
        readBytes memory (gdtAddress + 8) 8 := by
    apply readBytes_congr
    intro offset small
    have apart := layout.gdtApart (8 + offset)
      (Nat.lt_of_lt_of_le (Nat.add_lt_add_left small 8) (by decide))
    rw [← Nat.add_assoc] at apart
    rw [idtInit, foldl_perform_outside apart.1, storeTableRegister,
      writeBytes_outside _ _ (by omega), writeBytes_outside _ _ (by omega)]
  have code := layout.gdtStands 1 (by decide)
  have descriptor := descriptorOf_gdtEntry code
  show some (descriptorOf (readBytes (idtInit wrappers idt idtr memory)
    ((BitVec.ofNat 64 gdtAddress).toNat + 8) 8)) = _
  rw [named, unchanged]
  exact congrArg some descriptor

end TableLayout

/--
After `idt_init`, wherever the tables lie, each of the 48 vectors with a wrapper
has a present interrupt gate for it, through a segment of 64-bit code of the
kernel, and no other vector has a present gate.
-/
theorem interrupts_routed
    {memory : Memory} {idt idtr gdtAddress : Nat}
    (layout : TableLayout memory idt idtr gdtAddress)
    (wrappers : Wrappers) :
    InterruptsRouted (idtInit wrappers idt idtr memory) idtr gdtAddress
      wrappers where
  handled _ inside := layout.gateThrough_handled wrappers inside
  others vector beyond := by
    rw [layout.gateThrough_idtInit, lastGate_initCalls,
      List.getElem?_eq_none beyond]
    exact congrArg some (layout.not_present_before vector _)
  segment := by
    rw [layout.descriptorThrough_idtInit]
    decide

/-- The bytes of an entry. -/
def GdtEntry.bytes (entry : GdtEntry) : List (BitVec 8) :=
  [bitsFrom entry.limitLow.toNat 0 8, bitsFrom entry.limitLow.toNat 8 8,
    bitsFrom entry.baseLow.toNat 0 8, bitsFrom entry.baseLow.toNat 8 8,
    entry.baseMiddle, entry.access, entry.flags, entry.baseHigh]

/-- Memory with the `GDT` at 0x4000 and zeros elsewhere. -/
def gdtMemory : Memory :=
  fun a => (gdt.flatMap GdtEntry.bytes).getD (a - 0x4000) 0

theorem gdtMemory_layout : TableLayout gdtMemory 0x1000 0x3000 0x4000 where
  idtFits := by decide
  idtZero a inside := by
    have low : a - 0x4000 = 0 := by
      simp only [OutsideIdt, sizeofIdtEntry] at inside
      omega
    rw [gdtMemory, low]
    decide
  idtrApart offset small := by
    simp only [OutsideIdt, sizeofIdtEntry]
    omega
  gdtFits := by decide
  gdtStands i inside := by
    have places : i = 0 ∨ i = 1 ∨ i = 2 ∨ i = 3 ∨ i = 4 := by
      simp only [gdt, List.length_cons, List.length_nil] at inside
      omega
    rcases places with rfl | rfl | rfl | rfl | rfl <;>
      constructor <;> rfl
  gdtApart offset small := by
    simp only [gdt, List.length_cons, List.length_nil] at small
    simp only [OutsideIdt, sizeofIdtEntry]
    omega

/-- Wrappers of 16 bytes, one behind the other. -/
def wrappersInRow : Wrappers where
  isr i := BitVec.ofNat 64 (0x100000 + 16 * i)
  irq i := BitVec.ofNat 64 (0x100200 + 16 * i)

/-- The tables at three addresses apart from each other. -/
theorem interrupts_routed_gdtMemory :
    TableLayout gdtMemory 0x1000 0x3000 0x4000 ∧
    InterruptsRouted (idtInit wrappersInRow 0x1000 0x3000 gdtMemory) 0x3000
      0x4000 wrappersInRow :=
  ⟨gdtMemory_layout, interrupts_routed gdtMemory_layout wrappersInRow⟩

end Kernull.DescriptorTables
