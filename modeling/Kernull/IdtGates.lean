import Mathlib.Algebra.Group.Nat.Defs
import Kernull.Library.ByteMemory

/-!
# Gates of the interrupt descriptor table

`idt_entry` of `include/arch/x86_64/idt.h` and `idt_set_gate` of
`arch/x86_64/idt.c` on a memory of bytes, and the gates that the processor
reads from the table.  The source stores the fields of an entry one by one; the
processor loads two quadwords and takes them apart.  Read in this way, the
table is a map from vectors to gates that every call changes in one place.
-/

namespace Kernull.IdtGates

open Kernull.Library.ByteMemory

/-! ## The entries of the source -/

/-- `sizeof(idt_entry)`. -/
def sizeofIdtEntry : Nat := 16

/-- `&IDT[idx]`. -/
def idtEntryAddress (idt : Nat) (idx : BitVec 8) : Nat :=
  idt + sizeofIdtEntry * idx.toNat

/-- `idt_set_gate`, on the table at `idt`. -/
def idtSetGate (idt : Nat) (idx : BitVec 8) (base : BitVec 64)
    (sel : BitVec 16) (ist attrs : BitVec 8) (memory : Memory) : Memory :=
  let entry := idtEntryAddress idt idx
  let memory := writeBytes memory entry 2 (base &&& 0xFFFF#64).toNat
  let memory :=
    writeBytes memory (entry + 6) 2 (base >>> 16 &&& 0xFFFF#64).toNat
  let memory :=
    writeBytes memory (entry + 8) 4 (base >>> 32 &&& 0xFFFFFFFF#64).toNat
  let memory := writeBytes memory (entry + 2) 2 sel.toNat
  let memory := writeBytes memory (entry + 4) 1 (ist &&& 0b111#8).toNat
  writeBytes memory (entry + 5) 1 attrs.toNat

/-! ## The gates of the processor -/

/-- What the processor makes of an entry. -/
structure Gate where
  offset : BitVec 64
  selector : BitVec 16
  ist : BitVec 3
  gateType : BitVec 4
  dpl : BitVec 2
  present : Bool
  deriving DecidableEq

/-- The bits of a quadword from `start` on. -/
def bitsFrom (quadword start width : Nat) : BitVec width :=
  BitVec.ofNat width (quadword / 2 ^ start)

/-- The gate in two quadwords. -/
def gateOf (low high : Nat) : Gate where
  offset :=
    BitVec.ofNat 64
      (low % 2 ^ 16 + 2 ^ 16 * (low / 2 ^ 48) + 2 ^ 32 * (high % 2 ^ 32))
  selector := bitsFrom low 16 16
  ist := bitsFrom low 32 3
  gateType := bitsFrom low 40 4
  dpl := bitsFrom low 45 2
  present := bitsFrom low 47 1 = 1

/-- The gate at an address. -/
def gateAt (memory : Memory) (address : Nat) : Gate :=
  gateOf (readBytes memory address 8) (readBytes memory (address + 8) 8)

/-- The gates of the table at `idt`. -/
def gatesAt (memory : Memory) (idt : Nat) (vector : BitVec 8) : Gate :=
  gateAt memory (idtEntryAddress idt vector)

/-- The gate that a call of `idt_set_gate` asks for. -/
def requestedGate (base : BitVec 64) (sel : BitVec 16)
    (ist attrs : BitVec 8) : Gate where
  offset := base
  selector := sel
  ist := ist.setWidth 3
  gateType := attrs.setWidth 4
  dpl := bitsFrom attrs.toNat 5 2
  present := attrs.msb

/-! ## One entry -/

/-- The quadwords of an entry, from its fields. -/
theorem readBytes_entry
    (memory : Memory) (entry : Nat) :
    readBytes memory entry 8 =
      readBytes memory entry 2 +
        2 ^ 16 * readBytes memory (entry + 2) 2 +
        2 ^ 32 * readBytes memory (entry + 4) 1 +
        2 ^ 40 * readBytes memory (entry + 5) 1 +
        2 ^ 48 * readBytes memory (entry + 6) 2 := by
  have first := readBytes_add memory entry 2 6
  have second := readBytes_add memory (entry + 2) 2 4
  have third := readBytes_add memory (entry + 4) 1 3
  have fourth := readBytes_add memory (entry + 5) 1 2
  simp only [Nat.add_assoc, Nat.reduceAdd, Nat.reducePow] at *
  omega

/-- The fields that a call stores. -/
structure FieldsStored (after : Memory) (entry : Nat) (base : BitVec 64)
    (sel : BitVec 16) (ist attrs : BitVec 8) : Prop where
  baseLow : readBytes after entry 2 = base.toNat % 2 ^ 16
  selector : readBytes after (entry + 2) 2 = sel.toNat
  ist : readBytes after (entry + 4) 1 = ist.toNat % 8
  attrs : readBytes after (entry + 5) 1 = attrs.toNat
  baseMid : readBytes after (entry + 6) 2 = base.toNat / 2 ^ 16 % 2 ^ 16
  baseHigh : readBytes after (entry + 8) 4 = base.toNat / 2 ^ 32

/-- Masking with ones keeps the low bits. -/
theorem toNat_and_mask
    {width : Nat} (value mask : BitVec width) (count : Nat)
    (ones : mask.toNat = 2 ^ count - 1) :
    (value &&& mask).toNat = value.toNat % 2 ^ count := by
  rw [BitVec.toNat_and, ones, Nat.and_two_pow_sub_one_eq_mod]

theorem fieldsStored_idtSetGate
    (idt : Nat) (idx : BitVec 8) (base : BitVec 64) (sel : BitVec 16)
    (ist attrs : BitVec 8) (memory : Memory) :
    FieldsStored (idtSetGate idt idx base sel ist attrs memory)
      (idtEntryAddress idt idx) base sel ist attrs := by
  have baseSmall := base.isLt
  have selSmall := sel.isLt
  have attrsSmall := attrs.isLt
  simp only [idtSetGate]
  generalize idtEntryAddress idt idx = entry
  constructor
  · rw [readBytes_writeBytes_of_disjoint _ _ (by omega),
      readBytes_writeBytes_of_disjoint _ _ (by omega),
      readBytes_writeBytes_of_disjoint _ _ (by omega),
      readBytes_writeBytes_of_disjoint _ _ (by omega),
      readBytes_writeBytes_of_disjoint _ _ (by omega),
      readBytes_writeBytes_same, toNat_and_mask base _ 16 rfl]
    omega
  · rw [readBytes_writeBytes_of_disjoint _ _ (by omega),
      readBytes_writeBytes_of_disjoint _ _ (by omega),
      readBytes_writeBytes_same]
    omega
  · rw [readBytes_writeBytes_of_disjoint _ _ (by omega),
      readBytes_writeBytes_same, toNat_and_mask ist _ 3 rfl]
    omega
  · rw [readBytes_writeBytes_same]
    omega
  · rw [readBytes_writeBytes_of_disjoint _ _ (by omega),
      readBytes_writeBytes_of_disjoint _ _ (by omega),
      readBytes_writeBytes_of_disjoint _ _ (by omega),
      readBytes_writeBytes_of_disjoint _ _ (by omega),
      readBytes_writeBytes_same, toNat_and_mask _ _ 16 rfl,
      BitVec.toNat_ushiftRight, Nat.shiftRight_eq_div_pow]
    omega
  · rw [readBytes_writeBytes_of_disjoint _ _ (by omega),
      readBytes_writeBytes_of_disjoint _ _ (by omega),
      readBytes_writeBytes_of_disjoint _ _ (by omega),
      readBytes_writeBytes_same, toNat_and_mask _ _ 32 rfl,
      BitVec.toNat_ushiftRight, Nat.shiftRight_eq_div_pow]
    omega

/-- Taking the lower quadword of an entry apart. -/
structure LowFields (low baseLow sel ist attrs baseMid : Nat) : Prop where
  baseLow : low % 2 ^ 16 = baseLow
  selector : low / 2 ^ 16 % 2 ^ 16 = sel
  ist : low / 2 ^ 32 % 2 ^ 8 = ist
  attrs : low / 2 ^ 40 = attrs + 2 ^ 8 * baseMid
  baseMid : low / 2 ^ 48 = baseMid

theorem lowFields_of_sum
    {baseLow sel ist attrs baseMid : Nat} (baseLowSmall : baseLow < 2 ^ 16)
    (selSmall : sel < 2 ^ 16) (istSmall : ist < 2 ^ 8)
    (attrsSmall : attrs < 2 ^ 8) :
    LowFields
      (baseLow + 2 ^ 16 * sel + 2 ^ 32 * ist + 2 ^ 40 * attrs +
        2 ^ 48 * baseMid) baseLow sel ist attrs baseMid := by
  constructor <;> omega

/-- The processor reads the gate that was asked for from the stored fields. -/
theorem FieldsStored.gateAt_eq
    {after : Memory} {entry : Nat} {base : BitVec 64} {sel : BitVec 16}
    {ist attrs : BitVec 8}
    (stored : FieldsStored after entry base sel ist attrs) :
    gateAt after entry = requestedGate base sel ist attrs := by
  have fields : LowFields (readBytes after entry 8) (base.toNat % 2 ^ 16)
      sel.toNat (ist.toNat % 8) attrs.toNat
      (base.toNat / 2 ^ 16 % 2 ^ 16) := by
    rw [readBytes_entry, stored.baseLow, stored.selector, stored.ist,
      stored.attrs, stored.baseMid]
    apply lowFields_of_sum
    · exact Nat.mod_lt _ (by decide)
    · exact sel.isLt
    · exact Nat.lt_trans (Nat.mod_lt _ (by decide)) (by decide)
    · exact attrs.isLt
  have high : readBytes after (entry + 8) 8 % 2 ^ 32 = base.toNat / 2 ^ 32 :=
    (readBytes_front after (entry + 8) (show 4 ≤ 8 by omega)).symm.trans
      stored.baseHigh
  have attributesBehind (start : Nat) :
      readBytes after entry 8 / 2 ^ (40 + start) =
        (attrs.toNat + 2 ^ 8 * (base.toNat / 2 ^ 16 % 2 ^ 16)) /
          2 ^ start := by
    rw [Nat.pow_add, ← Nat.div_div_eq_div_mul, fields.attrs]
  rw [gateAt, gateOf, requestedGate, Gate.mk.injEq]
  refine ⟨?_, ?_, ?_, ?_, ?_, ?_⟩
  · apply BitVec.eq_of_toNat_eq
    have small := base.isLt
    rw [BitVec.toNat_ofNat, fields.baseLow, fields.baseMid, high]
    omega
  · apply BitVec.eq_of_toNat_eq
    rw [bitsFrom, BitVec.toNat_ofNat, fields.selector]
  · apply BitVec.eq_of_toNat_eq
    have byte := fields.ist
    rw [bitsFrom, BitVec.toNat_ofNat, BitVec.toNat_setWidth]
    omega
  · apply BitVec.eq_of_toNat_eq
    rw [bitsFrom, BitVec.toNat_ofNat, BitVec.toNat_setWidth, fields.attrs]
    omega
  · apply BitVec.eq_of_toNat_eq
    rw [bitsFrom, bitsFrom, BitVec.toNat_ofNat, BitVec.toNat_ofNat,
      attributesBehind 5]
    omega
  · have small := attrs.isLt
    rw [BitVec.msb_eq_decide]
    apply decide_eq_decide.mpr
    rw [bitsFrom, ← BitVec.toNat_inj, BitVec.toNat_ofNat, attributesBehind 7]
    show _ % 2 ^ 1 = 1 ↔ 2 ^ 7 ≤ attrs.toNat
    omega

/-! ## The table -/

/-- A call writes no byte outside the entry. -/
theorem idtSetGate_outside
    (idt : Nat) (idx : BitVec 8) (base : BitVec 64) (sel : BitVec 16)
    (ist attrs : BitVec 8) (memory : Memory) {a : Nat}
    (outside : a < idtEntryAddress idt idx ∨
      idtEntryAddress idt idx + 12 ≤ a) :
    idtSetGate idt idx base sel ist attrs memory a = memory a := by
  simp only [idtSetGate]
  rw [writeBytes_outside _ _ (by omega), writeBytes_outside _ _ (by omega),
    writeBytes_outside _ _ (by omega), writeBytes_outside _ _ (by omega),
    writeBytes_outside _ _ (by omega), writeBytes_outside _ _ (by omega)]

/-- A gate depends only on the bytes of its entry. -/
theorem gateAt_congr
    {left right : Memory} {address : Nat}
    (agree : ∀ offset, offset < sizeofIdtEntry →
      left (address + offset) = right (address + offset)) :
    gateAt left address = gateAt right address := by
  have low : readBytes left address 8 = readBytes right address 8 := by
    apply readBytes_congr
    intro offset small
    exact agree offset (Nat.lt_of_lt_of_le small (by decide))
  have high : readBytes left (address + 8) 8 =
      readBytes right (address + 8) 8 := by
    apply readBytes_congr
    intro offset small
    rw [Nat.add_assoc]
    exact agree (8 + offset) (Nat.add_lt_add_left small 8)
  rw [gateAt, gateAt, low, high]

/-- A call changes the gate of one vector. -/
theorem gatesAt_idtSetGate
    (idt : Nat) (idx : BitVec 8) (base : BitVec 64) (sel : BitVec 16)
    (ist attrs : BitVec 8) (memory : Memory) :
    gatesAt (idtSetGate idt idx base sel ist attrs memory) idt =
      Function.update (gatesAt memory idt) idx
        (requestedGate base sel ist attrs) := by
  funext vector
  by_cases same : vector = idx
  · subst same
    rw [Function.update_self]
    exact (fieldsStored_idtSetGate idt vector base sel ist attrs
      memory).gateAt_eq
  · rw [Function.update_of_ne same]
    apply gateAt_congr
    intro offset small
    apply idtSetGate_outside
    have different : vector.toNat ≠ idx.toNat :=
      fun equal => same (BitVec.eq_of_toNat_eq equal)
    simp only [idtEntryAddress, sizeofIdtEntry] at small ⊢
    omega

end Kernull.IdtGates
