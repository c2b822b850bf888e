import Mathlib.Algebra.Group.Nat.Defs
import Mathlib.Tactic.Common

/-!
# Page map level entries

The `pml_entry` union of `arch/x86_64/pml.h`.  An entry is its 64-bit word
`full`; the bit-fields are read from and written to that word.  Addresses
are the values of the 40-bit field, that is, frame numbers.
-/

namespace Kernull.Pml

/-- `pml_entry`, represented by its `full` member. -/
abbrev PmlEntry := BitVec 64

/-- `PML_FLAG_WRITABLE`. -/
def pmlFlagWritable : BitVec 64 := 0x02

/-- `PML_FLAG_USER`. -/
def pmlFlagUser : BitVec 64 := 0x04

/-- `PML_FLAG_NOEXECUTE`. -/
def pmlFlagNoexecute : BitVec 64 := 0x8000000000000000

/-- `PML_FLAG_HUGE`. -/
def pmlFlagHuge : BitVec 64 := 0x80

/-- `PML_FLAGS_MASK`. -/
def pmlFlagsMask : BitVec 64 := 0x800000000000019E

/-- `entry.bits.present`. -/
def present (entry : PmlEntry) : Bool :=
  entry.getLsbD 0

/-- `entry.bits.writable`. -/
def writable (entry : PmlEntry) : Bool :=
  entry.getLsbD 1

/-- `entry.bits.user`. -/
def user (entry : PmlEntry) : Bool :=
  entry.getLsbD 2

/-- `entry.bits.noexec`. -/
def noexec (entry : PmlEntry) : Bool :=
  entry.getLsbD 63

/-- `entry.bits.huge`. -/
def huge (entry : PmlEntry) : Bool :=
  entry.getLsbD 7

/-- `entry.bits.address`. -/
def address (entry : PmlEntry) : Nat :=
  (entry.extractLsb' 12 40).toNat

/-- The bits of the `address` field. -/
def addressField : BitVec 64 :=
  (BitVec.allOnes 40).setWidth 64 <<< 12

/-- `entry.bits.address = value`; the field keeps the low 40 bits. -/
def setAddress (entry : PmlEntry) (value : Nat) : PmlEntry :=
  (entry &&& ~~~ addressField) |||
    ((BitVec.ofNat 40 value).setWidth 64 <<< 12)

/-- `entry.bits.present = 1`. -/
def setPresent (entry : PmlEntry) : PmlEntry :=
  entry ||| 1#64

/-- `flags = (flags & PML_FLAGS_MASK) & ~(PML_FLAG_HUGE)`. -/
def allowedFlags (flags : BitVec 64) : BitVec 64 :=
  (flags &&& pmlFlagsMask) &&& ~~~ pmlFlagHuge

/-- `entry.full |= flags`. -/
def orFlags (entry : PmlEntry) (flags : BitVec 64) : PmlEntry :=
  entry ||| allowedFlags flags

/-- A word meets the mask of one bit exactly when that bit is set. -/
theorem and_bit_ne_zero_iff
    {width bit : Nat} (word : BitVec width) (inWord : bit < width) :
    word &&& (BitVec.ofNat width 1 <<< bit) ≠ BitVec.ofNat width 0 ↔
      word.getLsbD bit = true := by
  rw [← BitVec.twoPow_eq, BitVec.and_twoPow]
  split_ifs with set
  · refine iff_of_true (fun zero => ?_) set
    have own := congrArg (fun mask => mask.getLsbD bit) zero
    simp [inWord] at own
  · exact iff_of_false (not_not.mpr rfl) set

theorem address_lt (entry : PmlEntry) : address entry < 2 ^ 40 :=
  (entry.extractLsb' 12 40).isLt

theorem present_eq (entry : PmlEntry) :
    present entry = decide (entry.toNat % 2 = 1) := by
  rw [present, BitVec.getLsbD, Nat.testBit_zero]

theorem huge_eq (entry : PmlEntry) :
    huge entry = decide (entry.toNat / 128 % 2 = 1) := by
  rw [huge, BitVec.getLsbD, Nat.testBit_eq_decide_div_mod_eq]

theorem address_eq (entry : PmlEntry) :
    address entry = entry.toNat / 4096 % 2 ^ 40 := by
  rw [address, BitVec.extractLsb'_toNat, Nat.shiftRight_eq_div_pow]

theorem present_zero : present (0 : PmlEntry) = false := by
  decide

theorem address_zero : address (0 : PmlEntry) = 0 := by
  decide

/-- The allowed flags are none of the bits `present`, `huge`, `address`. -/
theorem allowedFlags_getLsbD
    (flags : BitVec 64) {bit : Nat}
    (field : bit = 0 ∨ bit = 7 ∨ (12 ≤ bit ∧ bit < 52)) :
    (allowedFlags flags).getLsbD bit = false := by
  have masked : ∀ position : Fin 64,
      (position.val = 0 ∨ position.val = 7 ∨
        (12 ≤ position.val ∧ position.val < 52)) →
      (pmlFlagsMask.getLsbD position.val &&
        (~~~ pmlFlagHuge).getLsbD position.val) = false := by
    decide
  have inMask := masked ⟨bit, by omega⟩ field
  rw [allowedFlags, BitVec.getLsbD_and, BitVec.getLsbD_and, Bool.and_assoc,
    inMask, Bool.and_false]

theorem addressField_getLsbD {bit : Nat} :
    addressField.getLsbD bit = (decide (12 ≤ bit) && decide (bit < 52)) := by
  by_cases inWord : bit < 64
  · have field : ∀ position : Fin 64,
        addressField.getLsbD position.val =
          (decide (12 ≤ position.val) && decide (position.val < 52)) := by
      decide
    exact field ⟨bit, inWord⟩
  · rw [BitVec.getLsbD_of_ge _ _ (by omega)]
    simp
    omega

/-- Entries with the same address bits have the same address. -/
theorem address_congr
    {left right : PmlEntry}
    (agree : ∀ bit, bit < 40 →
      left.getLsbD (12 + bit) = right.getLsbD (12 + bit)) :
    address left = address right := by
  rw [address, address]
  congr 1
  apply BitVec.eq_of_getLsbD_eq
  intro bit bound
  rw [BitVec.getLsbD_extractLsb', BitVec.getLsbD_extractLsb',
    agree bit bound]

@[simp]
theorem address_setAddress (entry : PmlEntry) (value : Nat) :
    address (setAddress entry value) = value % 2 ^ 40 := by
  have field : (setAddress entry value).extractLsb' 12 40 =
      BitVec.ofNat 40 value := by
    apply BitVec.eq_of_getLsbD_eq
    intro bit bound
    rw [BitVec.getLsbD_extractLsb', setAddress, BitVec.getLsbD_or,
      BitVec.getLsbD_and, BitVec.getLsbD_not, addressField_getLsbD,
      BitVec.getLsbD_shiftLeft, BitVec.getLsbD_setWidth]
    have inWord : 12 + bit < 64 := by omega
    have inField : 12 + bit < 52 := by omega
    have narrow : bit < 64 := by omega
    simp [bound, inWord, inField, narrow]
  rw [address, field, BitVec.toNat_ofNat]

@[simp]
theorem present_setAddress (entry : PmlEntry) (value : Nat) :
    present (setAddress entry value) = present entry := by
  have outside : addressField.getLsbD 0 = false := by decide
  rw [present, setAddress, BitVec.getLsbD_or, BitVec.getLsbD_and,
    BitVec.getLsbD_not, outside, BitVec.getLsbD_shiftLeft]
  simp [present]

@[simp]
theorem huge_setAddress (entry : PmlEntry) (value : Nat) :
    huge (setAddress entry value) = huge entry := by
  have outside : addressField.getLsbD 7 = false := by decide
  rw [huge, setAddress, BitVec.getLsbD_or, BitVec.getLsbD_and,
    BitVec.getLsbD_not, outside, BitVec.getLsbD_shiftLeft]
  simp [huge]

@[simp]
theorem present_setPresent (entry : PmlEntry) :
    present (setPresent entry) = true := by
  simp [present, setPresent]

@[simp]
theorem huge_setPresent (entry : PmlEntry) :
    huge (setPresent entry) = huge entry := by
  simp [huge, setPresent]

@[simp]
theorem address_setPresent (entry : PmlEntry) :
    address (setPresent entry) = address entry := by
  apply address_congr
  intro bit bound
  rw [setPresent, BitVec.getLsbD_or]
  have above : (1#64).getLsbD (12 + bit) = false := by
    rw [BitVec.getLsbD_one]
    simp
  rw [above, Bool.or_false]

@[simp]
theorem present_orFlags (entry : PmlEntry) (flags : BitVec 64) :
    present (orFlags entry flags) = present entry := by
  rw [present, orFlags, BitVec.getLsbD_or,
    allowedFlags_getLsbD flags (Or.inl rfl), Bool.or_false, present]

@[simp]
theorem huge_orFlags (entry : PmlEntry) (flags : BitVec 64) :
    huge (orFlags entry flags) = huge entry := by
  rw [huge, orFlags, BitVec.getLsbD_or,
    allowedFlags_getLsbD flags (Or.inr (Or.inl rfl)), Bool.or_false, huge]

@[simp]
theorem address_orFlags (entry : PmlEntry) (flags : BitVec 64) :
    address (orFlags entry flags) = address entry := by
  apply address_congr
  intro bit bound
  rw [orFlags, BitVec.getLsbD_or, allowedFlags_getLsbD flags
    (Or.inr (Or.inr (by omega))), Bool.or_false]

/-! ## Permission bits -/

/-- The bits `writable`, `user` and `noexec`. -/
def PermissionBit (bit : Nat) : Prop :=
  bit = 1 ∨ bit = 2 ∨ bit = 63

/-- The flags of permissions are among those that are allowed. -/
theorem allowedFlags_permission
    (flags : BitVec 64) {bit : Nat} (permission : PermissionBit bit) :
    (allowedFlags flags).getLsbD bit = flags.getLsbD bit := by
  have masked : ∀ position : Fin 64, PermissionBit position.val →
      (pmlFlagsMask.getLsbD position.val &&
        (~~~ pmlFlagHuge).getLsbD position.val) = true := by
    unfold PermissionBit
    decide
  have inWord : bit < 64 := by
    unfold PermissionBit at permission
    omega
  have inMask := masked ⟨bit, inWord⟩ permission
  rw [allowedFlags, BitVec.getLsbD_and, BitVec.getLsbD_and, Bool.and_assoc,
    inMask, Bool.and_true]

/-- Setting an address keeps the permissions of an entry. -/
theorem permission_setAddress
    (entry : PmlEntry) (value : Nat) {bit : Nat}
    (permission : PermissionBit bit) :
    (setAddress entry value).getLsbD bit = entry.getLsbD bit := by
  have inWord : bit < 64 := by
    unfold PermissionBit at permission
    omega
  have outside : ¬ (12 ≤ bit ∧ bit < 52) := by
    unfold PermissionBit at permission
    omega
  have shifted : ((BitVec.ofNat 40 value).setWidth 64 <<< 12).getLsbD bit =
      false := by
    rw [BitVec.getLsbD_shiftLeft, BitVec.getLsbD_setWidth]
    by_cases low : bit < 12
    · simp [low]
    · rw [BitVec.getLsbD_of_ge _ _ (show 40 ≤ bit - 12 by omega)]
      simp
  rw [setAddress, BitVec.getLsbD_or, BitVec.getLsbD_and, BitVec.getLsbD_not,
    addressField_getLsbD, shifted]
  simp only [inWord, decide_true, Bool.true_and, Bool.or_false]
  have notField : (decide (12 ≤ bit) && decide (bit < 52)) = false := by
    simpa using outside
  rw [notField, Bool.not_false, Bool.and_true]

/-- Marking an entry present keeps its permissions. -/
theorem permission_setPresent
    (entry : PmlEntry) {bit : Nat} (permission : PermissionBit bit) :
    (setPresent entry).getLsbD bit = entry.getLsbD bit := by
  have above : (1#64).getLsbD bit = false := by
    rw [BitVec.getLsbD_one]
    unfold PermissionBit at permission
    simp
    omega
  rw [setPresent, BitVec.getLsbD_or, above, Bool.or_false]

/-- Flags are added to the permissions that an entry has. -/
theorem permission_orFlags
    (entry : PmlEntry) (flags : BitVec 64) {bit : Nat}
    (permission : PermissionBit bit) :
    (orFlags entry flags).getLsbD bit =
      (entry.getLsbD bit || flags.getLsbD bit) := by
  rw [orFlags, BitVec.getLsbD_or, allowedFlags_permission flags permission]

end Kernull.Pml
