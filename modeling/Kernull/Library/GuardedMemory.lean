import Kernull.Library.ByteMemory

/-!
# Memory of which only some bytes may be read

A readable memory holds a byte at the addresses that may be read and nothing
at the others.  A program that reads through it and returns a value has read
no byte that it may not read, so what holds of every readable memory in which
a zero-terminated string stands holds without a byte behind its terminator.
-/

namespace Kernull.Library.GuardedMemory

open Kernull.Library.ByteMemory

/-- The byte at an address, if it may be read. -/
abbrev ReadableMemory := Nat → Option (BitVec 8)

/-- Of a readable memory, only the given addresses. -/
def only (memory : ReadableMemory) (allowed : Nat → Prop)
    [DecidablePred allowed] : ReadableMemory :=
  fun address => if allowed address then memory address else none

/--
A zero-terminated string may be read at an address, and ends before the end of
the 64-bit address space.
-/
structure ReadsString
    (memory : ReadableMemory) (address : Nat) (text : List (BitVec 8)) :
    Prop where
  bytes : ∀ i (bound : i < text.length),
    memory (address + i) = some text[i]
  nonzero : ∀ c ∈ text, c ≠ 0
  terminator : memory (address + text.length) = some 0
  fits : address + text.length < 2 ^ 64

/-- A string with its address. -/
structure StringIn (memory : ReadableMemory) where
  address : Nat
  text : List (BitVec 8)
  stands : ReadsString memory address text

/-- The addresses of the bytes of a string, its terminator among them. -/
def StringIn.Covers {memory : ReadableMemory} (string : StringIn memory)
    (address : Nat) : Prop :=
  string.address ≤ address ∧ address ≤ string.address + string.text.length

instance {memory : ReadableMemory} (string : StringIn memory) :
    DecidablePred string.Covers := fun address =>
  inferInstanceAs
    (Decidable
      (string.address ≤ address ∧
        address ≤ string.address + string.text.length))

namespace ReadsString

variable
  {memory other : ReadableMemory} {address : Nat} {first : BitVec 8}
  {text others : List (BitVec 8)}

theorem empty (reads : ReadsString memory address []) :
    memory address = some 0 :=
  reads.terminator

theorem head (reads : ReadsString memory address (first :: others)) :
    memory address = some first :=
  reads.bytes 0 (Nat.succ_pos _)

theorem head_ne_zero
    (reads : ReadsString memory address (first :: others)) : first ≠ 0 :=
  reads.nonzero first List.mem_cons_self

theorem succ_lt
    (reads : ReadsString memory address (first :: others)) :
    address + 1 < 2 ^ 64 := by
  have fits := reads.fits
  rw [List.length_cons] at fits
  omega

/-- Behind the first character stands the rest of the string. -/
theorem tail (reads : ReadsString memory address (first :: others)) :
    ReadsString memory (address + 1) others := by
  have length : address + (first :: others).length =
      address + 1 + others.length := by
    rw [List.length_cons]
    omega
  constructor
  · intro i bound
    have shifted := reads.bytes (i + 1) (Nat.succ_lt_succ bound)
    rwa [show address + (i + 1) = address + 1 + i by omega] at shifted
  · intro c member
    exact reads.nonzero c (List.mem_cons_of_mem first member)
  · rw [← length]
    exact reads.terminator
  · rw [← length]
    exact reads.fits

/-- Any end of a string is a string. -/
theorem drop (reads : ReadsString memory address text) {count : Nat}
    (bound : count ≤ text.length) :
    ReadsString memory (address + count) (text.drop count) := by
  induction count generalizing address text with
  | zero => exact reads
  | succ count inductionHypothesis =>
      cases text with
      | nil => exact absurd bound (Nat.not_succ_le_zero count)
      | cons first others =>
          have rest :=
            inductionHypothesis reads.tail (Nat.le_of_succ_le_succ bound)
          rwa [show address + 1 + count = address + (count + 1) by omega]
            at rest

/-- The same bytes in another memory are the same string. -/
theorem congr (reads : ReadsString memory address text)
    (agree : ∀ i, i ≤ text.length →
      other (address + i) = memory (address + i)) :
    ReadsString other address text where
  bytes i bound :=
    (agree i (Nat.le_of_lt bound)).trans (reads.bytes i bound)
  nonzero := reads.nonzero
  terminator := (agree text.length (Nat.le_refl _)).trans reads.terminator
  fits := reads.fits

end ReadsString

/-- A string is still there when all it covers may still be read. -/
theorem StringIn.stands_only
    {memory : ReadableMemory} (string : StringIn memory)
    {allowed : Nat → Prop} [DecidablePred allowed]
    (covered : ∀ address, string.Covers address → allowed address) :
    ReadsString (only memory allowed) string.address string.text := by
  apply string.stands.congr
  intro i bound
  apply if_pos
  apply covered
  constructor
  · exact Nat.le_add_right _ _
  · exact Nat.add_le_add_left bound _

end Kernull.Library.GuardedMemory
