import Kernull.Library.ByteMemory
import Kernull.MmConstants

/-!
# Memory and string functions

`kernel/string.c` over byte-addressed memory.  Pointers are `u64` addresses:
stepping a pointer wraps at `2 ^ 64`, and the two directions of `memmove` are
separate loops, as in the source.
-/

namespace Kernull.KernelString

open Kernull.Library.ByteMemory
open Kernull.Mm

/-- `p + n` on a pointer to bytes. -/
def pointerAdd (p n : Nat) : Nat :=
  (p + n) % 2 ^ 64

theorem pointerAdd_of_lt {p n : Nat} (small : p + n < 2 ^ 64) :
    pointerAdd p n = p + n :=
  Nat.mod_eq_of_lt small

/-- `while (n--) *pd++ = *ps++;` -/
def copyUp : Nat → Nat → Nat → Memory → Memory
  | 0, _, _, memory => memory
  | n + 1, pd, ps, memory =>
      copyUp n (pointerAdd pd 1) (pointerAdd ps 1)
        (Function.update memory pd (memory ps))

/-- `while (n--) *--pd = *--ps;` -/
def copyDown : Nat → Nat → Nat → Memory → Memory
  | 0, _, _, memory => memory
  | n + 1, pd, ps, memory =>
      let pd := sub64 pd 1
      let ps := sub64 ps 1
      copyDown n pd ps (Function.update memory pd (memory ps))

/-- `memmove`: the pointer it returns and the memory after it. -/
def memmove (dest src n : Nat) (memory : Memory) : Nat × Memory :=
  if dest ≤ src then
    (dest, copyUp n dest src memory)
  else
    (dest, copyDown n (pointerAdd dest n) (pointerAdd src n) memory)

/-! ## The two loops -/

/-- The upward loop copies what is left, given that the bytes before it are. -/
theorem copyUp_copied
    {memory result : Memory} {dest src done n : Nat}
    (below : dest ≤ src) (srcFits : src + (done + n) ≤ 2 ^ 64)
    (copied : Copied memory result dest src 0 done) :
    Copied memory
      (copyUp n (pointerAdd dest done) (pointerAdd src done) result)
      dest src 0 (done + n) := by
  induction n generalizing done result with
  | zero => exact copied
  | succ n inductionHypothesis =>
      have next := copied.forward below
      have rest :=
        inductionHypothesis (by omega) next
      have destHere : pointerAdd dest done = dest + done :=
        pointerAdd_of_lt (by omega)
      have srcHere : pointerAdd src done = src + done :=
        pointerAdd_of_lt (by omega)
      have destNext : pointerAdd (dest + done) 1 =
          pointerAdd dest (done + 1) := rfl
      have srcNext : pointerAdd (src + done) 1 =
          pointerAdd src (done + 1) := rfl
      rw [copyUp, destHere, srcHere, destNext, srcNext,
        show done + (n + 1) = done + 1 + n by omega]
      exact rest

/-- Stepping back undoes a step forward, also across the wrap. -/
theorem sub64_pointerAdd_succ (p n : Nat) :
    sub64 (pointerAdd p (n + 1)) 1 = pointerAdd p n := by
  rw [sub64, pointerAdd, pointerAdd]
  omega

/-- The downward loop copies what is left, given that the bytes after it are. -/
theorem copyDown_copied
    {memory result : Memory} {dest src n size : Nat}
    (above : src ≤ dest) (bound : n ≤ size)
    (destFits : dest + size ≤ 2 ^ 64)
    (copied : Copied memory result dest src n size) :
    Copied memory
      (copyDown n (pointerAdd dest n) (pointerAdd src n) result)
      dest src 0 size := by
  induction n generalizing result with
  | zero => exact copied
  | succ n inductionHypothesis =>
      have next := copied.backward above bound
      have rest := inductionHypothesis (by omega) next
      have destHere : pointerAdd dest n = dest + n :=
        pointerAdd_of_lt (by omega)
      have srcHere : pointerAdd src n = src + n :=
        pointerAdd_of_lt (by omega)
      rw [copyDown, sub64_pointerAdd_succ, sub64_pointerAdd_succ]
      rw [destHere, srcHere] at rest ⊢
      exact rest

/-! ## The whole function -/

/-- Whatever the overlap, the whole region is copied and nothing else. -/
theorem memmove_copied
    (memory : Memory) {dest src n : Nat}
    (destFits : dest + n ≤ 2 ^ 64) (srcFits : src + n ≤ 2 ^ 64) :
    Copied memory (memmove dest src n memory).2 dest src 0 n := by
  have nothing := Copied.nothing memory dest src
  by_cases below : dest ≤ src
  · rw [memmove, if_pos below]
    cases n with
    | zero => exact nothing 0
    | succ n =>
        have upward :
            Copied memory
              (copyUp (n + 1) (pointerAdd dest 0) (pointerAdd src 0) memory)
              dest src 0 (0 + (n + 1)) :=
          copyUp_copied below (by omega) (nothing 0)
        have destStart : pointerAdd dest 0 = dest :=
          pointerAdd_of_lt (by omega)
        have srcStart : pointerAdd src 0 = src :=
          pointerAdd_of_lt (by omega)
        rwa [destStart, srcStart, Nat.zero_add] at upward
  · have above : src ≤ dest := Nat.le_of_not_le below
    rw [memmove, if_neg below]
    exact
      copyDown_copied above (Nat.le_refl n) destFits (nothing n)

/--
`memmove` on regions that overlap in any way: the destination holds the
original bytes of the source and no other byte changes.
-/
theorem memmove_moves
    (memory : Memory) (dest src n : Nat)
    (destFits : dest + n ≤ 2 ^ 64) (srcFits : src + n ≤ 2 ^ 64) :
    (∀ i, i < n →
        (memmove dest src n memory).2 (dest + i) = memory (src + i)) ∧
      (∀ a, a < dest ∨ dest + n ≤ a →
        (memmove dest src n memory).2 a = memory a) := by
  have copied := memmove_copied memory destFits srcFits
  constructor
  · intro i bound
    exact copied.inside i (Nat.zero_le i) bound
  · exact copied.outside

/-- The destination starts inside the source and ends at the top of memory. -/
theorem memmove_moves_overlapping :
    2 ^ 64 - 6 + 6 ≤ 2 ^ 64 ∧ 2 ^ 64 - 9 + 6 ≤ 2 ^ 64 ∧
      (∀ i, i < 6 →
        (memmove (2 ^ 64 - 6) (2 ^ 64 - 9) 6
            (fun a => BitVec.ofNat 8 a)).2 (2 ^ 64 - 6 + i) =
          BitVec.ofNat 8 (2 ^ 64 - 9 + i)) ∧
      (∀ a, a < 2 ^ 64 - 6 ∨ 2 ^ 64 - 6 + 6 ≤ a →
        (memmove (2 ^ 64 - 6) (2 ^ 64 - 9) 6
            (fun a => BitVec.ofNat 8 a)).2 a = BitVec.ofNat 8 a) :=
  ⟨by decide, by decide,
    memmove_moves (fun a => BitVec.ofNat 8 a) (2 ^ 64 - 6) (2 ^ 64 - 9) 6
      (by decide) (by decide)⟩

end Kernull.KernelString
