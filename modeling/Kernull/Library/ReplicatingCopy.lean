import Kernull.Library.ByteMemory

/-!
# Copying upwards over the source

A byte-by-byte copy upwards whose destination starts above its source runs into
what it has written itself once it reaches the destination.  From there on it
repeats the bytes between the two starts, round the whole address space if it
goes on for so long.
-/

namespace Kernull.Library.ReplicatingCopy

open Kernull.Library.ByteMemory

/--
So many bytes have been copied upwards from `src` to `dest` in an address space
of a given size: they repeat the bytes between the two, and all others are
untouched.
-/
structure Replicated (size : Nat) (memory result : Memory)
    (dest src done : Nat) : Prop where
  inside : ∀ i, i < done →
    result ((dest + i) % size) = memory (src + i % (dest - src))
  outside : ∀ a, (∀ i, i < done → a ≠ (dest + i) % size) →
    result a = memory a

namespace Replicated

variable {size : Nat} {memory result : Memory} {dest src done : Nat}

/-- Before the copy nothing is done. -/
theorem nothing (size : Nat) (memory : Memory) (dest src : Nat) :
    Replicated size memory memory dest src 0 where
  inside i below := absurd below (Nat.not_lt_zero i)
  outside _ _ := rfl

/-- In the first period the source has not been reached. -/
theorem source_unreached
    (above : src < dest) (destInside : dest < size) (within : done < size)
    (early : done < dest - src) {i : Nat} (earlier : i < done) :
    src + done ≠ (dest + i) % size := by
  by_cases wraps : dest + i < size
  · rw [Nat.mod_eq_of_lt wraps]
    omega
  · rw [Nat.mod_eq_sub_mod (Nat.not_lt.mp wraps),
      Nat.mod_eq_of_lt (by omega)]
    omega

/-- The byte that is read next. -/
theorem source
    (replicated : Replicated size memory result dest src done)
    (above : src < dest) (destInside : dest < size) (within : done < size) :
    result ((src + done) % size) = memory (src + done % (dest - src)) := by
  by_cases early : done < dest - src
  · have low : src + done < size := by omega
    rw [Nat.mod_eq_of_lt low, Nat.mod_eq_of_lt early]
    apply replicated.outside
    intro i earlier
    exact source_unreached above destInside within early earlier
  · have written := replicated.inside (done - (dest - src)) (by omega)
    have same : dest + (done - (dest - src)) = src + done := by omega
    rw [same] at written
    rw [written, ← Nat.mod_eq_sub_mod (Nat.not_lt.mp early)]

/-- The places that are written are different ones. -/
theorem place_ne
    (within : done < size) {i : Nat} (earlier : i < done) :
    (dest + i) % size ≠ (dest + done) % size := by
  intro same
  have multiple := Nat.sub_mod_eq_zero_of_mod_eq same.symm
  have difference : dest + done - (dest + i) = done - i := by omega
  rw [difference, Nat.mod_eq_of_lt (by omega)] at multiple
  omega

/-- One byte more. -/
theorem forward
    (replicated : Replicated size memory result dest src done)
    (above : src < dest) (destInside : dest < size) (within : done < size) :
    Replicated size memory
      (Function.update result ((dest + done) % size)
        (result ((src + done) % size)))
      dest src (done + 1) where
  inside i below := by
    cases Nat.lt_succ_iff_lt_or_eq.mp below with
    | inl earlier =>
        rw [Function.update_of_ne (place_ne within earlier)]
        exact replicated.inside i earlier
    | inr last =>
        subst last
        rw [Function.update_self]
        exact replicated.source above destInside within
  outside a apart := by
    rw [Function.update_of_ne (apart done (Nat.lt_succ_self done))]
    exact replicated.outside a fun i earlier =>
      apart i (Nat.lt_succ_of_lt earlier)

end Replicated

end Kernull.Library.ReplicatingCopy
