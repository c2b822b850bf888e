import Mathlib.Algebra.Group.Nat.Defs
import Mathlib.Tactic.Common

/-!
# Constants of the memory manager

The address-space constants of `include/kernel/mm.h`.  Addresses and sizes
are natural numbers; arithmetic that the source performs in `u64` or `size_t`
is reduced modulo `2 ^ 64` where it is performed.
-/

namespace Kernull.Mm

/-- `NULL` as an address. -/
def null : Nat := 0

/-- `PAGE_SIZE`. -/
def pageSize : Nat := 0x1000

/-- `PAGE_LOW_MASK`. -/
def pageLowMask : Nat := 0xFFF

/-- `LARGE_PAGE_SIZE`. -/
def largePageSize : Nat := 0x200000

/-- `KERNEL_HEAP_START`. -/
def kernelHeapStart : Nat := 0xFFFFFF0000000000

/-- `HIGH_MAP_REGION`. -/
def highMapRegion : Nat := 0xFFFFFF8000000000

/-- `left - right` on `u64`. -/
def sub64 (left right : Nat) : Nat :=
  (2 ^ 64 + left - right) % 2 ^ 64

/-- A difference that does not wrap. -/
theorem sub64_of_le
    {left right : Nat} (ordered : right ≤ left) (small : left < 2 ^ 64) :
    sub64 left right = left - right := by
  rw [sub64]
  omega

/--
`(value + PAGE_LOW_MASK) & ~PAGE_LOW_MASK` on `u64`: round up to a page.  The
addition wraps, so values within a page of `2 ^ 64` are rounded to zero.
-/
def pageRound (value : Nat) : Nat :=
  (value + pageLowMask) % 2 ^ 64 / pageSize * pageSize

/-- Without wrapping, rounding reaches the next page boundary. -/
theorem pageRound_bounds {value : Nat}
    (small : value + 4095 < 2 ^ 64) :
    value ≤ pageRound value ∧ pageRound value < value + 4096 ∧
      pageRound value % 4096 = 0 := by
  simp only [pageRound, pageLowMask, pageSize]
  omega

theorem pageRound_of_aligned {value : Nat}
    (aligned : value % 4096 = 0) (small : value + 4095 < 2 ^ 64) :
    pageRound value = value := by
  simp only [pageRound, pageLowMask, pageSize]
  omega

theorem pageRound_lt (value : Nat) : pageRound value < 2 ^ 64 := by
  simp only [pageRound, pageLowMask, pageSize]
  omega

end Kernull.Mm
