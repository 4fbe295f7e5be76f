/-!
# Ceiling logarithm

Strides, alignments and address widths are powers of two. `ceilLog2 x` is the least exponent whose
power of two reaches `x` (`ceilLog2_le_iff`); it counts the address bits that tell `x` items apart.
-/

set_option autoImplicit false

namespace BusMap

/-- Least `n` with `x ≤ 1 <<< n`. -/
def ceilLog2 (x : Nat) : Nat :=
  if x ≤ 1 then 0 else (x - 1).log2 + 1

/-- An exponent is large enough exactly when its power of two reaches the argument. -/
theorem ceilLog2_le_iff (x n : Nat) : ceilLog2 x ≤ n ↔ x ≤ 1 <<< n := by
  rw [Nat.one_shiftLeft]
  unfold ceilLog2
  have hpos := Nat.two_pow_pos n
  by_cases hx : x ≤ 1
  · rw [if_pos hx]
    omega
  · rw [if_neg hx]
    have hne : x - 1 ≠ 0 := by omega
    have hlog := Nat.log2_lt (k := n) hne
    omega

end BusMap
