import BusMap.CeilLog
import BusMap.Machine
import Mathlib.Algebra.Group.Nat.Defs
import Mathlib.Order.GaloisConnection.Basic

/-!
# Ceiling logarithm of a machine word

The exponents whose powers of two reach a number are those from its ceiling logarithm on, so that the
logarithm is adjoint to the powers of two (`gc_ceilLog2`). On the machine it is counted from the other
end of the word, by the leading zeros of the predecessor (`checkedCeilLog2`). The highest bit of a
word lies between two powers of two, and so does the logarithm of its successor
(`ceilLog2_toNat_succ`). The count is therefore right at each power of two, and for the upper half of
the words as well, where the power that reaches them is no word (`ceilLog2_isLeast`).
-/

set_option autoImplicit false

namespace BusMap

variable {x n : Nat}

/-! ## Exponents -/

/-- The ceiling logarithm is adjoint to the powers of two. -/
theorem gc_ceilLog2 : GaloisConnection ceilLog2 (2 ^ ·) := by
  intro x n
  rw [ceilLog2_le_iff, Nat.one_shiftLeft]

theorem ceilLog2_eq_zero_iff : ceilLog2 x = 0 ↔ x ≤ 1 := by
  rw [← Nat.le_zero, gc_ceilLog2.le_iff_le, Nat.pow_zero]

/-- The numbers of one logarithm are those between two powers of two in a row. -/
theorem ceilLog2_eq_succ_iff : ceilLog2 x = n + 1 ↔ 2 ^ n < x ∧ x ≤ 2 ^ (n + 1) := by
  rw [← gc_ceilLog2.lt_iff_lt, ← gc_ceilLog2.le_iff_le]
  omega

/-! ## Words -/

/-- Ceiling logarithm of a word, from the leading zeros of its predecessor. -/
def checkedCeilLog2 (w : Word) : Except Fault Nat :=
  if w ≤ 1 then .ok 0 else Machine.sub wordBits (w - 1).clz.toNat

theorem clz_lt_wordBits {v : Word} (h : v ≠ 0) : v.clz.toNat < wordBits :=
  BitVec.lt_def.1 (BitVec.clz_lt_iff_ne_zero.2 h)

/-- The bits below the leading zeros of a word are the logarithm of its successor. -/
theorem ceilLog2_toNat_succ {v : Word} (h : v ≠ 0) :
    ceilLog2 (v.toNat + 1) = wordBits - v.clz.toNat := by
  have hzeros := clz_lt_wordBits h
  have hlow : 2 ^ (wordBits - 1 - v.clz.toNat) ≤ v.toNat :=
    BitVec.two_pow_sub_clz_le_toNat_of_ne_zero (by decide) h
  have hhigh : v.toNat < 2 ^ (wordBits - v.clz.toNat) := BitVec.toNat_lt_two_pow_sub_clz
  -- The highest bit that is set stands one place below the leading zeros.
  have hbits : wordBits - v.clz.toNat = wordBits - 1 - v.clz.toNat + 1 := by omega
  rw [hbits] at hhigh ⊢
  exact ceilLog2_eq_succ_iff.2 ⟨Nat.lt_succ_of_le hlow, hhigh⟩

/-- The count of the machine is the logarithm, and it never faults. -/
theorem checkedCeilLog2_eq (w : Word) : checkedCeilLog2 w = .ok (ceilLog2 w.toNat) := by
  rw [checkedCeilLog2]
  split
  · rename_i hsmall
    rw [ceilLog2_eq_zero_iff.2 (BitVec.le_def.1 hsmall)]
  · rename_i hlarge
    have hone : 1 < w.toNat := Nat.not_le.1 fun hle => hlarge (BitVec.le_def.2 hle)
    -- The predecessor of a word beyond one does not wrap around, and it is not zero.
    have hpred : (w - 1).toNat = w.toNat - 1 :=
      BitVec.toNat_sub_of_le (BitVec.le_def.2 (Nat.le_of_lt hone))
    have hne : w - 1 ≠ 0 := by
      intro hzero
      rw [hzero] at hpred
      have hnone : (0 : Word).toNat = 0 := rfl
      omega
    have hsucc : (w - 1).toNat + 1 = w.toNat := by omega
    rw [Machine.sub_of_le (Nat.le_of_lt (clz_lt_wordBits hne)), ← ceilLog2_toNat_succ hne, hsucc]

/-- **The ceiling logarithm of every word.** It is the least exponent whose power of two reaches the
word, and it is monotone. It is zero for the first two words only, and it is the number of bits
exactly above the highest power of two that is a word. The machine finds it without a fault. -/
theorem ceilLog2_isLeast :
    Monotone ceilLog2 ∧
      ∀ w : Word,
        IsLeast {n | w.toNat ≤ 2 ^ n} (ceilLog2 w.toNat) ∧
        (ceilLog2 w.toNat = 0 ↔ w.toNat = 0 ∨ w.toNat = 1) ∧
        (ceilLog2 w.toNat = 64 ↔ 2 ^ 63 < w.toNat) ∧
        checkedCeilLog2 w = .ok (ceilLog2 w.toNat) := by
  refine ⟨gc_ceilLog2.monotone_l, fun w => ⟨gc_ceilLog2.isLeast_l, ?_, ?_, checkedCeilLog2_eq w⟩⟩
  · rw [ceilLog2_eq_zero_iff]
    omega
  · have hlimit : w.toNat ≤ 2 ^ (63 + 1) := Nat.le_of_lt w.isLt
    exact ceilLog2_eq_succ_iff.trans (and_iff_left hlimit)

end BusMap
