import BusMap.CeilLog

/-!
# Port sizes

A port moves 8, 16, 32 or 64 bits at a time, and its smallest addressable unit has one of the same
sizes. A word then has a power of two of these granules, and their number tells their size.
-/

set_option autoImplicit false

namespace BusMap

/-- Sizes in bits that a port or a granule may have. -/
def portSizes : List Nat := [8, 16, 32, 64]

/-- The number of bits is one of `portSizes`. -/
def IsPortSize (bits : Nat) : Prop := bits ∈ portSizes

instance (bits : Nat) : Decidable (IsPortSize bits) :=
  inferInstanceAs (Decidable (bits ∈ portSizes))

theorem isPortSize_iff {bits : Nat} :
    IsPortSize bits ↔ bits = 8 ∨ bits = 16 ∨ bits = 32 ∨ bits = 64 := by
  simp [IsPortSize, portSizes]

namespace IsPortSize

variable {bits g g' : Nat}

theorem pos (h : IsPortSize bits) : 0 < bits := by
  rw [isPortSize_iff] at h
  omega

theorem byte_le (h : IsPortSize bits) : 8 ≤ bits := by
  rw [isPortSize_iff] at h
  omega

/-- A register has at most as many bits as a word. -/
theorem le_word (h : IsPortSize bits) : bits ≤ 64 := by
  rw [isPortSize_iff] at h
  omega

/-- A port size divides every longer one. -/
theorem dvd_of_le (hg : IsPortSize g) (hbits : IsPortSize bits) (hle : g ≤ bits) : g ∣ bits := by
  rcases isPortSize_iff.1 hbits with rfl | rfl | rfl | rfl <;>
    rcases isPortSize_iff.1 hg with rfl | rfl | rfl | rfl <;>
    first | decide | omega

theorem shiftLeft_granules (hbits : IsPortSize bits) (hg : IsPortSize g) (hle : g ≤ bits) :
    1 <<< ceilLog2 (bits / g) = bits / g := by
  rcases isPortSize_iff.1 hbits with rfl | rfl | rfl | rfl <;>
    rcases isPortSize_iff.1 hg with rfl | rfl | rfl | rfl <;>
    first | decide | omega

theorem granules_inj (hbits : IsPortSize bits) (hg : IsPortSize g) (hg' : IsPortSize g')
    (hle : g ≤ bits) (hle' : g' ≤ bits) : bits / g = bits / g' ↔ g = g' := by
  constructor
  · intro h
    have hword : bits / g' * g = bits / g' * g' := by
      rw [Nat.div_mul_cancel (hg'.dvd_of_le hbits hle'), ← h,
        Nat.div_mul_cancel (hg.dvd_of_le hbits hle)]
    exact Nat.eq_of_mul_eq_mul_left (Nat.div_pos hle' hg'.pos) hword
  · rintro rfl
    rfl

end IsPortSize

end BusMap
