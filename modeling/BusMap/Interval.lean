import BusMap.Machine
import BusMap.Text.Hex

/-!
# Address intervals

Byte addresses are natural numbers below `wordLimit`. An interval is closed, so that one may end
at the very last address. `ofSize?` builds only intervals that stay below the limit, and two
intervals overlap exactly when some address lies in both (`overlaps_iff`).
-/

set_option autoImplicit false

namespace BusMap

/-- The addresses from `first` to `last`, both included. -/
structure Interval where
  first : Nat
  last : Nat
deriving DecidableEq, Repr

namespace Interval

/-- The interval of `size` addresses at `start`, for a size that is not zero. -/
def ofSize (start size : Nat) : Interval :=
  ⟨start, start + (size - 1)⟩

/-- The interval of `size` addresses at `start`, if it is not empty and stays below the limit. -/
def ofSize? (start size : Nat) : Option Interval :=
  if size = 0 ∨ wordLimit < start + size then none else some (ofSize start size)

/-- The whole address space. -/
def full : Interval := ⟨0, wordLimit - 1⟩

/-- Number of addresses. -/
def size (r : Interval) : Nat := r.last - r.first + 1

instance : Membership Nat Interval where
  mem r a := r.first ≤ a ∧ a ≤ r.last

instance (r : Interval) (a : Nat) : Decidable (a ∈ r) :=
  inferInstanceAs (Decidable (r.first ≤ a ∧ a ≤ r.last))

/-- The two intervals reach into each other. -/
def Overlaps (r s : Interval) : Prop := r.first ≤ s.last ∧ s.first ≤ r.last

instance (r s : Interval) : Decidable (r.Overlaps s) :=
  inferInstanceAs (Decidable (_ ∧ _))

/-- Text such as `[0x00000100, 0x0000017F]`. -/
def text (r : Interval) : String :=
  "[" ++ Text.hex8 r.first ++ ", " ++ Text.hex8 r.last ++ "]"

theorem mem_def {r : Interval} {a : Nat} : a ∈ r ↔ r.first ≤ a ∧ a ≤ r.last := Iff.rfl

/-- Overlap does not depend on the order of the two intervals. -/
theorem overlaps_comm {r s : Interval} : r.Overlaps s ↔ s.Overlaps r := And.comm

/-- Two intervals that share an address overlap. -/
theorem overlaps_of_mem {r s : Interval} {a : Nat} (hr : a ∈ r) (hs : a ∈ s) : r.Overlaps s :=
  ⟨Nat.le_trans hr.1 hs.2, Nat.le_trans hs.1 hr.2⟩

/-- Two intervals that are not empty overlap exactly when they share an address. -/
theorem overlaps_iff {r s : Interval} (hr : r.first ≤ r.last) (hs : s.first ≤ s.last) :
    r.Overlaps s ↔ ∃ a, a ∈ r ∧ a ∈ s := by
  constructor
  · rintro ⟨h₁, h₂⟩
    refine ⟨max r.first s.first, ?_, ?_⟩ <;> rw [mem_def] <;> omega
  · rintro ⟨a, ha, hb⟩
    exact overlaps_of_mem ha hb

@[simp] theorem first_ofSize (start size : Nat) : (ofSize start size).first = start := rfl

@[simp] theorem last_ofSize (start size : Nat) : (ofSize start size).last = start + (size - 1) := rfl

theorem size_ofSize {size : Nat} (h : 1 ≤ size) (start : Nat) : (ofSize start size).size = size := by
  show start + (size - 1) - start + 1 = size
  omega

/-- An interval is built exactly when it is not empty and ends below the limit. -/
theorem ofSize?_eq_some_iff {start size : Nat} {r : Interval} :
    ofSize? start size = some r ↔
      1 ≤ size ∧ start + size ≤ wordLimit ∧ r = ofSize start size := by
  unfold ofSize?
  split
  · rename_i h
    constructor
    · intro hr
      exact absurd hr (by simp)
    · rintro ⟨h₁, h₂, -⟩
      omega
  · rename_i h
    rw [Option.some.injEq]
    constructor
    · rintro rfl
      exact ⟨by omega, by omega, rfl⟩
    · rintro ⟨-, -, rfl⟩
      rfl

theorem ofSize?_eq_none_iff {start size : Nat} :
    ofSize? start size = none ↔ size = 0 ∨ wordLimit < start + size :=
  ite_eq_left_iff.trans (by simp only [reduceCtorEq, imp_false, Decidable.not_not])

end Interval

end BusMap
