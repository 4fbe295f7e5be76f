import BusMap.Interval
import BusMap.Proofs.Outcome
import Mathlib.Algebra.Group.Nat.Defs

/-!
# Intervals as sets of addresses

An interval keeps its last address and not the one after it, so that one may end where the address
space ends. The machine goes from a size to the last address and back by a difference and a sum each
(`checkedOfSize`, `checkedSize`). The sum that gives the last address stays in the address space
exactly when the interval does (`checkedOfSize_eq_ok_iff`). An interval that is built has as many
addresses as its size says, from the start on, and no others (`mem_ofSize_iff`). Two of them overlap
exactly when they share an address of the machine (`overlaps_iff_of_ofSize?`), so that ranges which do
not overlap have no address in common. All of this is put together in `ofSize_isAddressSet`.
-/

set_option autoImplicit false

namespace BusMap

namespace Interval

variable {start size start' size' a : Nat} {r s : Interval}

/-! ## Sizes and ends -/

/-- The interval of `size` addresses at `start`, with an end that the machine finds. -/
def checkedOfSize (start size : Nat) : Except Fault Interval := do
  let distance ← Machine.sub size 1
  let last ← Machine.add start distance
  return ⟨start, last⟩

/-- Number of addresses, from the distance of the two ends. -/
def checkedSize (r : Interval) : Except Fault Nat := do
  let distance ← Machine.sub r.last r.first
  Machine.add distance 1

/-- The machine finds the end of an interval that is not empty and stays below the limit, and of no
other. -/
theorem checkedOfSize_eq_ok_iff :
    checkedOfSize start size = .ok r ↔
      1 ≤ size ∧ start + size ≤ wordLimit ∧ r = ofSize start size := by
  constructor
  · intro h
    obtain ⟨distance, hdistance, h⟩ := bind_eq_ok_iff.1 h
    obtain ⟨last, hlast, h⟩ := bind_eq_ok_iff.1 h
    obtain ⟨hpos, rfl⟩ := Machine.sub_eq_ok_iff.1 hdistance
    obtain ⟨hlt, rfl⟩ := Machine.add_eq_ok_iff.1 hlast
    cases h
    exact ⟨hpos, by omega, rfl⟩
  -- The last address is below the limit, also where the one after it is the limit.
  · rintro ⟨hpos, hend, rfl⟩
    have hlast : start + (size - 1) < wordLimit := by omega
    rw [checkedOfSize, Machine.sub_of_le hpos, ok_bind, Machine.add_of_lt hlast, ok_bind]
    rfl

/-- An interval is built exactly when the machine finds its end. -/
theorem ofSize?_eq_some_iff_checkedOfSize :
    ofSize? start size = some r ↔ checkedOfSize start size = .ok r :=
  ofSize?_eq_some_iff.trans checkedOfSize_eq_ok_iff.symm

theorem isSome_ofSize?_iff :
    (ofSize? start size).isSome ↔ 1 ≤ size ∧ start + size ≤ wordLimit := by
  simp only [Option.isSome_iff_exists, ofSize?_eq_some_iff, exists_and_left, exists_eq, and_true]

/-- The machine finds the size of an interval that is not empty, if the size is a word. -/
theorem checkedSize_of_lt (h : r.first ≤ r.last) (hlt : r.size < wordLimit) :
    r.checkedSize = .ok r.size := by
  rw [checkedSize, Machine.sub_of_le h, ok_bind]
  exact Machine.add_of_lt hlt

/-- The whole address space has one address more than the greatest word. -/
example : full.checkedSize = .error .sumTooLarge := by decide

/-! ## Addresses -/

theorem mem_ofSize_iff (h : 1 ≤ size) : a ∈ ofSize start size ↔ start ≤ a ∧ a < start + size := by
  rw [mem_def, first_ofSize, last_ofSize]
  omega

/-- The addresses of an interval that is built are addresses of the machine. -/
theorem lt_of_mem_of_ofSize? (h : ofSize? start size = some r) (ha : a ∈ r) : a < wordLimit := by
  obtain ⟨hpos, hend, rfl⟩ := ofSize?_eq_some_iff.1 h
  exact Nat.lt_of_lt_of_le ((mem_ofSize_iff hpos).1 ha).2 hend

theorem first_le_last_of_ofSize? (h : ofSize? start size = some r) : r.first ≤ r.last := by
  obtain ⟨-, -, rfl⟩ := ofSize?_eq_some_iff.1 h
  exact Nat.le_add_right start _

/-- Two intervals that are built overlap exactly when they share an address of the machine. -/
theorem overlaps_iff_of_ofSize? (hr : ofSize? start size = some r)
    (hs : ofSize? start' size' = some s) : r.Overlaps s ↔ ∃ a < wordLimit, a ∈ r ∧ a ∈ s := by
  rw [overlaps_iff (first_le_last_of_ofSize? hr) (first_le_last_of_ofSize? hs)]
  refine exists_congr fun a => (and_iff_right_of_imp ?_).symm
  rintro ⟨ha, -⟩
  exact lt_of_mem_of_ofSize? hr ha

/-- **An interval is the set of its addresses.** The interval of some addresses is built exactly when
there is one at least and none lies beyond the address space, which is when the machine finds its
end. It has the size that was asked for, which the machine finds as well, and exactly the addresses
from the start on that make up the size. It overlaps another one, in either direction, exactly when
some address of the machine lies in both. -/
theorem ofSize_isAddressSet (start size : Nat) (hsize : size < 2 ^ 64) :
    ((ofSize? start size).isSome ↔ 1 ≤ size ∧ start + size ≤ 2 ^ 64) ∧
      (∀ r, ofSize? start size = some r ↔ checkedOfSize start size = .ok r) ∧
      ∀ r, ofSize? start size = some r →
        r = ofSize start size ∧
        (r.size = size ∧ r.checkedSize = .ok size) ∧
        (∀ a, a ∈ r ↔ start ≤ a ∧ a < start + size) ∧
        ∀ start' size' s, ofSize? start' size' = some s →
          (r.Overlaps s ↔ ∃ a < 2 ^ 64, a ∈ r ∧ a ∈ s) ∧
          (s.Overlaps r ↔ ∃ a < 2 ^ 64, a ∈ r ∧ a ∈ s) := by
  refine ⟨isSome_ofSize?_iff, fun r => ofSize?_eq_some_iff_checkedOfSize, fun r hr => ?_⟩
  have hnonempty := first_le_last_of_ofSize? hr
  obtain ⟨hpos, -, heq⟩ := ofSize?_eq_some_iff.1 hr
  -- That the size is a word is needed for the last sum of the machine only.
  have hcount : r.size = size := by
    rw [heq]
    exact size_ofSize hpos start
  refine ⟨heq, ⟨hcount, ?_⟩, ?_, ?_⟩
  · have hchecked := checkedSize_of_lt hnonempty (hcount.symm ▸ hsize)
    rwa [hcount] at hchecked
  · intro a
    rw [heq]
    exact mem_ofSize_iff hpos
  · intro start' size' s hs
    have hmeet := overlaps_iff_of_ofSize? hr hs
    exact ⟨hmeet, overlaps_comm.trans hmeet⟩

/-- The last four addresses, and six that reach into them from below. -/
theorem ofSize_isAddressSet_atTop :
    ∃ r s, 4 < 2 ^ 64 ∧ ofSize? (2 ^ 64 - 4) 4 = some r ∧ ofSize? (2 ^ 64 - 8) 6 = some s ∧
      r.checkedSize = .ok 4 ∧ 2 ^ 64 - 1 ∈ r ∧ s.Overlaps r := by
  obtain ⟨-, -, htop⟩ := ofSize_isAddressSet (2 ^ 64 - 4) 4 (by decide)
  obtain ⟨-, ⟨-, hsize⟩, hmem, hoverlaps⟩ := htop _ rfl
  refine ⟨_, _, by decide, rfl, rfl, hsize, (hmem _).2 (by decide), ?_⟩
  exact (hoverlaps (2 ^ 64 - 8) 6 _ rfl).2.2 ⟨2 ^ 64 - 4, by decide, by decide, by decide⟩

end Interval

end BusMap
