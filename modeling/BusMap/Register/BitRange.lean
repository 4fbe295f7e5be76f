import BusMap.Machine

/-!
# Bit ranges

A field covers the bits from `lo` to `hi` of its register word. Its mask has exactly these bits
(`getLsbD_mask`), and its lanes are the bytes that it touches.
-/

set_option autoImplicit false

namespace BusMap

/-- The bits from `lo` to `hi`, both included. -/
structure BitRange where
  hi : Nat
  lo : Nat
deriving DecidableEq, Repr

namespace BitRange

/-- The range of one bit. -/
def bit (n : Nat) : BitRange := ⟨n, n⟩

/-- The range that a list of one or two positions denotes. -/
def ofList? : List Nat → Option BitRange
  | [n] => some (bit n)
  | [hi, lo] => some ⟨hi, lo⟩
  | _ => none

/-- Wording for a list of another length. -/
def countMessage (count : Nat) : String :=
  s!"bits must be [hi, lo] or [bit], got {count} entries"

/-- Number of bits. -/
def width (b : BitRange) : Nat := b.hi + 1 - b.lo

/-- Number of bits, from the distance of the two ends. -/
def checkedWidth (b : BitRange) : Except Fault Nat := do
  let distance ← Machine.sub b.hi b.lo
  Machine.addCount distance 1

/-- Mask of the low `width` bits. -/
def valueMask (b : BitRange) : Word := BitVec.allOnes 64 >>> (64 - b.width)

/-- Mask of the covered bits. -/
def mask (b : BitRange) : Word := b.valueMask <<< b.lo

/-- The byte lanes that the range touches, as a range of lanes. -/
def lanes (b : BitRange) : BitRange := ⟨b.hi / 8, b.lo / 8⟩

/-- One bit per byte lane that the range touches. -/
def laneMask (b : BitRange) : Word := b.lanes.mask

/-- The range has bits, is no wider than a word and starts inside one. -/
def HasMask (b : BitRange) : Prop := b.lo ≤ b.hi ∧ b.width ≤ wordBits ∧ b.lo < wordBits

instance (b : BitRange) : Decidable b.HasMask :=
  inferInstanceAs (Decidable (_ ∧ _ ∧ _))

/-- Mask of the covered bits, for a range that has one. -/
def checkedMask (b : BitRange) : Except Fault Word :=
  if b.HasMask then .ok b.mask else .error .shiftTooLarge

/-- Lanes that the range touches, if a word has a bit for each. -/
def checkedLaneMask (b : BitRange) : Except Fault Word :=
  if b.lanes.hi < wordBits then .ok b.laneMask else .error .shiftTooLarge

/-- Text such as `[9:0]`. -/
def text (b : BitRange) : String := s!"[{b.hi}:{b.lo}]"

/-- The bit at position `i` belongs to the range. -/
def Covers (b : BitRange) (i : Nat) : Prop := b.lo ≤ i ∧ i ≤ b.hi

instance (b : BitRange) (i : Nat) : Decidable (b.Covers i) :=
  inferInstanceAs (Decidable (_ ∧ _))

/-- The mask of a range inside the word has exactly the covered bits. -/
theorem getLsbD_mask {b : BitRange} (h : b.hi < 64) (i : Nat) :
    b.mask.getLsbD i = decide (b.Covers i) := by
  rw [Bool.eq_iff_iff, decide_eq_true_eq, Covers]
  simp only [mask, valueMask, width, BitVec.getLsbD_shiftLeft, BitVec.getLsbD_ushiftRight,
    BitVec.getLsbD_allOnes, Bool.and_eq_true, decide_eq_true_eq, Bool.not_eq_true',
    decide_eq_false_iff_not]
  omega

/-- Two ranges inside the word share no bit exactly when their masks share none. -/
theorem mask_and_mask_eq_zero_iff {b c : BitRange} (hb : b.hi < 64) (hc : c.hi < 64) :
    b.mask &&& c.mask = 0 ↔ ∀ i, b.Covers i → ¬ c.Covers i := by
  constructor
  · intro h i hbi hci
    have hbit : (b.mask &&& c.mask).getLsbD i = true := by
      rw [BitVec.getLsbD_and, getLsbD_mask hb, getLsbD_mask hc]
      simp [hbi, hci]
    rw [h] at hbit
    simp at hbit
  · intro h
    refine BitVec.eq_of_getLsbD_eq fun i _ => ?_
    rw [BitVec.getLsbD_and, getLsbD_mask hb, getLsbD_mask hc]
    by_cases hbi : b.Covers i
    · simp [hbi, h i hbi]
    · simp [hbi]

theorem width_pos {b : BitRange} (h : b.lo ≤ b.hi) : 1 ≤ b.width := by
  rw [width]
  omega

/-- The number of bits is a count for a range inside the word. -/
theorem checkedWidth_of_le {b : BitRange} (h : b.lo ≤ b.hi) (hhi : b.hi < 64) :
    b.checkedWidth = .ok b.width := by
  have hlimit : b.hi - b.lo + 1 < countLimit := by
    have hcount : countLimit = 4294967296 := rfl
    omega
  rw [checkedWidth, Machine.sub_of_le h]
  show Machine.addCount (b.hi - b.lo) 1 = .ok b.width
  rw [Machine.addCount_of_lt hlimit, width, ← Nat.sub_add_comm h]

/-- A range inside the word has a mask. -/
theorem checkedMask_of_le {b : BitRange} (h : b.lo ≤ b.hi) (hhi : b.hi < 64) :
    b.checkedMask = .ok b.mask := by
  refine if_pos ⟨h, ?_, ?_⟩
  · rw [width, wordBits]
    omega
  · rw [wordBits]
    omega

/-- A range inside the word has a mask of its lanes. -/
theorem checkedLaneMask_of_lt {b : BitRange} (h : b.hi < 64) :
    b.checkedLaneMask = .ok b.laneMask := by
  refine if_pos ?_
  show b.hi / 8 < 64
  omega

end BitRange

end BusMap
