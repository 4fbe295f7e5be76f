import Mathlib.Data.Int.ModEq
import BusMap.Proofs.Register.Legality
import BusMap.Register.Model

/-!
# Encoding and decoding fields

A field lies in its word when its range is ordered and ends inside it. Encoding then puts the low
bits of the two's complement of a value at the positions of the field and zeros elsewhere
(`Field.getLsbD_encode`), and decoding reads these positions only (`Field.decode_congr`) and all of
them (`Field.decode_eq_iff`).

The value that is read is one of the values of the field, and it agrees with the bits modulo a power
of two (`Field.holds_decode`, `Field.decode_emod`). No two values of a field agree modulo that power
(`Field.Holds.eq_of_emod_eq`), so a value that the field holds is read back as it was written
(`Field.decode_encode`), whatever its sign.
-/

set_option autoImplicit false

namespace BusMap

/-- A word is put together from masks by collecting their bits. -/
theorem getLsbD_foldl_or {α : Type} (mask : α → Word) (xs : List α) (word : Word) (i : Nat) :
    (xs.foldl (fun word x => word ||| mask x) word).getLsbD i =
      (word.getLsbD i || xs.any fun x => (mask x).getLsbD i) := by
  induction xs generalizing word with
  | nil => simp
  | cons x xs ih =>
    rw [List.foldl_cons, ih, BitVec.getLsbD_or, List.any_cons, Bool.or_assoc]

namespace Field

variable {f : Field} {value : Int} {word : Word}

/-- The bits of the field are ordered and lie inside the word. -/
def InWord (f : Field) : Prop := f.decl.bits.lo ≤ f.decl.bits.hi ∧ f.decl.bits.hi < 64

/-- The value is one of those of the datatype at the width of the field. -/
def Holds (f : Field) (value : Int) : Prop :=
  (f.decl.datatype.valueRange f.width).1 ≤ value ∧ value ≤ (f.decl.datatype.valueRange f.width).2

instance (f : Field) (value : Int) : Decidable (f.Holds value) :=
  inferInstanceAs (Decidable (_ ∧ _))

theorem InWord.width_pos (h : f.InWord) : 1 ≤ f.width := BitRange.width_pos h.1

theorem InWord.offset_add_width (h : f.InWord) : f.offset + f.width = f.decl.bits.hi + 1 := by
  have hlo := h.1
  rw [offset, width, BitRange.width]
  omega

theorem InWord.width_le (h : f.InWord) : f.width ≤ 64 := by
  have hend := h.offset_add_width
  have hhi := h.2
  omega

/-- The positions of the field count up from its offset. -/
theorem InWord.covers_iff (h : f.InWord) {i : Nat} :
    f.decl.bits.Covers i ↔ f.offset ≤ i ∧ i - f.offset < f.width := by
  have hend := h.offset_add_width
  have hlo := h.1
  rw [offset] at hend
  rw [BitRange.Covers, offset]
  omega

/-! ## Bits -/

theorem getLsbD_valueMask (h : f.InWord) (i : Nat) :
    f.valueMask.getLsbD i = decide (i < f.width) := by
  have hwidth := h.width_le
  rw [width] at hwidth ⊢
  rw [Bool.eq_iff_iff, decide_eq_true_eq]
  simp only [valueMask, BitRange.valueMask, BitVec.getLsbD_ushiftRight, BitVec.getLsbD_allOnes,
    decide_eq_true_eq]
  omega

theorem getLsbD_bitmask (h : f.InWord) (i : Nat) :
    f.bitmask.getLsbD i = decide (f.decl.bits.Covers i) :=
  BitRange.getLsbD_mask h.2 i

/-- The word of a value has the low bits of the value at the positions of the field. -/
theorem getLsbD_encode (h : f.InWord) (value : Int) (i : Nat) :
    (f.encode value).getLsbD i =
      (decide (f.decl.bits.Covers i) && (BitVec.ofInt 64 value).getLsbD (i - f.offset)) := by
  have hend := h.offset_add_width
  have hhi := h.2
  rw [encode, pattern, BitVec.getLsbD_shiftLeft, BitVec.getLsbD_and, getLsbD_valueMask h,
    Bool.eq_iff_iff]
  simp only [Bool.and_eq_true, decide_eq_true_eq, Bool.not_eq_true', decide_eq_false_iff_not,
    h.covers_iff]
  constructor
  · rintro ⟨⟨-, hoffset⟩, hbit, hwidth⟩
    exact ⟨⟨by omega, hwidth⟩, hbit⟩
  · rintro ⟨⟨hoffset, hwidth⟩, hbit⟩
    exact ⟨⟨by omega, by omega⟩, hbit, hwidth⟩

theorem getLsbD_extract (h : f.InWord) (word : Word) (i : Nat) :
    (f.extract word).getLsbD i = (decide (i < f.width) && word.getLsbD (f.offset + i)) := by
  rw [extract, BitVec.getLsbD_and, BitVec.getLsbD_ushiftRight, getLsbD_valueMask h, Bool.and_comm]

/-- Extraction reads the positions of the field only. -/
theorem extract_congr (h : f.InWord) {word word' : Word}
    (hbits : ∀ i, f.decl.bits.Covers i → word.getLsbD i = word'.getLsbD i) :
    f.extract word = f.extract word' := by
  apply BitVec.eq_of_getLsbD_eq
  intro i _
  rw [getLsbD_extract h, getLsbD_extract h]
  by_cases hi : i < f.width
  · have hcovers : f.decl.bits.Covers (f.offset + i) := h.covers_iff.2 ⟨by omega, by omega⟩
    rw [hbits _ hcovers]
  · simp only [hi, decide_false, Bool.false_and]

/-- Words that agree at the positions of the field have the same value in it. -/
theorem decode_congr (h : f.InWord) {word word' : Word}
    (hbits : ∀ i, f.decl.bits.Covers i → word.getLsbD i = word'.getLsbD i) :
    f.decode word = f.decode word' := by
  rw [decode, decode, extract_congr h hbits]

/-- What is put at the positions of the field is found there. -/
theorem extract_encode (h : f.InWord) (value : Int) :
    f.extract (f.encode value) = f.pattern value := by
  apply BitVec.eq_of_getLsbD_eq
  intro i _
  rw [getLsbD_extract h, getLsbD_encode h, pattern, BitVec.getLsbD_and, getLsbD_valueMask h,
    Nat.add_sub_cancel_left]
  by_cases hi : i < f.width
  · have hcovers : f.decl.bits.Covers (f.offset + i) := h.covers_iff.2 ⟨by omega, by omega⟩
    simp only [hi, hcovers, decide_true, Bool.true_and, Bool.and_true]
  · simp only [hi, decide_false, Bool.false_and, Bool.and_false]

/-! ## Values -/

theorem toNat_and_valueMask (h : f.InWord) (word : Word) :
    (word &&& f.valueMask).toNat = word.toNat % 2 ^ f.width := by
  apply Nat.eq_of_testBit_eq
  intro i
  rw [Nat.testBit_mod_two_pow, BitVec.testBit_toNat, BitVec.testBit_toNat, BitVec.getLsbD_and,
    getLsbD_valueMask h, Bool.and_comm]

/-- The bits of a value are the value modulo a power of two. -/
theorem toNat_pattern (h : f.InWord) (value : Int) :
    ((f.pattern value).toNat : Int) = value % 2 ^ f.width := by
  -- The word holds the value modulo the power at its own width, which that of the field divides.
  have hnonneg : 0 ≤ value % (2 ^ 64 : Nat) := Int.emod_nonneg _ (by decide)
  have hdvd : (2 ^ f.width : Int) ∣ 2 ^ 64 := pow_dvd_pow 2 h.width_le
  rw [pattern, toNat_and_valueMask h, BitVec.toNat_ofInt, Int.natCast_emod,
    Int.toNat_of_nonneg hnonneg, Nat.cast_pow, Nat.cast_pow, Nat.cast_ofNat,
    Int.emod_emod_of_dvd _ hdvd]

theorem toNat_extract_lt (h : f.InWord) (word : Word) : (f.extract word).toNat < 2 ^ f.width := by
  rw [extract, toNat_and_valueMask h]
  exact Nat.mod_lt _ (Nat.two_pow_pos _)

/-- Twice the power of two below the width is the power of two at the width. -/
theorem InWord.two_pow_width (h : f.InWord) :
    (2 ^ f.width : Int) = 2 * 2 ^ (f.width - 1) := by
  have hwidth := h.width_pos
  rw [← pow_succ', Nat.sub_add_cancel hwidth]

/-- Least and greatest value, without the bounds that a field inside the word does not meet. -/
theorem holds_iff (h : f.InWord) :
    f.Holds value ↔
      if f.decl.datatype.isSigned then
        -2 ^ (f.width - 1) ≤ value ∧ value < 2 ^ (f.width - 1)
      else 0 ≤ value ∧ value < 2 ^ f.width := by
  rw [Holds, ← Datatype.isValue_iff h.width_pos h.width_le, Datatype.isValue_iff_isSigned]
  simp only [Int.le_sub_one_iff]

/-- The highest bit of the field decides the sign. -/
theorem decode_eq (h : f.InWord) (word : Word) :
    f.decode word =
      if f.decl.datatype.isSigned ∧ 2 ^ (f.width - 1) ≤ (f.extract word).toNat then
        ((f.extract word).toNat : Int) - 2 ^ f.width
      else (f.extract word).toNat := by
  have hlt := toNat_extract_lt h word
  have hwidth := h.width_pos
  have hsign : (f.extract word).getLsbD (f.width - 1) =
      decide (2 ^ (f.width - 1) ≤ (f.extract word).toNat) := by
    rw [← BitVec.testBit_toNat, Bool.eq_iff_iff, decide_eq_true_eq]
    constructor
    · intro hbit
      exact Nat.ge_two_pow_of_testBit hbit
    · intro hle
      apply Nat.testBit_of_two_pow_le_and_two_pow_add_one_gt hle
      rwa [Nat.sub_add_cancel hwidth]
  rw [decode, hsign]
  simp only [Bool.and_eq_true, decide_eq_true_eq, Nat.one_shiftLeft, Nat.cast_pow, Nat.cast_ofNat]

/-- The value of a field agrees with its bits modulo a power of two. -/
theorem decode_emod (h : f.InWord) (word : Word) :
    f.decode word % 2 ^ f.width = (f.extract word).toNat := by
  have hlt : ((f.extract word).toNat : Int) < 2 ^ f.width := by
    exact_mod_cast toNat_extract_lt h word
  rw [decode_eq h]
  split
  · rw [Int.sub_emod_right, Int.emod_eq_of_lt (Int.natCast_nonneg _) hlt]
  · rw [Int.emod_eq_of_lt (Int.natCast_nonneg _) hlt]

/-- A field has one value in two words exactly when they agree at its positions. -/
theorem decode_eq_iff (h : f.InWord) {word word' : Word} :
    f.decode word = f.decode word' ↔
      ∀ i, f.decl.bits.Covers i → word.getLsbD i = word'.getLsbD i := by
  constructor
  · intro heq i hi
    -- The value determines the extracted bits, of which the bit at `i` is one.
    have hnat : ((f.extract word).toNat : Int) = (f.extract word').toNat := by
      rw [← decode_emod h word, heq, decode_emod h word']
    have hextract : f.extract word = f.extract word' := BitVec.eq_of_toNat_eq (by omega)
    obtain ⟨hoffset, hwidth⟩ := h.covers_iff.1 hi
    have hbit := congrArg (BitVec.getLsbD · (i - f.offset)) hextract
    simp only [getLsbD_extract h, hwidth, decide_true, Bool.true_and] at hbit
    rwa [Nat.add_sub_cancel' hoffset] at hbit
  · exact decode_congr h

/-- Whatever the word, the value that is read is one of those of the field. -/
theorem holds_decode (h : f.InWord) (word : Word) : f.Holds (f.decode word) := by
  have hlt : ((f.extract word).toNat : Int) < 2 ^ f.width := by
    exact_mod_cast toNat_extract_lt h word
  have hnonneg : (0 : Int) ≤ (f.extract word).toNat := Int.natCast_nonneg _
  have hpower := h.two_pow_width
  rw [holds_iff h, decode_eq h]
  cases f.decl.datatype.isSigned with
  | true =>
    rw [if_pos rfl]
    split
    -- The sign bit is set, and taking the power away leaves a negative number.
    · rename_i hsign
      have hle : (2 : Int) ^ (f.width - 1) ≤ (f.extract word).toNat := by
        exact_mod_cast hsign.2
      omega
    -- The sign bit is clear, and the number is below half the power.
    · rename_i hsign
      have hlow : ((f.extract word).toNat : Int) < 2 ^ (f.width - 1) := by
        simp only [true_and, not_le] at hsign
        exact_mod_cast hsign
      omega
  | false =>
    rw [if_neg (by simp), if_neg (by simp)]
    exact ⟨hnonneg, hlt⟩

/-- No two values of a field agree modulo the power of two at its width. -/
theorem Holds.eq_of_emod_eq (h : f.InWord) {value' : Int} (hvalue : f.Holds value)
    (hvalue' : f.Holds value') (heq : value % 2 ^ f.width = value' % 2 ^ f.width) :
    value = value' := by
  have hpower := h.two_pow_width
  have hdvd : (2 ^ f.width : Int) ∣ value - value' := Int.ModEq.dvd heq.symm
  -- The values of a field are fewer than the power, whichever sign they have.
  have hspan : |value - value'| < 2 ^ f.width := by
    rw [holds_iff h] at hvalue hvalue'
    rw [abs_lt]
    cases hsigned : f.decl.datatype.isSigned with
    | true =>
      rw [hsigned, if_pos rfl] at hvalue hvalue'
      omega
    | false =>
      rw [hsigned, if_neg (by simp)] at hvalue hvalue'
      omega
  exact Int.sub_eq_zero.1 (Int.eq_zero_of_abs_lt_dvd hdvd hspan)

/-- **A field reads back what was written to it**, for every value that it holds. -/
theorem decode_encode (h : f.InWord) (hvalue : f.Holds value) :
    f.decode (f.encode value) = value := by
  apply Holds.eq_of_emod_eq h (holds_decode h _) hvalue
  rw [decode_emod h, extract_encode h, toNat_pattern h]

end Field

end BusMap
