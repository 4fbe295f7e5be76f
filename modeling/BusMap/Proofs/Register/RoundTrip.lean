import BusMap.Proofs.Register.FieldIsolation

/-!
# Writing a field and reading it back

Encoding and decoding undo one another as far as they can. Encoding keeps a value modulo a power of
two, and all of it when the field holds the value; decoding keeps the bits of the field, and loses
the others (`Field.encode_decode`). The value that is read thus stands for the bits under the mask
(`Field.decode_eq_iff_and_bitmask`).

Every field of an accepted register set lies in its word, so that this holds of all of them
(`RegisterSetDecl.resolveWith_fields_round_trip`).
-/

set_option autoImplicit false

namespace BusMap

namespace Field

variable {f : Field}

/-! ## Values -/

/-- What is read after a value is written agrees with the value as far as the field has bits. -/
theorem decode_encode_modEq (h : f.InWord) (value : Int) :
    f.decode (f.encode value) ≡ value [ZMOD 2 ^ f.width] := by
  rw [Int.ModEq, decode_emod h, extract_encode h, toNat_pattern h]

/-- A value is written between the ends of the field. -/
theorem encode_and_not_bitmask (h : f.InWord) (value : Int) :
    f.encode value &&& ~~~f.bitmask = 0 := by
  apply BitVec.eq_of_getLsbD_eq
  intro i _
  rw [BitVec.getLsbD_and, BitVec.getLsbD_not, getLsbD_encode h, getLsbD_bitmask h]
  by_cases hi : f.decl.bits.Covers i
  · simp [hi]
  · simp [hi]

/-! ## Words -/

/-- The value of a field has the bits that the field has in the word. -/
theorem pattern_decode (h : f.InWord) (word : Word) :
    f.pattern (f.decode word) = f.extract word := by
  apply BitVec.eq_of_toNat_eq
  have hnat : ((f.pattern (f.decode word)).toNat : Int) = (f.extract word).toNat := by
    rw [toNat_pattern h, decode_emod h]
  exact Int.ofNat_inj.1 hnat

/-- Bits of the word outside the field are lost, and those in the field are put back. -/
theorem encode_decode (h : f.InWord) (word : Word) :
    f.encode (f.decode word) = word &&& f.bitmask := by
  apply BitVec.eq_of_getLsbD_eq
  intro i hi
  rw [encode, pattern_decode h, BitVec.getLsbD_shiftLeft, getLsbD_extract h, BitVec.getLsbD_and,
    getLsbD_bitmask h]
  by_cases hcovers : f.decl.bits.Covers i
  · obtain ⟨hoffset, hwidth⟩ := h.covers_iff.1 hcovers
    simp [hcovers, hi, hwidth, Nat.not_lt.2 hoffset, Nat.add_sub_cancel' hoffset]
  · -- A bit that is moved to a position stood in the field before.
    have hout : i < f.offset ∨ ¬ i - f.offset < f.width := by
      by_contra hin
      rw [not_or, not_not, Nat.not_lt] at hin
      exact hcovers (h.covers_iff.2 hin)
    rcases hout with hout | hout
    · simp [hcovers, hout]
    · simp [hcovers, hout]

/-- A field has one value in two words exactly when they agree under its mask. -/
theorem decode_eq_iff_and_bitmask (h : f.InWord) {word word' : Word} :
    f.decode word = f.decode word' ↔ word &&& f.bitmask = word' &&& f.bitmask := by
  constructor
  · intro heq
    rw [← encode_decode h, heq, encode_decode h]
  · intro heq
    -- Both words give the value that is read of their common part.
    have hmasked : ∀ v : Word, f.decode (v &&& f.bitmask) = f.decode v := by
      intro v
      rw [← encode_decode h, decode_encode h (holds_decode h v)]
    rw [← hmasked word, heq, hmasked word']

end Field

namespace RegisterSetDecl

/-- **Encoding and decoding a field undo one another.** For every field of an accepted register set:
a value that the field holds is read back as it was written; any integer is read back modulo the
power of two at the width of the field, and is written to no bit outside the field. Whatever the
word, what is read of it is a value of the field, depends on the bits under the mask only, and is
written back as these bits. -/
theorem resolveWith_fields_round_trip (policy : Policy) (d : RegisterSetDecl)
    (resolved : Resolved RegisterSet) (h : d.resolveWith policy = .ok resolved)
    (register : Register) (hregister : register ∈ resolved.model.registers)
    (f : Field) (hf : f ∈ register.fields) :
    (∀ value, f.Holds value → f.decode (f.encode value) = value) ∧
      (∀ value, f.encode value &&& ~~~f.bitmask = 0 ∧
        f.decode (f.encode value) ≡ value [ZMOD 2 ^ f.width]) ∧
      ∀ word, f.Holds (f.decode word) ∧
        (∀ word', word &&& f.bitmask = word' &&& f.bitmask → f.decode word = f.decode word') ∧
          f.encode (f.decode word) = word &&& f.bitmask := by
  have hword : f.InWord := (isolated_of_resolveWith h hregister).inWord f hf
  refine ⟨?_, ?_, ?_⟩
  · intro value hvalue
    exact Field.decode_encode hword hvalue
  · intro value
    exact ⟨Field.encode_and_not_bitmask hword value, Field.decode_encode_modEq hword value⟩
  · intro word
    refine ⟨Field.holds_decode hword word, ?_, Field.encode_decode hword word⟩
    intro word' heq
    exact (Field.decode_eq_iff_and_bitmask hword).2 heq

/-- A signed field that fills its word, and one whose values need the sign of a narrow field. -/
def signedFields : RegisterSetDecl where
  name := "regs"
  portSize := 64
  registers := [
    { name := "counter"
      kind := .writeRead
      fields := [{ name := "count", bits := ⟨63, 0⟩, datatype := .signed .bits64 }] },
    { name := "tuning"
      kind := .writeRead
      fields := [{ name := "trim", bits := ⟨14, 12⟩, datatype := .signed .bits8 }] }]

/-- The least value of the whole word is read back; beyond the greatest value of three bits a
negative one is read; and a word of ones keeps three of them. -/
theorem resolveWith_fields_round_trip_signed :
    ∃ resolved counter tuning count trim, signedFields.resolveWith .lenient = .ok resolved ∧
      resolved.model.registers = [counter, tuning] ∧ counter.fields = [count] ∧
        tuning.fields = [trim] ∧ count.decode (count.encode (-2 ^ 63)) = -2 ^ 63 ∧
          trim.decode (trim.encode 5) ≡ 5 [ZMOD 2 ^ 3] ∧ trim.decode (trim.encode 5) = -3 ∧
            trim.encode (trim.decode (BitVec.allOnes 64)) = 0x7000 := by
  refine ⟨_, _, _, _, _, rfl, rfl, rfl, rfl, ?_, ?_, ?_, ?_⟩
  · exact (resolveWith_fields_round_trip .lenient signedFields _ rfl _ List.mem_cons_self _
      List.mem_cons_self).1 _ (by decide)
  · exact ((resolveWith_fields_round_trip .lenient signedFields _ rfl _
      (List.mem_cons_of_mem _ List.mem_cons_self) _ List.mem_cons_self).2.1 5).2
  · decide
  · exact ((resolveWith_fields_round_trip .lenient signedFields _ rfl _
      (List.mem_cons_of_mem _ List.mem_cons_self) _ List.mem_cons_self).2.2 _).2.2

end RegisterSetDecl

end BusMap
