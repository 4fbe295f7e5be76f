import Mathlib.Algebra.Group.Nat.Defs
import BusMap.Proofs.Register.Walk
import BusMap.Register.Resolve

/-!
# Shifts of word addresses

A walk moves the word address of a register by the shift of its options, to the right or to the left,
but by no more than `longestShift` bits. A word has one bit more than that. A longer shift moves all
of its bits out, so that nothing should be left, and a walk leaves the last one (`shiftWord_of_lt`).
The shift is therefore exact up to `longestShift`, and beyond it unless that bit is set
(`shiftWord_eq_shifted_iff`).
-/

set_option autoImplicit false

namespace BusMap

/-! ## One word -/

/-- What arithmetic makes of a shift: to the right the whole part, to the left what fits a machine
word. -/
def shifted (word : Nat) (shift : Int) : Nat :=
  if 0 ≤ shift then word / 2 ^ shift.natAbs else word * 2 ^ shift.natAbs % 2 ^ 64

/-- The bit that is moved out last: to the right the highest one, to the left the lowest one. -/
def lastBit (word : Nat) (shift : Int) : Nat :=
  if 0 ≤ shift then word / 2 ^ 63 else word % 2

/-- Where the longest shift leaves the bit that is moved out last. -/
def lastPlace (shift : Int) : Nat := if 0 ≤ shift then 1 else 2 ^ 63

variable {word : Nat} {shift : Int}

theorem lastPlace_pos (shift : Int) : 0 < lastPlace shift := by
  rw [lastPlace]
  split <;> decide

theorem shiftWord_of_le (h : shift.natAbs ≤ 63) : shiftWord word shift = shifted word shift := by
  have hamount : min shift.natAbs longestShift = shift.natAbs := Nat.min_eq_left h
  rw [shiftWord, shifted, hamount]
  split
  · exact Nat.shiftRight_eq_div_pow word _
  · exact congrArg (· % 2 ^ 64) (Nat.shiftLeft_eq word _)

/-- A shift beyond the longest one is cut to it. -/
theorem shiftWord_of_lt (h : 63 < shift.natAbs) :
    shiftWord word shift = lastBit word shift * lastPlace shift := by
  have hamount : min shift.natAbs longestShift = 63 := Nat.min_eq_right (Nat.le_of_lt h)
  rw [shiftWord, lastBit, lastPlace, hamount]
  split
  · rw [Nat.shiftRight_eq_div_pow, Nat.mul_one]
  -- All bits but the lowest one are moved out, which leaves the word modulo two.
  · have hlimit : wordLimit = 2 ^ 64 := rfl
    rw [Nat.shiftLeft_eq, hlimit]
    omega

/-- A shift beyond the longest one moves every bit out. -/
theorem shifted_of_lt (hword : word < 2 ^ 64) (h : 63 < shift.natAbs) : shifted word shift = 0 := by
  rw [shifted]
  split
  · exact Nat.div_eq_of_lt (Nat.lt_of_lt_of_le hword (Nat.pow_le_pow_right (by decide) h))
  · exact Nat.mod_eq_zero_of_dvd (Nat.dvd_mul_left_of_dvd (Nat.pow_dvd_pow 2 h) word)

/-- A word is shifted exactly, unless the shift is beyond the longest one and the bit that is moved
out last is set. -/
theorem shiftWord_eq_shifted_iff (hword : word < 2 ^ 64) :
    shiftWord word shift = shifted word shift ↔ shift.natAbs ≤ 63 ∨ lastBit word shift = 0 := by
  by_cases hlong : 63 < shift.natAbs
  · have hplace := lastPlace_pos shift
    rw [shifted_of_lt hword hlong, shiftWord_of_lt hlong, Nat.mul_eq_zero]
    omega
  · have hshort := Nat.not_lt.1 hlong
    exact iff_of_true (shiftWord_of_le hshort) (Or.inl hshort)

/-- An address without its lowest bits has no highest bit. -/
theorem lastBit_div_two_pow {address bits : Nat} (haddress : address < 2 ^ 64) (hbits : 1 ≤ bits)
    (hshift : 0 ≤ shift) : lastBit (address / 2 ^ bits) shift = 0 := by
  have hhalf : address / 2 ^ bits ≤ address / 2 :=
    Nat.div_le_div_left (Nat.le_self_pow (Nat.ne_of_gt hbits) 2) (by decide)
  rw [lastBit, if_pos hshift]
  exact Nat.div_eq_of_lt (by omega)

/-! ## A walk -/

namespace RegisterSet

theorem wordAddress_eq (s : RegisterSet) (options : WalkOptions) (address : Nat) :
    s.wordAddress options address =
      shiftWord (address / 2 ^ s.alignmentBits) options.addressShift := by
  rw [wordAddress, Nat.shiftRight_eq_div_pow]

/-- **The words of a walk.** A walk tells of the registers up to the first one that the base lifts
past the limit, each at the base plus its offset. The word that it reports is the address without its
alignment bits, shifted exactly if the shift is at most the longest one or the bit that is moved out
last is not set. Otherwise this bit stays in place of nothing. It cannot be set in a word of two bytes
or more that is shifted to the right. -/
theorem walk_shifts_words (s : RegisterSet) (options : WalkOptions) :
    let shift := options.addressShift
    List.Forall₂
      (fun (r : Register) (info : RegisterInfo) =>
        let word := info.absoluteAddress / 2 ^ s.alignmentBits
        info.absoluteAddress = s.walkBase options + r.address.relative ∧
          info.absoluteAddress < 2 ^ 64 ∧
          (info.wordAddress = shifted word shift ↔ shift.natAbs ≤ 63 ∨ lastBit word shift = 0) ∧
          (63 < shift.natAbs → shifted word shift = 0 ∧
            info.wordAddress = lastBit word shift * lastPlace shift) ∧
          (1 ≤ s.alignmentBits → 0 ≤ shift → lastBit word shift = 0))
      (s.registers.takeWhile (s.fits options))
      (s.walk options).registers := by
  intro shift
  rw [registers_walk_eq, registers_walkRegisters_eq, List.forall₂_map_right_iff,
    List.forall₂_same]
  intro r hr
  have hlt : s.walkBase options + r.address.relative < 2 ^ 64 :=
    fits_iff.1 (List.mem_takeWhile_imp hr)
  have hword : (s.walkBase options + r.address.relative) / 2 ^ s.alignmentBits < 2 ^ 64 :=
    Nat.lt_of_le_of_lt (Nat.div_le_self _ _) hlt
  rw [wordAddress_eq]
  exact ⟨rfl, hlt, shiftWord_eq_shifted_iff hword,
    fun hlong => ⟨shifted_of_lt hword hlong, shiftWord_of_lt hlong⟩,
    fun hbits hshift => lastBit_div_two_pow hlt hbits hshift⟩

end RegisterSet

namespace RegisterSetDecl

/-- A byte whose address has both the highest and the lowest bit set. -/
def farByte : RegisterSetDecl where
  name := "regs"
  portSize := 8
  registers := [{ name := "a", kind := .read, address := .fixed (2 ^ 63 + 1) }]

/-- Sixty-four places to either side the address has no bits left, and a walk reports one. -/
theorem walk_keeps_lastBit :
    ∃ resolved, farByte.resolveWith .lenient = .ok resolved ∧ resolved.model.alignmentBits = 0 ∧
      (resolved.model.walk { addressShift := 64 }).registers.map
        (fun info => (info.absoluteAddress, info.wordAddress)) = [(2 ^ 63 + 1, 1)] ∧
      (resolved.model.walk { addressShift := -64 }).registers.map
        (fun info => (info.absoluteAddress, info.wordAddress)) = [(2 ^ 63 + 1, 2 ^ 63)] ∧
      shifted (2 ^ 63 + 1) 64 = 0 ∧ shifted (2 ^ 63 + 1) (-64) = 0 :=
  ⟨_, rfl, rfl, rfl, rfl, rfl, rfl⟩

end RegisterSetDecl

end BusMap
