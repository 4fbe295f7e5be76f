import Mathlib.Algebra.Group.Nat.Defs
import BusMap.Proofs.Register.Planning

/-!
# Address bits of a register set

A register set decodes the byte address bits from `lo` to `hi`. The bits below them count the bytes of
a word, and these tell the words apart. Word addresses of some bits reach every register exactly when
the bits are no fewer than the address size (`RegisterSetDecl.addressSize_le_iff_reached`), so that the
bits of the set suffice for each byte of each register and none of them can be spared
(`RegisterSetDecl.resolveWith_addressBits`).
-/

set_option autoImplicit false

namespace BusMap

namespace RegisterSetDecl

variable {policy : Policy} {d : RegisterSetDecl} {resolved : Resolved RegisterSet}

/-! ## Words -/

/-- The address bits below a word address count the bytes of a word. -/
theorem two_pow_alignmentBits (h : d.resolveWith policy = .ok resolved) :
    2 ^ resolved.model.alignmentBits = resolved.model.stride := by
  obtain ⟨hcheck, _, -, -, -, hportSize, -⟩ := resolveWith_spec h
  rw [RegisterSet.alignmentBits, RegisterSet.stride, hportSize, ← Nat.one_shiftLeft]
  exact shiftLeft_wordAlignmentBits (isPortSize_of_check hcheck)

theorem alignmentBits_lt (h : d.resolveWith policy = .ok resolved) :
    resolved.model.alignmentBits < wordBits := by
  obtain ⟨hcheck, _, -, -, -, hportSize, -⟩ := resolveWith_spec h
  rw [RegisterSet.alignmentBits, hportSize]
  exact wordAlignmentBits_lt (isPortSize_of_check hcheck)

/-- Address bits that reach the first byte of a register reach all of its bytes. -/
theorem end_le_of_relative_lt (h : d.resolveWith policy = .ok resolved) {register : Register}
    (hmem : register ∈ resolved.model.registers) {n : Nat}
    (hlt : register.address.relative < 2 ^ (resolved.model.alignmentBits + n)) :
    register.address.relative + resolved.model.stride ≤ 2 ^ (resolved.model.alignmentBits + n) := by
  rw [Nat.pow_add, two_pow_alignmentBits h] at hlt ⊢
  -- The offset is a multiple of the stride, so that its index counts the words before it.
  obtain ⟨index, hoffset⟩ := (word_of_resolveWith h hmem).1
  rw [hoffset] at hlt ⊢
  have hindex : index < 2 ^ n := Nat.lt_of_mul_lt_mul_left hlt
  calc resolved.model.stride * index + resolved.model.stride
      = resolved.model.stride * (index + 1) := (Nat.mul_succ _ _).symm
    _ ≤ resolved.model.stride * 2 ^ n := Nat.mul_le_mul_left _ hindex

/-! ## Address size -/

/-- The address size is that of the addresses of the registers. -/
theorem addressSize_of_resolveWith (h : d.resolveWith policy = .ok resolved) :
    BusMap.addressSize d.portSize (resolved.model.registers.map (·.address)) =
      .ok resolved.model.addressSize := by
  obtain ⟨-, addresses, haddresses, hregisters, hsize, -⟩ := resolveWith_spec h
  have hlength := length_of_addresses haddresses
  obtain ⟨hplanned, -⟩ := resolveRegisters_planned hlength hregisters
  have hmap : resolved.model.registers.map (·.address) = addresses := by
    rw [hplanned, List.map_map]
    exact List.map_snd_zip (Nat.le_of_eq hlength)
  rw [hmap]
  exact hsize

/-- Word addresses of `n` bits reach every register exactly when the address size is at most `n`. -/
theorem addressSize_le_iff_reached (h : d.resolveWith policy = .ok resolved) {n : Nat} (hn : 1 ≤ n) :
    resolved.model.addressSize ≤ n ↔
      ∀ register ∈ resolved.model.registers,
        register.address.relative < 2 ^ (resolved.model.alignmentBits + n) := by
  have hpos := one_le_stride_of_resolveWith h
  rw [stride_of_resolveWith h] at hpos
  rw [addressSize_le_iff hpos (addressSize_of_resolveWith h) hn, List.forall_mem_map]
  refine forall₂_congr fun register _ => ?_
  rw [Nat.div_lt_iff_lt_mul hpos, Nat.one_shiftLeft, ← stride_of_resolveWith h,
    ← two_pow_alignmentBits h, ← Nat.pow_add, Nat.add_comm]

/-- The bytes of every register have no more address bits than the set. -/
theorem end_le_two_pow (h : d.resolveWith policy = .ok resolved) {register : Register}
    (hmem : register ∈ resolved.model.registers) :
    register.address.relative + resolved.model.stride ≤
      2 ^ (resolved.model.alignmentBits + resolved.model.addressSize) := by
  have hsize := one_le_addressSize (addressSize_of_resolveWith h)
  have hreached := (addressSize_le_iff_reached h hsize).1 (Nat.le_refl _)
  exact end_le_of_relative_lt h hmem (hreached register hmem)

/-- The word addresses of an accepted register set reach each of its registers. -/
theorem end_le_of_resolveWith (h : d.resolveWith policy = .ok resolved) {register : Register}
    (hmem : register ∈ resolved.model.registers) :
    register.address.relative + resolved.model.stride ≤
      (1 <<< resolved.model.addressSize) * resolved.model.stride := by
  rw [Nat.one_shiftLeft, Nat.mul_comm, ← two_pow_alignmentBits h, ← Nat.pow_add,
    two_pow_alignmentBits h]
  exact end_le_two_pow h hmem

/-- A machine word has the address bits of every set. -/
theorem addressSize_le_wordBits_sub (h : d.resolveWith policy = .ok resolved) :
    resolved.model.addressSize ≤ wordBits - resolved.model.alignmentBits := by
  have hbits := alignmentBits_lt h
  have hsum : resolved.model.alignmentBits + (wordBits - resolved.model.alignmentBits) = wordBits :=
    Nat.add_sub_cancel' (Nat.le_of_lt hbits)
  rw [addressSize_le_iff_reached h (Nat.sub_pos_of_lt hbits), hsum]
  intro register hmem
  have hpos := one_le_stride_of_resolveWith h
  have hend := (word_of_resolveWith h hmem).2.1
  rw [wordLimit, Nat.one_shiftLeft] at hend
  omega

/-- With one word address bit less, some register would not be reached. -/
theorem exists_two_pow_le_relative (h : d.resolveWith policy = .ok resolved)
    (hsize : 2 ≤ resolved.model.addressSize) :
    ∃ register ∈ resolved.model.registers,
      2 ^ (resolved.model.alignmentBits + (resolved.model.addressSize - 1)) ≤
        register.address.relative := by
  by_contra hnone
  have hreached : resolved.model.addressSize ≤ resolved.model.addressSize - 1 := by
    apply (addressSize_le_iff_reached h (Nat.le_sub_one_of_lt hsize)).2
    intro register hmem
    by_contra hbeyond
    exact hnone ⟨register, hmem, Nat.not_lt.1 hbeyond⟩
  omega

/-- **The address bits of a register set suffice, and none can be spared.** The bits below the lowest
one count the bytes of a register. Every byte of every register has an address of no more bits than the
highest one, which is a bit of a machine word. Word addresses of `n` bits, at least one, reach the
first bytes of all registers only when the set has no more word address bits than that; in particular a
set with more than one has a register for which its highest address bit is needed. -/
theorem resolveWith_addressBits (policy : Policy) (d : RegisterSetDecl)
    (resolved : Resolved RegisterSet) (h : d.resolveWith policy = .ok resolved) :
    let s := resolved.model
    let lo := s.addressBits.1
    let hi := s.addressBits.2
    2 ^ lo = s.stride ∧ hi + 1 = lo + s.addressSize ∧ hi < wordBits ∧
      (∀ register ∈ s.registers, ∀ address, register.address.relative ≤ address →
        address < register.address.relative + s.stride → address < 2 ^ (hi + 1)) ∧
      (s.addressSize = 1 ∨ ∃ register ∈ s.registers, 2 ^ hi ≤ register.address.relative) ∧
      ∀ n, 1 ≤ n → (∀ register ∈ s.registers, register.address.relative < 2 ^ (lo + n)) →
        s.addressSize ≤ n := by
  intro s lo hi
  have hsize : 1 ≤ s.addressSize := one_le_addressSize (addressSize_of_resolveWith h)
  have hbits : s.addressSize ≤ wordBits - lo := addressSize_le_wordBits_sub h
  have hlo : lo < wordBits := alignmentBits_lt h
  have hhi : hi = lo + (s.addressSize - 1) := Nat.add_sub_assoc hsize lo
  have hsucc : hi + 1 = lo + s.addressSize := by omega
  refine ⟨two_pow_alignmentBits h, hsucc, by omega, ?_, ?_, ?_⟩
  · intro register hmem address _ haddress
    rw [hsucc]
    exact Nat.lt_of_lt_of_le haddress (end_le_two_pow h hmem)
  · rcases Nat.eq_or_lt_of_le hsize with hone | htwo
    · exact Or.inl hone.symm
    · rw [hhi]
      exact Or.inr (exists_two_pow_le_relative h htwo)
  · intro n hn hreached
    exact (addressSize_le_iff_reached h hn).2 hreached

/-- Two registers of four bytes, at the two ends of the address space. -/
def bothEnds : RegisterSetDecl where
  name := "regs"
  portSize := 32
  registers := [
    { name := "last", kind := .read, address := .fixed (wordLimit - 4) },
    { name := "first", kind := .write, address := .fixed 0 }]

/-- The last word needs every bit of a machine word above those of its bytes. -/
theorem resolveWith_addressBits_bothEnds :
    ∃ resolved, bothEnds.resolveWith .lenient = .ok resolved ∧
      resolved.model.addressBits = (2, 63) ∧
      (∀ register ∈ resolved.model.registers, ∀ address,
        register.address.relative ≤ address → address < register.address.relative + 4 →
          address < 2 ^ 64) ∧
      ∀ n, 1 ≤ n → (∀ register ∈ resolved.model.registers,
        register.address.relative < 2 ^ (2 + n)) → 62 ≤ n := by
  refine ⟨_, rfl, rfl, ?_⟩
  obtain ⟨-, -, -, hsuffices, -, hleast⟩ := resolveWith_addressBits .lenient bothEnds _ rfl
  exact ⟨hsuffices, hleast⟩

end RegisterSetDecl

end BusMap
