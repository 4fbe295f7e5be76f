import BusMap.Proofs.Bus.RegisterSlave
import BusMap.Proofs.Register.Trace

/-!
# Alignment of absolute addresses

Offsets of registers are multiples of the stride, and an absolute address is the base plus an offset.
The base itself is not checked, so that the absolute addresses of a set are aligned exactly when its
base is (`RegisterSetDecl.aligned_iff_base`).

A walk without a shift reports the word that holds the first byte of a register, and a base between two
words is lost in it: what the word leaves of an absolute address is the base modulo the stride
(`RegisterSetDecl.walk_word_addresses`). A base that is left open is aligned, and so is the base of
every set that is accepted on a bus, where the base is the address of a slave and is checked
(`BusDecl.stride_dvd_base`).
-/

set_option autoImplicit false

namespace BusMap

/-! ## Words -/

/-- A multiple of the stride above a base is in the word of the base, moved up by whole words. -/
theorem word_mul_stride {stride base offset : Nat} (h : stride ∣ offset) :
    (base + offset) / stride * stride + base % stride = base + offset := by
  have hmod : (base + offset) % stride = base % stride := by
    rcases h with ⟨index, rfl⟩
    exact Nat.add_mul_mod_self_left base stride index
  rw [← hmod, Nat.mul_comm]
  exact Nat.div_add_mod (base + offset) stride

namespace RegisterSetDecl

variable {policy : Policy} {d : RegisterSetDecl} {resolved : Resolved RegisterSet}

/-- The absolute address of a register is aligned exactly when the base is. -/
theorem aligned_iff_base (h : d.resolveWith policy = .ok resolved) {register : Register}
    (hmem : register ∈ resolved.model.registers) :
    resolved.model.stride ∣ register.address.absolute ↔ resolved.model.stride ∣ d.base := by
  rcases word_of_resolveWith h hmem with ⟨hoffset, -, habsolute⟩
  rw [habsolute]
  exact (Nat.dvd_add_iff_left hoffset).symm

/-- Without a shift, the word address of a register falls short of its address by what the base is
above a word. -/
theorem wordAddress_mul_stride (h : d.resolveWith policy = .ok resolved) {options : WalkOptions}
    (hshift : options.addressShift = 0) {register : Register}
    (hmem : register ∈ resolved.model.registers) :
    resolved.model.wordAddress options register.address.absolute * resolved.model.stride +
      d.base % resolved.model.stride = register.address.absolute := by
  rcases word_of_resolveWith h hmem with ⟨hoffset, -, habsolute⟩
  have hword : resolved.model.wordAddress options register.address.absolute =
      register.address.absolute / resolved.model.stride := by
    rw [RegisterSet.wordAddress, hshift, Nat.shiftRight_eq_div_pow, two_pow_alignmentBits h]
    rfl
  rw [hword, habsolute]
  exact word_mul_stride hoffset

/-- **Absolute addresses are as aligned as the base.** Every register of a resolved set is at a
multiple of the stride exactly when the base is one. A walk without a shift and with no other base
passes all registers and reports each at its resolved address. The word address of a register, in
bytes, falls short of this address by the base modulo the stride, and is the address exactly when the
base is aligned. -/
theorem walk_word_addresses (policy : Policy) (d : RegisterSetDecl) (resolved : Resolved RegisterSet)
    (h : d.resolveWith policy = .ok resolved) :
    let s := resolved.model
    (∀ register ∈ s.registers, s.stride ∣ register.address.absolute ↔ s.stride ∣ d.base) ∧
      (s.walk {}).outcome = .ok () ∧
      List.Forall₂
        (fun register info =>
          info.absoluteAddress = register.address.absolute ∧
            info.wordAddress * s.stride + d.base % s.stride = info.absoluteAddress ∧
              (info.wordAddress * s.stride = info.absoluteAddress ↔ s.stride ∣ d.base))
        s.registers (s.walk {}).registers := by
  intro s
  have hregisters : (s.walk {}).registers = _ := registers_walk_of_resolveWith h rfl
  refine ⟨fun register => aligned_iff_base h, outcome_walk_of_resolveWith h rfl, ?_⟩
  rw [hregisters, List.forall₂_map_right_iff, List.forall₂_same]
  intro register hmem
  have hword : s.wordAddress {} register.address.absolute * s.stride + d.base % s.stride =
      register.address.absolute := wordAddress_mul_stride h rfl hmem
  refine ⟨rfl, hword, ?_⟩
  show s.wordAddress {} register.address.absolute * s.stride = register.address.absolute ↔ _
  rw [Nat.dvd_iff_mod_eq_zero]
  omega

/-- Two registers of four bytes above a base. -/
def pair (baseAddress : Address) : RegisterSetDecl where
  name := "regs"
  baseAddress := baseAddress
  portSize := 32
  registers := [
    { name := "a", kind := .read },
    { name := "b", kind := .writeRead, address := .fixed 8 }]

theorem walk_word_addresses_pair :
    ∃ resolved, (pair (.fixed 64)).resolveWith .lenient = .ok resolved ∧
      ∀ register ∈ resolved.model.registers, 4 ∣ register.address.absolute := by
  refine ⟨_, rfl, ?_⟩
  intro register hmem
  have haligned := (walk_word_addresses .lenient (pair (.fixed 64)) _ rfl).1 register hmem
  exact haligned.2 (by decide)

/-- A base between two words is accepted, and no register is aligned. The walk reports the words that
the registers begin in. -/
theorem walk_word_addresses_betweenWords :
    ∃ resolved, (pair (.fixed 2)).resolveWith .lenient = .ok resolved ∧
      resolved.model.stride = 4 ∧
      resolved.model.registers.map (·.address.absolute) = [14, 10] ∧
      (resolved.model.walk {}).registers.map (·.wordAddress) = [3, 2] :=
  ⟨_, rfl, rfl, rfl, rfl⟩

end RegisterSetDecl

/-! ## On a bus -/

/-- The base of a register set is aligned when a bus with a slave made from the set is accepted. -/
theorem BusDecl.stride_dvd_base {setPolicy policy : Policy} {setDecl : RegisterSetDecl}
    {set : Resolved RegisterSet} {d : BusDecl} {resolved : Resolved Bus}
    (hset : setDecl.resolveWith setPolicy = .ok set) (h : d.resolveWith policy = .ok resolved)
    (hslave : SlaveDecl.ofRegisterSet set.model ∈ d.slaves) : set.model.stride ∣ setDecl.base := by
  rcases BusDecl.resolveWith_spec h with ⟨hcheck, hconnect⟩
  have hlegal := BusDecl.legal_of_check hcheck
  rcases BusDecl.connect_spec hconnect with ⟨-, hlow, -, -, windows, hwindows, -⟩
  rcases RegisterSetDecl.resolveWith_spec hset with ⟨-, _, -, -, -, -, hbase⟩
  cases haddress : setDecl.baseAddress with
  | auto =>
    rw [RegisterSetDecl.base, haddress]
    exact Nat.dvd_zero _
  | fixed address =>
    -- The window of the slave starts at the base, and every window starts at a word of the bus.
    rcases List.mem_iff_getElem?.1 hslave with ⟨i, hi⟩
    rcases exists_getElem?_of_forall₂ (BusDecl.forall₂_windows hwindows) hi with
      ⟨window, -, hwindow⟩
    have hfirst : window.first = setDecl.base := by
      rw [RegisterSetDecl.base, haddress]
      exact hwindow.fixed address (hbase.trans haddress)
    have haligned := hwindow.aligned
    rw [hfirst, ← Nat.one_shiftLeft] at haligned
    exact Nat.dvd_trans (BusDecl.stride_dvd_of_format hlegal hslave hlow) haligned

end BusMap
