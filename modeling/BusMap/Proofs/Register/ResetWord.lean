import BusMap.Proofs.Register.FieldIsolation
import BusMap.Proofs.Register.Reordering

/-!
# Reset words

The word of a register after a reset collects the encoded defaults of its fields. In an isolated
register a bit is decided by the one field that covers it (`Register.getLsbD_resetValue_of_covers`),
so that every field whose default is one of its values reads it back (`Register.decode_resetValue`),
and a bit that no field covers is clear. The fields may be collected in any order
(`Register.Reorders.resetValue_eq`).

The check of a register set makes its registers isolated and its defaults values of their fields, so
that all of this holds of every accepted register set (`RegisterSetDecl.resolveWith_reset_values`).
-/

set_option autoImplicit false

namespace BusMap

namespace Register

variable {r r' : Register} {i : Nat}

/-! ## One register -/

/-- A bit is set that the default of some field has. -/
theorem getLsbD_resetValue (r : Register) (i : Nat) :
    r.resetValue.getLsbD i = r.fields.any fun f => (f.encode f.decl.default).getLsbD i := by
  rw [resetValue, getLsbD_foldl_or]
  simp

/-- Every bit that is set belongs to a field. -/
theorem exists_covers_of_resetValue (hr : r.Isolated) (h : r.resetValue.getLsbD i = true) :
    ∃ f ∈ r.fields, f.decl.bits.Covers i := by
  rw [getLsbD_resetValue, List.any_eq_true] at h
  obtain ⟨f, hf, hbit⟩ := h
  rw [Field.getLsbD_encode (hr.inWord f hf), Bool.and_eq_true] at hbit
  exact ⟨f, hf, of_decide_eq_true hbit.1⟩

/-- No other field has a say in the bits of a field. -/
theorem getLsbD_resetValue_of_covers (hr : r.Isolated) {f : Field} (hf : f ∈ r.fields)
    (hi : f.decl.bits.Covers i) :
    r.resetValue.getLsbD i = (f.encode f.decl.default).getLsbD i := by
  rw [getLsbD_resetValue, Bool.eq_iff_iff, List.any_eq_true]
  constructor
  · rintro ⟨g, hg, hbit⟩
    by_cases hsame : f = g
    · rwa [hsame]
    · rw [Field.getLsbD_encode (hr.inWord g hg), Bool.and_eq_true] at hbit
      exact absurd (of_decide_eq_true hbit.1) (hr.apart f hf g hg hsame i hi)
  · intro hbit
    exact ⟨f, hf, hbit⟩

/-- After a reset a field reads its default. -/
theorem decode_resetValue (hr : r.Isolated) {f : Field} (hf : f ∈ r.fields)
    (hdefault : f.Holds f.decl.default) : f.decode r.resetValue = f.decl.default := by
  have hword := hr.inWord f hf
  calc f.decode r.resetValue
      = f.decode (f.encode f.decl.default) :=
        Field.decode_congr hword fun _ hi => getLsbD_resetValue_of_covers hr hf hi
    _ = f.decl.default := Field.decode_encode hword hdefault

/-- The defaults can be collected in any order. -/
theorem Reorders.resetValue_eq (h : r.Reorders r') : r'.resetValue = r.resetValue := by
  obtain ⟨fields, hperm, rfl⟩ := h
  have : RightCommutative fun (word : Word) (f : Field) => word ||| f.encode f.decl.default := by
    constructor
    intro word f g
    rw [BitVec.or_assoc, BitVec.or_comm (f.encode _), ← BitVec.or_assoc]
  exact hperm.symm.foldl_eq 0

end Register

/-! ## Register sets -/

namespace RegisterSetDecl

/-- **The reset word holds every default.** In every register of an accepted register set, each
field reads its default from the reset word, and a bit that is set in the word lies inside the
register and belongs to a field. Declared with the fields of its registers in any other order, the
set is accepted as well and has the same reset words. -/
theorem resolveWith_reset_values (policy : Policy) (d : RegisterSetDecl)
    (resolved : Resolved RegisterSet) (h : d.resolveWith policy = .ok resolved) :
    (∀ register ∈ resolved.model.registers,
      (∀ f ∈ register.fields, f.decode register.resetValue = f.decl.default) ∧
        ∀ i, register.resetValue.getLsbD i = true →
          i < resolved.model.portSize ∧ ∃ f ∈ register.fields, f.bitmask.getLsbD i = true) ∧
    ∀ d', d.Reorders d' → ∃ resolved', d'.resolveWith policy = .ok resolved' ∧
      List.Forall₂ (fun register register' =>
          register.Reorders register' ∧ register'.resetValue = register.resetValue)
        resolved.model.registers resolved'.model.registers := by
  constructor
  · intro register hregister
    have hisolated := isolated_of_resolveWith h hregister
    constructor
    · intro f hf
      have hlegal := legal_of_resolveWith h hregister hf
      exact Register.decode_resetValue hisolated hf ⟨hlegal.min_le_default, hlegal.default_le_max⟩
    · intro i hbit
      obtain ⟨f, hf, hcovers⟩ := Register.exists_covers_of_resetValue hisolated hbit
      refine ⟨?_, f, hf, ?_⟩
      · obtain ⟨-, -, -, -, -, hport, -⟩ := resolveWith_spec h
        rw [hport]
        exact Nat.lt_of_le_of_lt hcovers.2 (legal_of_resolveWith h hregister hf).inside
      · rw [Field.getLsbD_bitmask (hisolated.inWord f hf)]
        exact decide_eq_true hcovers
  · intro d' hreorders
    obtain ⟨resolved', hresolved', hregisters⟩ := hreorders.exists_resolveWith h
    refine ⟨resolved', hresolved', ?_⟩
    apply hregisters.imp
    intro register register' hregister
    exact ⟨hregister, hregister.resetValue_eq⟩

/-- An unsigned field of eight bits. -/
def levelDefault : FieldDecl where
  name := "level"
  bits := ⟨7, 0⟩
  datatype := .unsigned .bits8
  default := 200

/-- A signed field of the four bits above `levelDefault`. -/
def trimDefault : FieldDecl where
  name := "trim"
  bits := ⟨11, 8⟩
  datatype := .signed .bits8
  default := -3

/-- A register that one signed field fills, and a register of the given fields. -/
def withDefaults (fields : List FieldDecl) : RegisterSetDecl where
  name := "regs"
  portSize := 64
  registers := [
    { name := "counter"
      kind := .writeRead
      fields := [{ name := "count", bits := ⟨63, 0⟩, datatype := .signed .bits64, default := -1 }] },
    { name := "tuning", kind := .writeRead, fields := fields }]

/-- Negative defaults in a whole word and in four bits of one, which is the same in both orders. -/
theorem resolveWith_reset_values_negative :
    (∃ resolved counter tuning count level trim,
      (withDefaults [levelDefault, trimDefault]).resolveWith .lenient = .ok resolved ∧
        resolved.model.registers = [counter, tuning] ∧ counter.fields = [count] ∧
          tuning.fields = [level, trim] ∧ count.decode counter.resetValue = -1 ∧
            trim.decode tuning.resetValue = -3 ∧ level.decode tuning.resetValue = 200) ∧
    ∃ resolved, (withDefaults [trimDefault, levelDefault]).resolveWith .lenient = .ok resolved ∧
      resolved.model.registers.map Register.resetValue = [BitVec.allOnes 64, 0xdc8] := by
  have hvalues := resolveWith_reset_values .lenient (withDefaults [levelDefault, trimDefault]) _ rfl
  constructor
  · refine ⟨_, _, _, _, _, _, rfl, rfl, rfl, rfl, ?_, ?_, ?_⟩
    · exact (hvalues.1 _ List.mem_cons_self).1 _ List.mem_cons_self
    · exact (hvalues.1 _ (List.mem_cons_of_mem _ List.mem_cons_self)).1 _
        (List.mem_cons_of_mem _ List.mem_cons_self)
    · exact (hvalues.1 _ (List.mem_cons_of_mem _ List.mem_cons_self)).1 _ List.mem_cons_self
  · have hswapped : (withDefaults [levelDefault, trimDefault]).Reorders
        (withDefaults [trimDefault, levelDefault]) :=
      ⟨_, .cons ⟨_, List.Perm.refl _, rfl⟩ (.cons ⟨_, List.Perm.swap _ _ _, rfl⟩ .nil), rfl⟩
    obtain ⟨resolved, hresolved, hregisters⟩ := hvalues.2 _ hswapped
    refine ⟨resolved, hresolved, ?_⟩
    rw [map_eq_map_of_forall₂ (hregisters.imp fun _ _ hregister => hregister.2)]
    decide

end RegisterSetDecl

end BusMap
