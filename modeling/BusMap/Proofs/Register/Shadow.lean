import BusMap.Proofs.Register.Acceptance

/-!
# Shadow copies

Software keeps a shadow copy of a register when its fields ask for shadow accesses. Whether it does is
read off the declared functions (`Register.needsShadowRead`, `Register.needsShadowWrite`), while the
accessors come from planning them. In an accepted set the two agree (`Register.ShadowAgrees`): a
register that cannot serve a shadow access has denied it, and planning leaves out only the shadow read
of a field without a hardware read.

What the set can do with all of its shadow copies follows (`RegisterSetDecl.resolveWith_shadows`). The
converse fails: `RegisterSetDecl.panel` has a register with a shadow copy for reads of which no field
has such an accessor.
-/

set_option autoImplicit false

namespace BusMap

/-! ## Rules -/

namespace RegisterKind

variable {k : RegisterKind}

/-- A register of strobed bits serves strobes only. -/
theorem mem_kinds_iff_of_isStrobed (h : k.isStrobed = true) {function : AccessFunction} :
    k ∈ function.kinds ↔ function = .strobe := by
  cases k with
  | strobe | handshake => cases function <;> decide
  | write | read | writeRead | readEvent => cases h

theorem isStrobed_eq_false_of_mem_kinds {function : AccessFunction} (h : k ∈ function.kinds)
    (hne : function ≠ .strobe) : k.isStrobed = false := by
  rw [← Bool.not_eq_true]
  intro hstrobed
  exact hne ((mem_kinds_iff_of_isStrobed hstrobed).1 h)

/-- Registers whose word can be fetched serve shadow reads. -/
theorem mem_kinds_readShadow_iff : k ∈ AccessFunction.readShadow.kinds ↔ k.canRead = true := by
  cases k <;> decide

end RegisterKind

/-! ## Registers -/

namespace Register

variable {r : Register} {f : Field}

theorem requests_eq_true_iff {function : AccessFunction} :
    r.requests function = true ↔ ∃ f ∈ r.fields, function ∈ f.decl.functions := List.any_eq_true

theorem needsShadowRead_eq_true_iff :
    r.needsShadowRead = true ↔
      r.kind.isStrobed = false ∧ ∃ f ∈ r.fields, .readShadow ∈ f.decl.functions := by
  rw [needsShadowRead, Bool.and_eq_true, Bool.not_eq_true', requests_eq_true_iff]

theorem needsShadowWrite_eq_true_iff :
    r.needsShadowWrite = true ↔
      r.kind.isStrobed = false ∧ ∃ f ∈ r.fields, .writeShadow ∈ f.decl.functions := by
  rw [needsShadowWrite, Bool.and_eq_true, Bool.not_eq_true', requests_eq_true_iff]

/-- The register serves what its fields want, and these have an accessor for each such function. -/
structure IsPlanned (r : Register) : Prop where
  serves : ∀ f ∈ r.fields, ∀ function, f.decl.Wants function → r.kind ∈ function.kinds
  accessors : ∀ f ∈ r.fields, f.accessors = f.decl.planned.map (f.decl.accessor r.kind)

/-- The shadow copy of a register is the one that its accessors need. -/
structure ShadowAgrees (r : Register) : Prop where
  needsShadowWrite_iff : r.needsShadowWrite = true ↔ ∃ f ∈ r.fields, .writeShadow ∈ f.accessors
  read_of_readShadow : ∀ f ∈ r.fields, .readShadow ∈ f.accessors → .read ∈ f.accessors
  needsShadowRead_of_readShadow :
    ∀ f ∈ r.fields, .readShadow ∈ f.accessors → r.needsShadowRead = true
  canRead_of_readShadow : ∀ f ∈ r.fields, .readShadow ∈ f.accessors →
    r.kind.isReadable = true ∨ r.kind.isEvent = true
  not_needsShadow_of_isStrobed : r.kind.isStrobed = true →
    r.needsShadowRead = false ∧ r.needsShadowWrite = false
  strobe_of_isStrobed : r.kind.isStrobed = true → ∀ f ∈ r.fields, ∀ accessor ∈ f.accessors,
    ∃ handshake, accessor = .strobe handshake

namespace IsPlanned

theorem accessor_mem_iff (h : r.IsPlanned) (hf : f ∈ r.fields) (function : AccessFunction) :
    f.decl.accessor r.kind function ∈ f.accessors ↔ f.decl.Wants function := by
  rw [h.accessors f hf]
  exact FieldDecl.accessor_mem_accessors_iff

/-- Only a register that serves a function has its accessor. -/
theorem mem_kinds (h : r.IsPlanned) (hf : f ∈ r.fields) {accessor : Accessor}
    (hmem : accessor ∈ f.accessors) : r.kind ∈ accessor.function.kinds := by
  rw [h.accessors f hf, FieldDecl.mem_accessors_iff] at hmem
  exact h.serves f hf _ hmem.1

theorem writeShadow_mem_iff (h : r.IsPlanned) (hf : f ∈ r.fields) :
    .writeShadow ∈ f.accessors ↔ .writeShadow ∈ f.decl.functions :=
  (h.accessor_mem_iff hf .writeShadow).trans (FieldDecl.wants_iff_of_ne (by decide))

/-- A shadow read comes with the hardware read that fills the copy. -/
theorem readShadow_mem_iff (h : r.IsPlanned) (hf : f ∈ r.fields) :
    .readShadow ∈ f.accessors ↔ .readShadow ∈ f.decl.functions ∧ .read ∈ f.accessors := by
  have hread : .read ∈ f.accessors ↔ .read ∈ f.decl.functions :=
    (h.accessor_mem_iff hf .read).trans (FieldDecl.wants_iff_of_ne (by decide))
  rw [hread]
  refine (h.accessor_mem_iff hf .readShadow).trans (and_congr_right fun _ => ?_)
  exact forall_prop_of_true rfl

/-- A register with a shadow accessor is not strobed. -/
theorem isStrobed_eq_false (h : r.IsPlanned) (hf : f ∈ r.fields) {accessor : Accessor}
    (hmem : accessor ∈ f.accessors) (hne : accessor.function ≠ .strobe) :
    r.kind.isStrobed = false :=
  RegisterKind.isStrobed_eq_false_of_mem_kinds (h.mem_kinds hf hmem) hne

theorem shadowAgrees (h : r.IsPlanned) : r.ShadowAgrees where
  needsShadowWrite_iff := by
    rw [needsShadowWrite_eq_true_iff]
    constructor
    · rintro ⟨-, f, hf, hrequests⟩
      exact ⟨f, hf, (h.writeShadow_mem_iff hf).2 hrequests⟩
    · rintro ⟨f, hf, hmem⟩
      exact ⟨h.isStrobed_eq_false hf hmem (by decide), f, hf, (h.writeShadow_mem_iff hf).1 hmem⟩
  read_of_readShadow := fun f hf hmem => ((h.readShadow_mem_iff hf).1 hmem).2
  needsShadowRead_of_readShadow := by
    intro f hf hmem
    rw [needsShadowRead_eq_true_iff]
    exact ⟨h.isStrobed_eq_false hf hmem (by decide), f, hf, ((h.readShadow_mem_iff hf).1 hmem).1⟩
  canRead_of_readShadow := by
    intro f hf hmem
    have hcanRead := RegisterKind.mem_kinds_readShadow_iff.1 (h.mem_kinds hf hmem)
    exact Bool.or_eq_true_iff.1 hcanRead
  not_needsShadow_of_isStrobed := by
    intro hstrobed
    rw [needsShadowRead, needsShadowWrite, hstrobed]
    exact ⟨rfl, rfl⟩
  strobe_of_isStrobed := by
    intro hstrobed f hf accessor hmem
    have hfunction := (RegisterKind.mem_kinds_iff_of_isStrobed hstrobed).1 (h.mem_kinds hf hmem)
    cases accessor with
    | strobe handshake => exact ⟨handshake, rfl⟩
    | read | readShadow | overwrite | writeMasked | readModifyWrite | writeShadow => cases hfunction

end IsPlanned

/-- A register has a shadow copy for every shadow accessor of its fields. -/
theorem ShadowAgrees.hasShadow (h : r.ShadowAgrees) (hf : f ∈ r.fields)
    (hmem : .readShadow ∈ f.accessors ∨ .writeShadow ∈ f.accessors) : r.hasShadow = true := by
  rw [Register.hasShadow, Bool.or_eq_true]
  rcases hmem with hread | hwrite
  · exact Or.inl (h.needsShadowRead_of_readShadow f hf hread)
  · exact Or.inr (h.needsShadowWrite_iff.2 ⟨f, hf, hwrite⟩)

end Register

/-! ## Register sets -/

namespace RegisterSetDecl

variable {policy : Policy} {d : RegisterSetDecl} {resolved : Resolved RegisterSet}

/-- The registers of an accepted set serve what their fields want, and are planned. -/
theorem isPlanned_of_resolveWith (h : d.resolveWith policy = .ok resolved) {register : Register}
    (hmem : register ∈ resolved.model.registers) : register.IsPlanned := by
  obtain ⟨-, hserved, -⟩ := outcome_resolve_eq_ok_iff.1 (resolveWith_eq_ok_iff.1 h).1
  obtain ⟨r, hr, address, rfl⟩ := exists_resolved_of_mem h hmem
  constructor
  case serves =>
    intro f hf
    obtain ⟨f, hf', rfl⟩ := List.mem_map.1 hf
    exact hserved r hr f hf'
  case accessors =>
    intro f hf
    obtain ⟨f, -, rfl⟩ := List.mem_map.1 hf
    rfl

/-- **Shadow copies are what the accessors need.** In every register of an accepted set, the shadow copy
agrees with the accessors of the fields: it is written exactly when a field has an accessor that does,
a field that is read from it is also read from hardware, and a register of strobed bits has none and
only strobes. The set can therefore flush its shadow copies when any field has a shadow accessor, and
load them when any field is read from one. -/
theorem resolveWith_shadows (policy : Policy) (d : RegisterSetDecl) (resolved : Resolved RegisterSet)
    (h : d.resolveWith policy = .ok resolved) :
    let s := resolved.model
    (∀ register ∈ s.registers, register.ShadowAgrees) ∧
      (∀ register ∈ s.registers, ∀ f ∈ register.fields,
        .readShadow ∈ f.accessors ∨ .writeShadow ∈ f.accessors → s.canFlushShadowAll = true) ∧
      ∀ register ∈ s.registers, ∀ f ∈ register.fields,
        .readShadow ∈ f.accessors → s.canLoadShadowAll = true := by
  intro s
  have hagrees : ∀ register ∈ s.registers, register.ShadowAgrees := fun register hmem =>
    (isPlanned_of_resolveWith h hmem).shadowAgrees
  refine ⟨hagrees, ?_, ?_⟩
  · intro register hregister f hf hmem
    exact List.any_eq_true.2 ⟨register, hregister, (hagrees register hregister).hasShadow hf hmem⟩
  · intro register hregister f hf hmem
    have hshadow := (hagrees register hregister).hasShadow hf (Or.inl hmem)
    have hcanRead : register.kind.canRead = true :=
      Bool.or_eq_true_iff.2 ((hagrees register hregister).canRead_of_readShadow f hf hmem)
    refine List.any_eq_true.2 ⟨register, hregister, ?_⟩
    rw [hshadow, hcanRead]
    rfl

/-- Registers of three kinds. The first field repeats what was written and is not read from hardware, the
second one is, and the third one asks for a shadow copy that its register does not keep. -/
def panel : RegisterSetDecl where
  name := "panel"
  portSize := 32
  registers := [
    { name := "mode", kind := .write, fields := [
      { name := "mode", bits := ⟨2, 0⟩, datatype := .unsigned .bits8,
        functions := .ofList [.readShadow, .writeShadow] }] },
    { name := "events", kind := .readEvent, fields := [
      { name := "pressed", bits := .bit 0, datatype := .boolean,
        functions := .ofList [.read, .readShadow] }] },
    { name := "start", kind := .handshake, fields := [
      { name := "go", bits := .bit 0, datatype := .strobe,
        functions := .ofList [.strobe, .readShadow] }] }]

/-- The first two registers have shadow copies, of which the second one can be loaded. -/
theorem resolveWith_shadows_panel :
    ∃ resolved, panel.resolveWith .lenient = .ok resolved ∧
      (∀ register ∈ resolved.model.registers, register.ShadowAgrees) ∧
      resolved.model.registers.map (fun r => (r.needsShadowRead, r.needsShadowWrite)) =
        [(true, true), (true, false), (false, false)] ∧
      resolved.model.registers.map (fun r => r.fields.map (·.accessors)) =
        [[[.writeShadow]], [[.read, .readShadow]], [[.strobe true]]] ∧
      resolved.model.canFlushShadowAll = true ∧ resolved.model.canLoadShadowAll = true := by
  refine ⟨_, rfl, ?_⟩
  obtain ⟨hagrees, hflush, hload⟩ := resolveWith_shadows .lenient panel _ rfl
  refine ⟨hagrees, rfl, rfl, ?_, ?_⟩
  · exact hflush _ List.mem_cons_self _ List.mem_cons_self (Or.inr List.mem_cons_self)
  · exact hload _ (List.mem_cons_of_mem _ List.mem_cons_self) _ List.mem_cons_self
      (List.mem_cons_of_mem _ List.mem_cons_self)

end RegisterSetDecl

end BusMap
