import BusMap.Proofs.Naming.Siblings
import BusMap.Proofs.Register.Layout
import BusMap.Proofs.Register.Resolution

/-!
# What planning makes of a register set

Planning turns the functions that a field wants into accessors, or denies one of them. A field wants
what it requests, a shadow read only together with a hardware read (`FieldDecl.Wants`). When no
function is denied, a resolved register has one field for each declared one, with the accessors of
its planned functions in planning order (`RegisterDecl.resolve_planned`), and the warnings of the set
are the hazards of these functions, register after register and field after field
(`RegisterSetDecl.warnings_of_resolveWith`).

Names differ among siblings, so that the path of a field leads to no other field. The warnings about
a path are therefore the hazards of one field (`RegisterSetDecl.mem_warnings_iff_mem_hazards`).
-/

set_option autoImplicit false

namespace BusMap

/-! ## Fields -/

namespace FieldDecl

variable {f : FieldDecl} {path : EntityPath} {k : RegisterKind} {others : List FieldDecl}

/-- The field requests the function, and for a shadow read also a hardware read. -/
def Wants (f : FieldDecl) (function : AccessFunction) : Prop :=
  function ∈ f.functions ∧ (function = .readShadow → .read ∈ f.functions)

instance (f : FieldDecl) (function : AccessFunction) : Decidable (f.Wants function) :=
  inferInstanceAs (Decidable (_ ∧ _))

theorem planned_eq :
    f.planned = AccessFunction.planningOrder.filter fun function => f.Wants function := rfl

theorem mem_planned_iff {function : AccessFunction} : function ∈ f.planned ↔ f.Wants function := by
  have hall : function ∈ AccessFunction.planningOrder := by cases function <;> decide
  rw [planned_eq, List.mem_filter, decide_eq_true_eq, and_iff_right hall]

theorem function_accessor (function : AccessFunction) :
    (f.accessor k function).function = function := by
  cases function <;> rfl

theorem wants_iff_of_ne {function : AccessFunction} (h : function ≠ .readShadow) :
    f.Wants function ↔ function ∈ f.functions :=
  and_iff_left fun heq => absurd heq h

/-- The field has one accessor for each function that it wants. -/
theorem mem_accessors_iff {accessor : Accessor} :
    accessor ∈ f.planned.map (f.accessor k) ↔
      f.Wants accessor.function ∧ accessor = f.accessor k accessor.function := by
  rw [List.mem_map]
  constructor
  · rintro ⟨function, hplanned, rfl⟩
    rw [function_accessor]
    exact ⟨mem_planned_iff.1 hplanned, rfl⟩
  · rintro ⟨hwants, haccessor⟩
    exact ⟨accessor.function, mem_planned_iff.2 hwants, haccessor.symm⟩

/-- The accessor of a function is there exactly when the field wants the function. -/
theorem accessor_mem_accessors_iff {function : AccessFunction} :
    f.accessor k function ∈ f.planned.map (f.accessor k) ↔ f.Wants function := by
  rw [mem_accessors_iff, function_accessor]
  exact and_iff_left rfl

/-- The field with an accessor for each of its planned functions. -/
def resolved (f : FieldDecl) (path : EntityPath) (k : RegisterKind) : Field :=
  ⟨path, f, f.planned.map (f.accessor k)⟩

/-- Likely side effects of the planned functions. -/
def hazards (f : FieldDecl) (path : EntityPath) (others : List FieldDecl) : List Warning :=
  f.planned.filterMap (f.hazard? path others)

/-- A function is planned when the register serves it, and then raises its hazard only. -/
theorem planFunction_spec {function : AccessFunction} {accessor : Accessor}
    (h : (f.planFunction path k others function).outcome = .ok accessor) :
    accessor = f.accessor k function ∧
      (f.planFunction path k others function).warnings =
        (f.hazard? path others function).toList := by
  rw [planFunction] at h ⊢
  split at h
  · cases h
  · rw [Diagnosed.outcome_bind, Diagnosed.outcome_ofExcept, then_eq_ok_iff] at h
    obtain ⟨hlanes, h⟩ := h
    rw [Diagnosed.warnings_bind hlanes]
    -- The hazard decides between a warning and nothing, and both go on to the accessor.
    cases hhazard : f.hazard? path others function with
    | none =>
      rw [hhazard] at h
      cases h
      exact ⟨rfl, rfl⟩
    | some w =>
      rw [hhazard] at h
      cases h
      exact ⟨rfl, rfl⟩

theorem plan_spec {accessors : List Accessor}
    (h : (f.plan path k others).outcome = .ok accessors) :
    accessors = f.planned.map (f.accessor k) ∧
      (f.plan path k others).warnings = f.hazards path others := by
  rw [hazards, List.filterMap_eq_flatMap_toList]
  exact Diagnosed.mapM_spec (fun _ _ _ => planFunction_spec) h

/-- A hazard of a field is about the field. -/
theorem path_of_mem_hazards {w : Warning} (h : w ∈ f.hazards path others) : w.path = path := by
  obtain ⟨function, -, hhazard⟩ := List.mem_filterMap.1 h
  exact path_of_hazard? hhazard

end FieldDecl

/-! ## Registers -/

namespace RegisterDecl

variable {r : RegisterDecl} {path : EntityPath} {address : RegisterAddress} {register : Register}

/-- Likely side effects of all fields of the register. -/
def hazards (r : RegisterDecl) (path : EntityPath) : List Warning :=
  r.fields.zipIdx.flatMap fun (f, i) => f.hazards (path.child f.name) (r.fields.eraseIdx i)

theorem mem_hazards_iff {w : Warning} :
    w ∈ r.hazards path ↔ ∃ (f : FieldDecl) (i : Nat), r.fields[i]? = some f ∧
      w ∈ f.hazards (path.child f.name) (r.fields.eraseIdx i) := by
  simp only [hazards, List.mem_flatMap, Prod.exists, List.mk_mem_zipIdx_iff_getElem?]

theorem resolveField_spec {f : FieldDecl} {i : Nat} {field : Field}
    (h : (r.resolveField path f i).outcome = .ok field) :
    field = f.resolved (path.child f.name) r.kind ∧
      (r.resolveField path f i).warnings =
        f.hazards (path.child f.name) (r.fields.eraseIdx i) := by
  rw [resolveField, Diagnosed.outcome_bind, bind_eq_ok_iff] at h
  obtain ⟨accessors, hplan, h⟩ := h
  cases h
  obtain ⟨rfl, hwarnings⟩ := FieldDecl.plan_spec hplan
  refine ⟨rfl, ?_⟩
  rw [resolveField, Diagnosed.warnings_bind hplan, hwarnings]
  exact List.append_nil _

/-- The register at an address, with all its fields. -/
def resolved (r : RegisterDecl) (path : EntityPath) (address : RegisterAddress) : Register where
  path := path
  name := r.name
  description := r.description
  comment := r.comment
  kind := r.kind
  writeEvent := r.writeEvent
  requested := r.address
  address := address
  fields := r.fields.map fun f => f.resolved (path.child f.name) r.kind

theorem resolve_planned (h : (r.resolve path address).outcome = .ok register) :
    register = r.resolved path address ∧ (r.resolve path address).warnings = r.hazards path := by
  rw [resolve, Diagnosed.outcome_bind, bind_eq_ok_iff] at h
  obtain ⟨fields, hfields, h⟩ := h
  cases h
  obtain ⟨hdecls, hwarnings⟩ := Diagnosed.mapM_spec (fun _ _ _ => resolveField_spec) hfields
  refine ⟨?_, ?_⟩
  · have hmap : fields = r.fields.zipIdx.map
        ((fun f => f.resolved (path.child f.name) r.kind) ∘ Prod.fst) := hdecls
    rw [resolved, hmap, ← List.map_map, List.zipIdx_map_fst]
  · rw [resolve, Diagnosed.warnings_bind hfields, hwarnings]
    exact List.append_nil _

end RegisterDecl

/-! ## Register sets -/

namespace RegisterSetDecl

variable {policy : Policy} {d : RegisterSetDecl} {resolved : Resolved RegisterSet}

theorem length_of_addresses {addresses : List RegisterAddress} (h : d.addresses = .ok addresses) :
    addresses.length = d.registers.length := by
  obtain ⟨ranges, hranges, -⟩ := bind_eq_ok_iff.1 h
  obtain ⟨-, rfl⟩ := (addresses_eq_ok_iff hranges).1 h
  obtain ⟨marks, hpasses⟩ := exists_twoPass_of_ranges hranges
  rw [List.length_map, hpasses.length_eq, requests, List.length_map]

/-- The registers of a set are the declared ones at their addresses, with the hazards of all of them
in order. -/
theorem resolveRegisters_planned {addresses : List RegisterAddress} {registers : List Register}
    (haddresses : addresses.length = d.registers.length)
    (h : (d.resolveRegisters addresses).outcome = .ok registers) :
    registers =
        (d.registers.zip addresses).map (fun (r, address) => r.resolved (d.registerPath r) address) ∧
      (d.resolveRegisters addresses).warnings =
        d.registers.flatMap fun r => r.hazards (d.registerPath r) := by
  obtain ⟨hregisters, hwarnings⟩ :=
    Diagnosed.mapM_spec (fun _ _ _ => RegisterDecl.resolve_planned) h
  refine ⟨hregisters, hwarnings.trans ?_⟩
  -- Addresses have no part in the hazards, and no register is without one.
  have hfst : (d.registers.zip addresses).map Prod.fst = d.registers :=
    List.map_fst_zip (Nat.le_of_eq haddresses.symm)
  conv_rhs => rw [← hfst, List.flatMap_map]

/-- The warnings of an accepted register set are the hazards of its registers in their order. -/
theorem warnings_of_resolveWith (h : d.resolveWith policy = .ok resolved) :
    resolved.warnings = d.registers.flatMap fun r => r.hazards (d.registerPath r) := by
  obtain ⟨hcheck, addresses, haddresses, hregisters, hsize, -⟩ := resolveWith_spec h
  obtain ⟨-, hwarnings, -⟩ := Diagnosed.enforce_eq_ok_iff.1 h
  obtain ⟨-, hhazards⟩ := resolveRegisters_planned (length_of_addresses haddresses) hregisters
  have hchecked : (Diagnosed.ofExcept d.check).outcome = .ok () := hcheck
  have haddressed : (Diagnosed.ofExcept d.addresses).outcome = .ok addresses := haddresses
  have hsized : (Diagnosed.ofExcept ((BusMap.addressSize d.portSize addresses).mapError
      Failure.fault)).outcome = .ok resolved.model.addressSize := by
    rw [Diagnosed.outcome_ofExcept, hsize, mapError_ok]
  rw [hwarnings, resolve, Diagnosed.warnings_bind hchecked, Diagnosed.warnings_bind haddressed,
    Diagnosed.warnings_bind hregisters, Diagnosed.warnings_bind hsized, hhazards]
  simp [Diagnosed.ofExcept, pure, Diagnosed.pure]

/-- Every register of an accepted register set is a declared one with its planned fields. -/
theorem exists_resolved_of_mem (h : d.resolveWith policy = .ok resolved) {register : Register}
    (hmem : register ∈ resolved.model.registers) :
    ∃ r ∈ d.registers, ∃ address, register = r.resolved (d.registerPath r) address := by
  obtain ⟨-, addresses, haddresses, hregisters, -⟩ := resolveWith_spec h
  obtain ⟨hplanned, -⟩ := resolveRegisters_planned (length_of_addresses haddresses) hregisters
  rw [hplanned] at hmem
  obtain ⟨⟨r, address⟩, hentry, rfl⟩ := List.mem_map.1 hmem
  exact ⟨r, (List.of_mem_zip hentry).1, address, rfl⟩

/-- The registers of an accepted register set are the declared ones, each at the start of its
range. -/
theorem exists_ranges_of_resolveWith (h : d.resolveWith policy = .ok resolved) :
    ∃ ranges, d.ranges = .ok ranges ∧ ranges.length = d.registers.length ∧
      resolved.model.registers = (d.registers.zip ranges).map fun (r, range) =>
        r.resolved (d.registerPath r) ⟨range.first, d.base + range.first⟩ := by
  obtain ⟨-, addresses, haddresses, hregisters, -⟩ := resolveWith_spec h
  obtain ⟨hplanned, -⟩ := resolveRegisters_planned (length_of_addresses haddresses) hregisters
  obtain ⟨ranges, hranges, -⟩ := bind_eq_ok_iff.1 haddresses
  have hlength := length_of_addresses haddresses
  obtain ⟨-, rfl⟩ := (addresses_eq_ok_iff hranges).1 haddresses
  refine ⟨ranges, hranges, by rwa [List.length_map] at hlength, ?_⟩
  rw [hplanned, List.zip_map_right, List.map_map]
  rfl

/-- The registers of an accepted register set are the declared ones in their order, with their planned
fields. -/
theorem forall₂_resolved_of_resolveWith (h : d.resolveWith policy = .ok resolved) :
    List.Forall₂ (fun (r : RegisterDecl) (register : Register) =>
        ∃ address, register = r.resolved (d.registerPath r) address)
      d.registers resolved.model.registers := by
  obtain ⟨ranges, -, hlength, hregisters⟩ := exists_ranges_of_resolveWith h
  have hfst : (d.registers.zip ranges).map Prod.fst = d.registers :=
    List.map_fst_zip (Nat.le_of_eq hlength.symm)
  rw [hregisters]
  -- Both lists are maps over the declared registers with their ranges.
  conv_lhs => rw [← hfst]
  rw [List.forall₂_map_left_iff, List.forall₂_map_right_iff, List.forall₂_same]
  rintro ⟨r, range⟩ -
  exact ⟨_, rfl⟩

theorem stride_of_resolveWith (h : d.resolveWith policy = .ok resolved) :
    resolved.model.stride = stride d.portSize := by
  obtain ⟨-, addresses, -, -, -, hportSize, -⟩ := resolveWith_spec h
  rw [RegisterSet.stride, hportSize]

theorem one_le_stride_of_resolveWith (h : d.resolveWith policy = .ok resolved) :
    1 ≤ resolved.model.stride := by
  rw [stride_of_resolveWith h]
  exact stride_pos (isPortSize_of_check (resolveWith_spec h).1)

/-- Every register of an accepted register set is an aligned word that ends below the limit from
offset zero on. -/
theorem word_of_resolveWith (h : d.resolveWith policy = .ok resolved) {register : Register}
    (hmem : register ∈ resolved.model.registers) :
    resolved.model.stride ∣ register.address.relative ∧
      register.address.relative + resolved.model.stride ≤ wordLimit ∧
        register.address.absolute = d.base + register.address.relative := by
  obtain ⟨ranges, hranges, -, hregisters⟩ := exists_ranges_of_resolveWith h
  rw [hregisters] at hmem
  obtain ⟨⟨r, range⟩, hentry, rfl⟩ := List.mem_map.1 hmem
  obtain ⟨haligned, -, hfits, -⟩ := mem_ranges_spec hranges (List.of_mem_zip hentry).2
  rw [shiftLeft_wordAlignmentBits (isPortSize_of_check (resolveWith_spec h).1)] at haligned
  rw [stride_of_resolveWith h]
  exact ⟨haligned, hfits, rfl⟩

/-! ## Names and paths -/

theorem nodup_registerNames (h : d.check = .ok ()) : (d.registers.map (·.name)).Nodup := by
  obtain ⟨-, -, hsiblings, -⟩ := check_eq_ok_iff.1 h
  exact nodup_of_checkSiblings hsiblings

theorem nodup_fieldNames (h : d.check = .ok ()) {r : RegisterDecl} (hr : r ∈ d.registers) :
    (r.fields.map (·.name)).Nodup := by
  obtain ⟨-, hport, -, hregisters⟩ := check_eq_ok_iff.1 h
  exact nodup_of_checkSiblings ((RegisterDecl.check_eq_ok_iff hport.le_word).1 (hregisters r hr)).1

theorem fieldPath_inj {r s : RegisterDecl} {field field' : String} :
    (d.registerPath r).child field = (d.registerPath s).child field' ↔
      r.name = s.name ∧ field = field' := by
  simp [registerPath, path, EntityPath.child, EntityPath.root]

theorem mem_warnings_iff (h : d.resolveWith policy = .ok resolved) {w : Warning} :
    w ∈ resolved.warnings ↔
      ∃ r ∈ d.registers, ∃ (f : FieldDecl) (i : Nat), r.fields[i]? = some f ∧
        w ∈ f.hazards ((d.registerPath r).child f.name) (r.fields.eraseIdx i) := by
  rw [warnings_of_resolveWith h]
  simp only [List.mem_flatMap, RegisterDecl.mem_hazards_iff]

/-- The warnings about the path of a field are the hazards of this field. -/
theorem mem_warnings_iff_mem_hazards (h : d.resolveWith policy = .ok resolved) {r : RegisterDecl}
    (hr : r ∈ d.registers) {f : FieldDecl} {i : Nat} (hf : r.fields[i]? = some f) {w : Warning}
    (hw : w.path = (d.registerPath r).child f.name) :
    w ∈ resolved.warnings ↔
      w ∈ f.hazards ((d.registerPath r).child f.name) (r.fields.eraseIdx i) := by
  have hcheck := (resolveWith_spec h).1
  rw [mem_warnings_iff h]
  constructor
  · rintro ⟨s, hs, g, j, hg, hmem⟩
    obtain ⟨hregister, hfield⟩ := fieldPath_inj.1 (hw.symm.trans (FieldDecl.path_of_mem_hazards hmem))
    obtain rfl := List.inj_on_of_nodup_map (nodup_registerNames hcheck) hr hs hregister
    -- Of the two fields the names are equal, so that they stand at one place.
    have hi : i < (r.fields.map (·.name)).length := by
      rw [List.length_map]
      exact (List.getElem?_eq_some_iff.1 hf).1
    have hnames : (r.fields.map (·.name))[i]? = (r.fields.map (·.name))[j]? := by
      rw [List.getElem?_map, List.getElem?_map, hf, hg, Option.map_some, Option.map_some, hfield]
    obtain rfl := (List.getElem?_inj hi (nodup_fieldNames hcheck hr)).1 hnames
    rw [hf] at hg
    cases hg
    exact hmem
  · intro hmem
    exact ⟨r, hr, f, i, hf, hmem⟩

end RegisterSetDecl

end BusMap
