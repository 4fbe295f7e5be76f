import BusMap.Proofs.Register.Planning

/-!
# Which registers serve which functions

Each access function is served by registers of some kinds (`AccessFunction.kinds`). A field is denied
each function that it wants and that its register does not serve. `RegisterSetDecl.denials` lists the
denials of a set: register after register, field after field, and for one field in planning order.

The registers of a set are planned exactly when nothing is denied, and the first denial is the error
otherwise (`RegisterSetDecl.outcome_resolveRegisters`). A planned field has one accessor for each
function that it wants, in planning order (`FieldDecl.planned_isServedBy`).

Planning a legal set never faults (`RegisterSetDecl.neverFaults_resolveRegisters`).
-/

set_option autoImplicit false

namespace BusMap

/-! ## Rules -/

namespace AccessFunction

/-- Kinds of registers that serve the function. -/
def kinds : AccessFunction → List RegisterKind
  | read | readShadow => [.read, .writeRead, .readEvent]
  | overwrite | writeMasked | writeShadow => [.write, .writeRead]
  | readModifyWrite => [.writeRead]
  | strobe => [.strobe, .handshake]

/-- What a register of kind `k` is said to lack when it does not serve the function. -/
def capability (k : RegisterKind) : AccessFunction → Capability
  | read | readShadow => .read
  | overwrite | writeShadow => .write
  | writeMasked => .unstrobedWrite
  | readModifyWrite => if k = .readEvent then .nonEvent else .readWrite
  | strobe => .strobe

/-- The denial of the function to the field at a path, if registers of kind `k` do not serve it. -/
def denial? (path : EntityPath) (k : RegisterKind) (function : AccessFunction) : Option Denial :=
  if k ∈ function.kinds then none else some ⟨path, function, function.capability k⟩

theorem denial?_eq_none_iff {path : EntityPath} {k : RegisterKind} {function : AccessFunction} :
    function.denial? path k = none ↔ k ∈ function.kinds := by
  rw [denial?]
  by_cases hserved : k ∈ function.kinds
  · simp [hserved]
  · simp [hserved]

end AccessFunction

theorem RegisterKind.missing?_eq (k : RegisterKind) (function : AccessFunction) :
    k.missing? function = if k ∈ function.kinds then none else some (function.capability k) := by
  cases k <;> cases function <;> rfl

/-! ## Fields -/

namespace FieldDecl

variable {f : FieldDecl} {path : EntityPath} {k : RegisterKind} {others : List FieldDecl}

/-- Denials of the functions that the field wants, in planning order. -/
def denials (f : FieldDecl) (path : EntityPath) (k : RegisterKind) : List Denial :=
  (AccessFunction.planningOrder.filter fun function => f.Wants function).filterMap
    (AccessFunction.denial? path k)

theorem denials_eq_nil_iff :
    f.denials path k = [] ↔ ∀ function, f.Wants function → k ∈ function.kinds := by
  rw [denials, ← planned_eq, List.filterMap_eq_nil_iff]
  simp only [mem_planned_iff, AccessFunction.denial?_eq_none_iff]

/-- The accessors serve what the field wants, with its lanes, its merge and its handshake. -/
structure IsServedBy (f : FieldDecl) (k : RegisterKind) (accessors : List Accessor) : Prop where
  functions : accessors.map Accessor.function =
    AccessFunction.planningOrder.filter fun function => f.Wants function
  lane_mask : ∀ mask, .writeMasked mask ∈ accessors → mask = f.bits.laneMask
  merge : ∀ merge, .readModifyWrite merge ∈ accessors →
    (merge = .setBit ↔ f.datatype = .boolean)
  handshake : ∀ handshake, .strobe handshake ∈ accessors →
    (handshake = true ↔ k = .handshake)

theorem planned_isServedBy (f : FieldDecl) (k : RegisterKind) :
    f.IsServedBy k (f.planned.map (f.accessor k)) := by
  constructor
  case functions =>
    rw [List.map_map, ← planned_eq]
    exact List.map_id'' function_accessor _
  case lane_mask =>
    intro mask hmem
    exact Accessor.writeMasked.inj (mem_accessors_iff.1 hmem).2
  case merge =>
    intro merge hmem
    have hmerge : merge = f.merge := Accessor.readModifyWrite.inj (mem_accessors_iff.1 hmem).2
    rw [hmerge, FieldDecl.merge]
    by_cases hboolean : f.datatype = .boolean <;> simp [hboolean]
  case handshake =>
    intro handshake hmem
    have hhandshake : handshake = k.isHandshake := Accessor.strobe.inj (mem_accessors_iff.1 hmem).2
    rw [hhandshake]
    cases k <;> simp [RegisterKind.isHandshake]

/-- A function is planned, or it is denied. -/
theorem outcome_planFunction (h : ∀ g ∈ f :: others, g.bits.hi < 64) (function : AccessFunction) :
    (f.planFunction path k others function).outcome =
      firstError ((function.denial? path k).map Failure.access).toList (f.accessor k function) := by
  rw [planFunction, k.missing?_eq, AccessFunction.denial?]
  by_cases hserved : k ∈ function.kinds
  · rw [if_pos hserved, if_pos hserved]
    dsimp only
    rw [f.checkLanes_of_lt h]
    -- A warning is no failure, so both ways of going on end with the accessor.
    cases f.hazard? path others function with
    | none => rfl
    | some w => rfl
  · rw [if_neg hserved, if_neg hserved]
    rfl

theorem outcome_plan (h : ∀ g ∈ f :: others, g.bits.hi < 64) :
    (f.plan path k others).outcome =
      firstError ((f.denials path k).map Failure.access) (f.planned.map (f.accessor k)) := by
  rw [plan, Diagnosed.outcome_mapM, mapM_firstError fun function _ => outcome_planFunction h function,
    denials, ← planned_eq, List.map_filterMap, List.filterMap_eq_flatMap_toList]

end FieldDecl

/-! ## Registers -/

namespace RegisterDecl

variable {r : RegisterDecl} {path : EntityPath}

/-- Denials of all fields of the register. -/
def denials (r : RegisterDecl) (path : EntityPath) : List Denial :=
  r.fields.flatMap fun f => f.denials (path.child f.name) r.kind

/-- The resolved register is of the declared kind, and its accessors serve the declared fields. -/
def IsServedBy (r : RegisterDecl) (register : Register) : Prop :=
  register.kind = r.kind ∧
    List.Forall₂ (fun f field => field.decl = f ∧ f.IsServedBy r.kind field.accessors)
      r.fields register.fields

theorem resolved_isServedBy (r : RegisterDecl) (path : EntityPath) (address : RegisterAddress) :
    r.IsServedBy (r.resolved path address) := by
  refine ⟨rfl, ?_⟩
  rw [resolved, List.forall₂_map_right_iff, List.forall₂_same]
  intro f _
  exact ⟨rfl, f.planned_isServedBy r.kind⟩

theorem outcome_resolveField (h : ∀ f ∈ r.fields, f.bits.hi < 64) {f : FieldDecl} {i : Nat}
    (hentry : (f, i) ∈ r.fields.zipIdx) :
    (r.resolveField path f i).outcome =
      firstError ((f.denials (path.child f.name) r.kind).map Failure.access)
        (f.resolved (path.child f.name) r.kind) := by
  have hothers : ∀ g ∈ f :: r.fields.eraseIdx i, g.bits.hi < 64 := by
    intro g hg
    rcases List.mem_cons.1 hg with rfl | hg
    · exact h _ (List.fst_mem_of_mem_zipIdx hentry)
    · exact h g (List.mem_of_mem_eraseIdx hg)
  rw [resolveField, Diagnosed.outcome_bind, FieldDecl.outcome_plan hothers]
  exact firstError_bind_ok _ _ _

theorem outcome_resolve (h : ∀ f ∈ r.fields, f.bits.hi < 64) (address : RegisterAddress) :
    (r.resolve path address).outcome =
      firstError ((r.denials path).map Failure.access) (r.resolved path address) := by
  have hfields : (r.fields.zipIdx.mapM fun (f, i) => r.resolveField path f i).outcome =
      firstError ((r.denials path).map Failure.access)
        (r.fields.map fun f => f.resolved (path.child f.name) r.kind) := by
    rw [Diagnosed.outcome_mapM, mapM_firstError fun entry hentry => outcome_resolveField h hentry,
      denials, List.map_flatMap]
    -- The position of a field has no part in what is denied to it.
    conv_rhs => rw [← List.zipIdx_map_fst 0 r.fields, List.flatMap_map, List.map_map]
    rfl
  rw [resolve, Diagnosed.outcome_bind, hfields]
  exact firstError_bind_ok _ _ _

end RegisterDecl

/-! ## Register sets -/

namespace RegisterSetDecl

variable {d : RegisterSetDecl} {addresses : List RegisterAddress}

/-- Denials of all registers of the set. -/
def denials (d : RegisterSetDecl) : List Denial :=
  d.registers.flatMap fun r => r.denials (d.registerPath r)

/-- Every register serves the functions that its fields want. -/
def Served (d : RegisterSetDecl) : Prop :=
  ∀ r ∈ d.registers, ∀ f ∈ r.fields, ∀ function, f.Wants function → r.kind ∈ function.kinds

theorem denials_eq_nil_iff : d.denials = [] ↔ d.Served := by
  simp only [denials, RegisterDecl.denials, List.flatMap_eq_nil_iff, FieldDecl.denials_eq_nil_iff,
    Served]

instance (d : RegisterSetDecl) : Decidable d.Served :=
  decidable_of_iff _ denials_eq_nil_iff

/-- Registers with addresses are planned, or the first denial of the set is the error. -/
theorem outcome_resolveRegisters (hcheck : d.check = .ok ()) (haddresses : d.addresses = .ok addresses) :
    (d.resolveRegisters addresses).outcome =
      firstError (d.denials.map Failure.access)
        ((d.registers.zip addresses).map fun (r, address) =>
          r.resolved (d.registerPath r) address) := by
  have hentry : ∀ entry ∈ d.registers.zip addresses,
      (entry.1.resolve (d.registerPath entry.1) entry.2).outcome =
        firstError ((entry.1.denials (d.registerPath entry.1)).map Failure.access)
          (entry.1.resolved (d.registerPath entry.1) entry.2) := by
    intro entry hmem
    have hword := inside_word_of_check hcheck (List.of_mem_zip hmem).1
    exact RegisterDecl.outcome_resolve (fun f hf => (hword f hf).2) _
  have hfst : (d.registers.zip addresses).map Prod.fst = d.registers :=
    List.map_fst_zip (Nat.le_of_eq (length_of_addresses haddresses).symm)
  rw [resolveRegisters, Diagnosed.outcome_mapM, mapM_firstError hentry, denials, List.map_flatMap]
  -- Addresses have no part in what is denied, and no register is without one.
  congr 1
  conv_rhs => rw [← hfst, List.flatMap_map]

/-- Planning a legal register set ends with its registers or with a denied function. -/
theorem neverFaults_resolveRegisters (h : d.check = .ok ()) (addresses : List RegisterAddress) :
    NeverFaults (d.resolveRegisters addresses).outcome := by
  rw [resolveRegisters, Diagnosed.outcome_mapM]
  apply NeverFaults.mapM
  rintro ⟨r, address⟩ hentry
  intro cause hfault
  have hword := inside_word_of_check h (List.of_mem_zip hentry).1
  dsimp only at hfault
  rw [RegisterDecl.outcome_resolve fun f hf => (hword f hf).2, firstError_eq_error_iff] at hfault
  rcases List.mem_map.1 (List.mem_of_mem_head? hfault) with ⟨denial, -, hdenial⟩
  cases hdenial

end RegisterSetDecl

end BusMap
