import BusMap.Proofs.Register.Legality
import BusMap.Register.Resolve

/-!
# What resolution makes of a declaration

A policy accepts a register set only when its declaration is legal and its registers have addresses;
each register of the model is then a declared register at its address, with the same fields in the
same order (`RegisterSetDecl.resolveWith_spec`, `RegisterDecl.resolve_spec`). What the legality
check says of declared fields therefore holds of resolved ones
(`RegisterSetDecl.legal_of_resolveWith`, `RegisterSetDecl.apart_of_resolveWith`).

The byte lanes of a field inside the word are bits of a lane mask (`FieldDecl.checkLanes_of_lt`), so
that the check of the lanes does not stop the planning of a legal set.
-/

set_option autoImplicit false

namespace BusMap

/-! ## Models and their declarations -/

namespace RegisterDecl

variable {r : RegisterDecl} {path : EntityPath} {address : RegisterAddress} {register : Register}

theorem resolveField_decl {f : FieldDecl} {i : Nat} {field : Field}
    (h : (r.resolveField path f i).outcome = .ok field) : field.decl = f := by
  rw [resolveField, Diagnosed.outcome_bind, bind_eq_ok_iff] at h
  obtain ⟨accessors, -, h⟩ := h
  cases h
  rfl

/-- A resolved register has the declared fields in their order, and the address that it was
given. -/
theorem resolve_spec (h : (r.resolve path address).outcome = .ok register) :
    register.fields.map (·.decl) = r.fields ∧ register.address = address ∧
      register.path = path ∧ register.name = r.name ∧ register.kind = r.kind := by
  rw [resolve, Diagnosed.outcome_bind, bind_eq_ok_iff] at h
  obtain ⟨fields, hfields, h⟩ := h
  cases h
  refine ⟨?_, rfl, rfl, rfl, rfl⟩
  -- Field by field the declaration is kept, so the two lists of declarations are one.
  rw [Diagnosed.outcome_mapM, mapM_eq_ok_iff] at hfields
  have hdecls : List.Forall₂ (fun entry field => field.decl = entry.1) r.fields.zipIdx fields :=
    hfields.imp fun _ _ hfield => resolveField_decl hfield
  rw [map_eq_map_of_forall₂ hdecls, List.zipIdx_map_fst]

end RegisterDecl

namespace RegisterSetDecl

variable {policy : Policy} {d : RegisterSetDecl} {resolved : Resolved RegisterSet}

/-- An accepted declaration is legal, has addresses for all its registers and is turned into a model
of these registers. -/
theorem resolveWith_spec (h : d.resolveWith policy = .ok resolved) :
    d.check = .ok () ∧
      ∃ addresses, d.addresses = .ok addresses ∧
        (d.resolveRegisters addresses).outcome = .ok resolved.model.registers ∧
          BusMap.addressSize d.portSize addresses = .ok resolved.model.addressSize ∧
            resolved.model.portSize = d.portSize ∧
              resolved.model.baseAddress = d.baseAddress := by
  obtain ⟨model, warnings⟩ := resolved
  -- A policy only rejects: what it accepts is the outcome without a policy.
  rw [resolveWith, Diagnosed.enforce_eq_ok_iff] at h
  obtain ⟨h, -⟩ := h
  rw [resolve, Diagnosed.outcome_bind, Diagnosed.outcome_ofExcept, then_eq_ok_iff,
    Diagnosed.outcome_bind, Diagnosed.outcome_ofExcept, bind_eq_ok_iff] at h
  obtain ⟨hcheck, addresses, haddresses, h⟩ := h
  rw [Diagnosed.outcome_bind, bind_eq_ok_iff] at h
  obtain ⟨registers, hregisters, h⟩ := h
  rw [Diagnosed.outcome_bind, Diagnosed.outcome_ofExcept, bind_eq_ok_iff] at h
  obtain ⟨addressSize, hsize, h⟩ := h
  rw [Diagnosed.outcome_pure] at h
  cases h
  exact ⟨hcheck, addresses, haddresses, hregisters, mapError_eq_ok_iff.1 hsize, rfl, rfl⟩

/-- Every register of the model is a declared one, at some address. -/
theorem exists_resolve_of_mem {addresses : List RegisterAddress} {registers : List Register}
    (h : (d.resolveRegisters addresses).outcome = .ok registers) {register : Register}
    (hmem : register ∈ registers) :
    ∃ r ∈ d.registers, ∃ address ∈ addresses,
      (r.resolve (d.registerPath r) address).outcome = .ok register := by
  rw [resolveRegisters, Diagnosed.outcome_mapM, mapM_eq_ok_iff] at h
  obtain ⟨⟨r, address⟩, hentry, hresolve⟩ := exists_mem_of_forall₂ h hmem
  obtain ⟨hr, haddress⟩ := List.of_mem_zip hentry
  exact ⟨r, hr, address, haddress, hresolve⟩

/-- Every register of an accepted model has the fields of a declared register. -/
theorem exists_decl_of_resolveWith (h : d.resolveWith policy = .ok resolved) {register : Register}
    (hmem : register ∈ resolved.model.registers) :
    ∃ r ∈ d.registers, register.fields.map (·.decl) = r.fields := by
  obtain ⟨-, addresses, -, hregisters, -⟩ := resolveWith_spec h
  obtain ⟨r, hr, address, -, hresolve⟩ := exists_resolve_of_mem hregisters hmem
  exact ⟨r, hr, (RegisterDecl.resolve_spec hresolve).1⟩

theorem legal_of_resolveWith (h : d.resolveWith policy = .ok resolved) {register : Register}
    (hmem : register ∈ resolved.model.registers) {f : Field} (hf : f ∈ register.fields) :
    f.decl.Legal d.portSize := by
  obtain ⟨r, hr, hfields⟩ := exists_decl_of_resolveWith h hmem
  apply legal_of_check (resolveWith_spec h).1 hr
  rw [← hfields]
  exact List.mem_map_of_mem hf

theorem apart_of_resolveWith (h : d.resolveWith policy = .ok resolved) {register : Register}
    (hmem : register ∈ resolved.model.registers) :
    register.fields.Pairwise fun f g => f.decl.Apart g.decl := by
  obtain ⟨r, hr, hfields⟩ := exists_decl_of_resolveWith h hmem
  have hapart := apart_of_check (resolveWith_spec h).1 hr
  rwa [← hfields, List.pairwise_map] at hapart

end RegisterSetDecl

/-! ## Planning -/

/-- The lanes of ranges inside the word are there. -/
theorem FieldDecl.checkLanes_of_lt {f : FieldDecl} {others : List FieldDecl}
    (h : ∀ g ∈ f :: others, g.bits.hi < 64) (function : AccessFunction) :
    f.checkLanes others function = .ok () := by
  cases function with
  | writeMasked =>
    apply forM_eq_ok_iff.2
    intro g hg
    rw [BitRange.checkedLaneMask_of_lt (h g hg)]
    rfl
  | read | readShadow | overwrite | readModifyWrite | writeShadow | strobe => rfl

end BusMap
