import Mathlib.Data.List.Perm.Basic
import BusMap.Proofs.Register.Acceptance

/-!
# The order of fields

A register set stays what it is when the fields of its registers are declared in another order
(`RegisterSetDecl.Reorders`). It is as legal as before, its registers are at the same addresses and
serve the same functions, and a hazard of a field is one in every order, though it may name the
other fields in another order. A policy that accepts the set thus accepts it in every order, and the
registers differ in the order of their fields only (`RegisterSetDecl.Reorders.exists_resolveWith`).
-/

set_option autoImplicit false

namespace BusMap

theorem SiblingNames.perm {names names' : List String} (h : SiblingNames names)
    (hperm : names.Perm names') : SiblingNames names' where
  usable := by
    intro name hname
    exact h.usable name (hperm.mem_iff.2 hname)
  distinct := (hperm.map _).nodup_iff.1 h.distinct

/-! ## Fields -/

namespace FieldDecl

variable {f : FieldDecl} {path : EntityPath} {others others' : List FieldDecl} {w : Warning}

/-- A function has a hazard of the same class whatever the order of the other fields. -/
theorem exists_hazard?_of_perm (hperm : others.Perm others') {function : AccessFunction}
    (h : f.hazard? path others function = some w) :
    ∃ w', f.hazard? path others' function = some w' ∧
      ∀ policy : Policy, policy.isFatal w' = policy.isFatal w := by
  cases function with
  | overwrite =>
    obtain ⟨hsome, hw⟩ := Option.ite_none_left_eq_some.1 h
    cases hw
    rw [hperm.isEmpty_eq] at hsome
    exact ⟨_, if_neg hsome, fun _ => rfl⟩
  | writeMasked =>
    obtain ⟨hsome, hw⟩ := Option.ite_none_left_eq_some.1 h
    cases hw
    rw [((hperm.filter (f.SharesLane ·)).map (·.name)).isEmpty_eq] at hsome
    exact ⟨_, if_neg hsome, fun _ => rfl⟩
  | read | readShadow | readModifyWrite | writeShadow | strobe => cases h

theorem exists_mem_hazards_of_perm (hperm : others.Perm others') (h : w ∈ f.hazards path others) :
    ∃ w' ∈ f.hazards path others', ∀ policy : Policy, policy.isFatal w' = policy.isFatal w := by
  rcases List.mem_filterMap.1 h with ⟨function, hplanned, hhazard⟩
  rcases exists_hazard?_of_perm hperm hhazard with ⟨w', hhazard', hfatal⟩
  exact ⟨w', List.mem_filterMap.2 ⟨function, hplanned, hhazard'⟩, hfatal⟩

end FieldDecl

/-! ## Registers -/

/-- The second register is declared as the first one, with its fields in some order. -/
def RegisterDecl.Reorders (r r' : RegisterDecl) : Prop :=
  ∃ fields, r.fields.Perm fields ∧ r' = { r with fields := fields }

/-- The second register is the first one with its fields in some order. -/
def Register.Reorders (r r' : Register) : Prop :=
  ∃ fields, r.fields.Perm fields ∧ r' = { r with fields := fields }

namespace RegisterDecl

variable {r r' : RegisterDecl} {path : EntityPath}

/-- The other fields of a field are the same in every order. -/
theorem exists_getElem?_of_perm {fs fs' : List FieldDecl} (hperm : fs.Perm fs') {f : FieldDecl}
    {i : Nat} (hf : fs[i]? = some f) :
    ∃ j, fs'[j]? = some f ∧ (fs.eraseIdx i).Perm (fs'.eraseIdx j) := by
  obtain ⟨hi, rfl⟩ := List.getElem?_eq_some_iff.1 hf
  obtain ⟨j, hj, hsame⟩ := List.mem_iff_getElem.1 (hperm.mem_iff.1 (List.getElem_mem hi))
  refine ⟨j, List.getElem?_eq_some_iff.2 ⟨hj, hsame⟩, ?_⟩
  -- Each list is the field with the others, so that the others agree.
  have hfirst := List.getElem_cons_eraseIdx_perm hi
  have hsecond := List.getElem_cons_eraseIdx_perm hj
  rw [hsame] at hsecond
  exact (hfirst.trans (hperm.trans hsecond.symm)).cons_inv

theorem Reorders.exists_mem_hazards (h : r.Reorders r') {w : Warning} (hw : w ∈ r'.hazards path) :
    ∃ w' ∈ r.hazards path, ∀ policy : Policy, policy.isFatal w' = policy.isFatal w := by
  obtain ⟨fields, hperm, rfl⟩ := h
  obtain ⟨f, i, hf, hhazard⟩ := mem_hazards_iff.1 hw
  obtain ⟨j, hf', hothers⟩ := exists_getElem?_of_perm hperm.symm hf
  obtain ⟨w', hhazard', hfatal⟩ := FieldDecl.exists_mem_hazards_of_perm hothers hhazard
  exact ⟨w', mem_hazards_iff.2 ⟨f, j, hf', hhazard'⟩, hfatal⟩

theorem Reorders.legal (h : r.Reorders r') {portSize : Nat} (hlegal : r.Legal portSize) :
    r'.Legal portSize := by
  obtain ⟨fields, hperm, rfl⟩ := h
  constructor
  case field_names => exact hlegal.field_names.perm (hperm.map _)
  case inside =>
    intro f hf
    exact hlegal.inside f (hperm.mem_iff.2 hf)
  case flag_width =>
    intro f hf
    exact hlegal.flag_width f (hperm.mem_iff.2 hf)
  case fits_datatype =>
    intro f hf
    exact hlegal.fits_datatype f (hperm.mem_iff.2 hf)
  case default_value =>
    intro f hf
    exact hlegal.default_value f (hperm.mem_iff.2 hf)
  case apart => exact (hperm.pairwise_iff FieldDecl.Apart.symm).1 hlegal.apart

theorem Reorders.resolved (h : r.Reorders r') (path : EntityPath) (address : RegisterAddress) :
    (r.resolved path address).Reorders (r'.resolved path address) := by
  obtain ⟨fields, hperm, rfl⟩ := h
  exact ⟨_, hperm.map fun f : FieldDecl => f.resolved (path.child f.name) r.kind, rfl⟩

end RegisterDecl

/-! ## Register sets -/

/-- The second set is declared as the first one, with the fields of each register in some order. -/
def RegisterSetDecl.Reorders (d d' : RegisterSetDecl) : Prop :=
  ∃ registers, List.Forall₂ RegisterDecl.Reorders d.registers registers ∧
    d' = { d with registers := registers }

namespace RegisterSetDecl

variable {d d' : RegisterSetDecl}

/-- What does not depend on the fields of a register is the same for all registers. -/
theorem map_registers_of_forall₂ {ι : Type} {g : RegisterDecl → ι}
    (hg : ∀ (r : RegisterDecl) fields, g { r with fields := fields } = g r)
    {rs rs' : List RegisterDecl} (h : List.Forall₂ RegisterDecl.Reorders rs rs') :
    rs'.map g = rs.map g := by
  apply map_eq_map_of_forall₂
  apply h.imp
  rintro r r' ⟨fields, -, rfl⟩
  exact hg r fields

theorem Reorders.check (h : d.Reorders d') (hcheck : d.check = .ok ()) : d'.check = .ok () := by
  rw [check_eq_ok_iff] at hcheck ⊢
  obtain ⟨hname, hport, hsiblings, hchecked⟩ := hcheck
  obtain ⟨registers, hregisters, rfl⟩ := h
  refine ⟨hname, hport, ?_, ?_⟩
  · rwa [map_registers_of_forall₂ (fun _ _ => rfl) hregisters]
  · intro r' hr'
    obtain ⟨r, hr, hreorders⟩ := exists_mem_of_forall₂ hregisters hr'
    have hlegal := (RegisterDecl.check_iff_legal hport.le_word).1 (hchecked r hr)
    exact (RegisterDecl.check_iff_legal hport.le_word).2 (hreorders.legal hlegal)

/-- Addresses are given to registers, whatever fields they have. -/
theorem Reorders.addresses_eq (h : d.Reorders d') : d'.addresses = d.addresses := by
  obtain ⟨registers, hregisters, rfl⟩ := h
  have hrequests : requests { d with registers := registers } = d.requests :=
    map_registers_of_forall₂ (fun _ _ => rfl) hregisters
  rw [addresses, addresses, ranges, ranges, hrequests]
  rfl

theorem Reorders.served (h : d.Reorders d') (hserved : d.Served) : d'.Served := by
  obtain ⟨registers, hregisters, rfl⟩ := h
  intro r' hr' f hf
  obtain ⟨r, hr, fields, hperm, rfl⟩ := exists_mem_of_forall₂ hregisters hr'
  exact hserved r hr f (hperm.mem_iff.2 hf)

/-- Every hazard was one of the same class before. -/
theorem Reorders.exists_mem_hazards (h : d.Reorders d') {w : Warning} (hw : w ∈ d'.hazards) :
    ∃ w' ∈ d.hazards, ∀ policy : Policy, policy.isFatal w' = policy.isFatal w := by
  obtain ⟨registers, hregisters, rfl⟩ := h
  obtain ⟨r', hr', hhazard⟩ := List.mem_flatMap.1 hw
  obtain ⟨r, hr, hreorders⟩ := exists_mem_of_forall₂ hregisters hr'
  have hpath : registerPath { d with registers := registers } r' = d.registerPath r := by
    obtain ⟨fields, -, rfl⟩ := hreorders
    rfl
  rw [hpath] at hhazard
  obtain ⟨w', hhazard', hfatal⟩ := hreorders.exists_mem_hazards hhazard
  exact ⟨w', List.mem_flatMap.2 ⟨r, hr, hhazard'⟩, hfatal⟩

/-- At the same addresses the registers are the same, but for the order of their fields. -/
theorem Reorders.resolved (h : d.Reorders d') (addresses : List RegisterAddress) (size : Nat) :
    List.Forall₂ Register.Reorders (d.resolved addresses size).registers
      (d'.resolved addresses size).registers := by
  obtain ⟨registers, hregisters, rfl⟩ := h
  rw [RegisterSetDecl.resolved, RegisterSetDecl.resolved, List.forall₂_map_left_iff,
    List.forall₂_map_right_iff]
  generalize d.registers = declared at hregisters
  -- The addresses vary: each register takes the first of those that are left.
  induction hregisters generalizing addresses with
  | nil => exact .nil
  | cons hhead _ ih =>
    cases addresses with
    | nil => exact .nil
    | cons address addresses =>
      refine .cons ?_ (ih addresses)
      have hresolved := hhead.resolved
      obtain ⟨fields, -, rfl⟩ := hhead
      exact hresolved _ address

/-- What a policy accepts it accepts in every order of the fields. -/
theorem Reorders.exists_resolveWith (h : d.Reorders d') {policy : Policy}
    {resolved : Resolved RegisterSet} (hresolved : d.resolveWith policy = .ok resolved) :
    ∃ resolved', d'.resolveWith policy = .ok resolved' ∧
      List.Forall₂ Register.Reorders resolved.model.registers resolved'.model.registers := by
  obtain ⟨houtcome, -, hharmless⟩ := resolveWith_eq_ok_iff.1 hresolved
  obtain ⟨hcheck, hserved, addresses, size, haddresses, hsize, hmodel⟩ :=
    outcome_resolve_eq_ok_iff.1 houtcome
  have hport : d'.portSize = d.portSize := by
    obtain ⟨registers, -, rfl⟩ := h
    rfl
  have houtcome' : d'.resolve.outcome = .ok (d'.resolved addresses size) := by
    rw [outcome_resolve_eq_ok_iff, h.addresses_eq, hport]
    exact ⟨h.check hcheck, h.served hserved, addresses, size, haddresses, hsize, rfl⟩
  have hharmless' : ∀ w ∈ d'.hazards, policy.isFatal w = false := by
    intro w hw
    obtain ⟨w', hw', hfatal⟩ := h.exists_mem_hazards hw
    rw [← hfatal policy]
    exact hharmless w' hw'
  refine ⟨⟨d'.resolved addresses size, d'.hazards⟩, ?_, ?_⟩
  · exact resolveWith_eq_ok_iff.2 ⟨houtcome', rfl, hharmless'⟩
  · rw [hmodel]
    exact h.resolved addresses size

end RegisterSetDecl

end BusMap
