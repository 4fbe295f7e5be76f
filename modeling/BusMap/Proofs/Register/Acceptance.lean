import BusMap.Proofs.Policy.Strictness
import BusMap.Proofs.Register.Faults

/-!
# When a register set has a model

Resolution gives a model when the set is legal, all registers have addresses and serve what their
fields want, and their words can be counted (`RegisterSetDecl.outcome_resolve_eq_ok_iff`). A policy
then only looks at the hazards of the set (`RegisterSetDecl.resolveWith_eq_ok_iff`).

A register set that is legal and whose registers have addresses is accepted under the lenient policy
exactly when its registers serve what their fields want (`RegisterSetDecl.resolveWith_access_rules`),
but for one case: with registers of one byte and one of them at the very last address, the number of
words does not exist (`RegisterSetDecl.resolveWith_served_faults`). The fields of an accepted set have
the accessors that serve them, and what is not accepted fails with its first denial.
-/

set_option autoImplicit false

namespace BusMap

namespace RegisterSetDecl

variable {d : RegisterSetDecl} {ranges : List Interval} {addresses : List RegisterAddress}

/-! ## Models -/

/-- The set with its registers at their addresses. -/
def resolved (d : RegisterSetDecl) (addresses : List RegisterAddress) (addressSize : Nat) :
    RegisterSet where
  name := d.name
  baseAddress := d.baseAddress
  portSize := d.portSize
  addressSize := addressSize
  registers := (d.registers.zip addresses).map fun (r, address) =>
    r.resolved (d.registerPath r) address

/-- Likely side effects of all registers of the set. -/
def hazards (d : RegisterSetDecl) : List Warning :=
  d.registers.flatMap fun r => r.hazards (d.registerPath r)

/-- Resolution gives the declared registers at their addresses, if the set is legal and its registers
are placed, serve their fields and can be counted. -/
theorem outcome_resolve_eq_ok_iff {model : RegisterSet} :
    d.resolve.outcome = .ok model ↔
      d.check = .ok () ∧ d.Served ∧
        ∃ addresses size, d.addresses = .ok addresses ∧
          addressSize d.portSize addresses = .ok size ∧ model = d.resolved addresses size := by
  rw [resolve, Diagnosed.outcome_bind, Diagnosed.outcome_ofExcept, then_eq_ok_iff]
  apply and_congr_right
  intro hcheck
  rw [Diagnosed.outcome_bind, Diagnosed.outcome_ofExcept, bind_eq_ok_iff, ← denials_eq_nil_iff]
  constructor
  · rintro ⟨addresses, haddresses, h⟩
    rw [Diagnosed.outcome_bind, outcome_resolveRegisters hcheck haddresses, bind_eq_ok_iff] at h
    obtain ⟨registers, hregisters, h⟩ := h
    obtain ⟨hdenials, rfl⟩ := firstError_eq_ok_iff.1 hregisters
    rw [Diagnosed.outcome_bind, Diagnosed.outcome_ofExcept, bind_eq_ok_iff] at h
    obtain ⟨size, hsize, h⟩ := h
    cases h
    exact ⟨List.map_eq_nil_iff.1 hdenials, addresses, size, haddresses,
      mapError_eq_ok_iff.1 hsize, rfl⟩
  · rintro ⟨hdenials, addresses, size, haddresses, hsize, rfl⟩
    refine ⟨addresses, haddresses, ?_⟩
    rw [Diagnosed.outcome_bind, outcome_resolveRegisters hcheck haddresses, hdenials]
    refine bind_eq_ok_iff.2 ⟨_, firstError_eq_ok_iff.2 ⟨rfl, rfl⟩, ?_⟩
    rw [Diagnosed.outcome_bind, Diagnosed.outcome_ofExcept, hsize]
    rfl

/-- A policy accepts a model whose hazards are harmless to it. -/
theorem resolveWith_eq_ok_iff {policy : Policy} {accepted : Resolved RegisterSet} :
    d.resolveWith policy = .ok accepted ↔
      d.resolve.outcome = .ok accepted.model ∧ accepted.warnings = d.hazards ∧
        ∀ w ∈ d.hazards, policy.isFatal w = false := by
  rw [resolveWith, Diagnosed.enforce_eq_ok_iff]
  apply and_congr_right
  intro houtcome
  -- The lenient policy accepts the model with all its warnings, and these are the hazards.
  have hlenient : d.resolveWith .lenient = .ok ⟨accepted.model, d.resolve.warnings⟩ := by
    rw [resolveWith, Diagnosed.enforce_lenient, houtcome]
    rfl
  have hwarnings : d.resolve.warnings = d.hazards := warnings_of_resolveWith hlenient
  rw [hwarnings]

/-! ## Access rules -/

/-- The registers of an accepted set are the declared ones, each served by its accessors. -/
theorem forall₂_isServedBy {policy : Policy} {resolved : Resolved RegisterSet}
    (h : d.resolveWith policy = .ok resolved) :
    List.Forall₂ RegisterDecl.IsServedBy d.registers resolved.model.registers := by
  apply (forall₂_resolved_of_resolveWith h).imp
  rintro r register ⟨address, rfl⟩
  exact r.resolved_isServedBy _ address

/-- A legal set with addresses fails with its first denial, and without one only when its words
cannot be counted. -/
theorem resolveWith_lenient_eq_error_iff (hcheck : d.check = .ok ()) (hranges : d.ranges = .ok ranges)
    (haddresses : d.addresses = .ok addresses) (failure : Failure) :
    d.resolveWith .lenient = .error failure ↔
      (∃ denial, d.denials.head? = some denial ∧ failure = .access denial) ∨
        (d.Served ∧ d.CountOverruns ranges ∧ failure = .fault .sumTooLarge) := by
  have hport := isPortSize_of_check hcheck
  have houtcome : d.resolveWith .lenient = .error failure ↔ d.resolve.outcome = .error failure := by
    rw [resolveWith, Diagnosed.enforce_lenient]
    cases d.resolve.outcome with
    | ok model => simp [Except.map]
    | error cause => simp [Except.map]
  rw [houtcome]
  simp only [resolve, Diagnosed.outcome_bind, Diagnosed.outcome_ofExcept, hcheck, haddresses, ok_bind]
  rw [outcome_resolveRegisters hcheck haddresses, bind_eq_error_iff, firstError_eq_error_iff,
    List.head?_map, Option.map_eq_some_iff]
  apply or_congr
  · exact exists_congr fun denial => and_congr_right fun _ => eq_comm
  · rw [← denials_eq_nil_iff]
    constructor
    · rintro ⟨registers, hregisters, h⟩
      rcases firstError_eq_ok_iff.1 hregisters with ⟨hdenials, -⟩
      rcases bind_eq_error_iff.1 h with hsize | ⟨size, -, h⟩
      · rcases mapError_eq_error_iff.1 hsize with ⟨cause, hcause, hfailure⟩
        rcases (addressSize_eq_error_iff_countOverruns hport hranges haddresses).1 hcause with
          ⟨rfl, hcount⟩
        exact ⟨List.map_eq_nil_iff.1 hdenials, hcount, hfailure.symm⟩
      · cases h
    · rintro ⟨hdenials, hcount, rfl⟩
      have hsize :=
        (addressSize_eq_error_iff_countOverruns hport hranges haddresses).2 ⟨rfl, hcount⟩
      refine ⟨_, firstError_eq_ok_iff.2 ⟨List.map_eq_nil_iff.2 hdenials, rfl⟩, ?_⟩
      exact bind_eq_error_iff.2 (Or.inl (mapError_eq_error_iff.2 ⟨_, hsize, rfl⟩))

/-- **The access rules decide whether a placed register set has a model.** A legal set whose
registers have addresses is accepted exactly when each register serves what its fields want, unless
the words of the set cannot be counted. The accessors of an accepted field are those of the functions
that it wants, in planning order. Where something is denied, the first denial is the error. -/
theorem resolveWith_access_rules (d : RegisterSetDecl) (hcheck : d.check = .ok ())
    (hranges : d.ranges = .ok ranges) (haddresses : d.addresses = .ok addresses) :
    ((∃ resolved, d.resolveWith .lenient = .ok resolved) ↔ d.Served ∧ ¬ d.CountOverruns ranges) ∧
      (∀ resolved, d.resolveWith .lenient = .ok resolved →
        List.Forall₂ RegisterDecl.IsServedBy d.registers resolved.model.registers) ∧
      ∀ failure, d.resolveWith .lenient = .error failure →
        (∃ denial, d.denials.head? = some denial ∧ failure = .access denial) ∨
          (d.Served ∧ d.CountOverruns ranges ∧ failure = .fault .sumTooLarge) := by
  have herror := resolveWith_lenient_eq_error_iff hcheck hranges haddresses
  refine ⟨?_, fun resolved => forall₂_isServedBy, fun failure => (herror failure).1⟩
  constructor
  · rintro ⟨resolved, hresolved⟩
    -- A denial or an overrun would be the error of an accepted set.
    have hnone : ∀ failure, d.resolveWith .lenient ≠ .error failure := by
      intro failure hfailure
      rw [hresolved] at hfailure
      cases hfailure
    have hserved : d.Served := by
      rw [← denials_eq_nil_iff, ← List.head?_eq_none_iff, Option.eq_none_iff_forall_ne_some]
      intro denial hdenial
      exact hnone _ ((herror _).2 (Or.inl ⟨denial, hdenial, rfl⟩))
    refine ⟨hserved, ?_⟩
    intro hcount
    exact hnone _ ((herror _).2 (Or.inr ⟨hserved, hcount, rfl⟩))
  · rintro ⟨hserved, hcounts⟩
    cases h : d.resolveWith .lenient with
    | ok resolved => exact ⟨resolved, rfl⟩
    | error failure =>
      rcases (herror failure).1 h with ⟨denial, hdenial, -⟩ | ⟨-, hcount, -⟩
      · rw [denials_eq_nil_iff.2 hserved] at hdenial
        cases hdenial
      · exact absurd hcount hcounts

/-- A field that is to be read and modified, in a register of the given kind. -/
def gauge (kind : RegisterKind) : RegisterSetDecl where
  name := "regs"
  portSize := 32
  registers := [{
    name := "gauge"
    kind := kind
    fields := [{
      name := "level"
      bits := ⟨7, 4⟩
      datatype := .unsigned .bits8
      functions := .ofList [.writeShadow, .readModifyWrite, .readShadow, .read] }] }]

/-- A register that is written and read serves all that the field wants. An event register denies two
functions, and the one that is planned first is the error. -/
theorem resolveWith_access_rules_gauge :
    (∃ resolved, (gauge .writeRead).resolveWith .lenient = .ok resolved) ∧
      (gauge .readEvent).resolveWith .lenient =
        .error (.access ⟨((EntityPath.root "regs").child "gauge").child "level", .readModifyWrite,
          .nonEvent⟩) := by
  have hcounts : ∀ kind, ¬ (gauge kind).CountOverruns [⟨0, 3⟩] := by
    rintro kind ⟨-, hport, -⟩
    exact absurd hport (by decide : 32 ≠ 8)
  constructor
  · have hranges : (gauge .writeRead).ranges = .ok [⟨0, 3⟩] := rfl
    have hrules := resolveWith_access_rules (gauge .writeRead) rfl hranges rfl
    exact hrules.1.2 ⟨by decide, hcounts _⟩
  · have hranges : (gauge .readEvent).ranges = .ok [⟨0, 3⟩] := rfl
    have hrules := resolveWith_access_rules (gauge .readEvent) rfl hranges rfl
    cases h : (gauge .readEvent).resolveWith .lenient with
    | ok resolved =>
      have hserved := (hrules.1.1 ⟨resolved, h⟩).1
      exact absurd hserved (by decide)
    | error failure =>
      rcases hrules.2.2 failure h with ⟨denial, hdenial, rfl⟩ | ⟨-, hcount, -⟩
      · cases hdenial
        rfl
      · exact absurd hcount (hcounts _)

/-- A register of one byte at the very last address that serves what its field wants. -/
def lastByte : RegisterSetDecl where
  name := "regs"
  portSize := 8
  registers := [{
    name := "a"
    kind := .read
    address := .fixed (wordLimit - 1)
    fields := [{
      name := "ready"
      bits := .bit 0
      datatype := .boolean
      functions := .singleton .read }] }]

/-- It is legal, placed and served, and has no model. -/
theorem resolveWith_served_faults :
    lastByte.check = .ok () ∧ lastByte.addresses = .ok [⟨wordLimit - 1, wordLimit - 1⟩] ∧
      lastByte.Served ∧ lastByte.resolveWith .lenient = .error (.fault .sumTooLarge) :=
  ⟨rfl, rfl, by decide, rfl⟩

end RegisterSetDecl

end BusMap
