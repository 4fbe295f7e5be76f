import BusMap.Proofs.Diagnostics.Scope
import BusMap.Proofs.Policy.Recording

/-!
# What a policy changes

A policy only filters. It accepts what the lenient policy accepts, with the same model and warnings,
or it rejects it for the first of these warnings that is fatal; and it accepts nothing else
(`Policy.Filters`). This compares two runs of one declaration that may end in different places, and
holds since resolution itself neither looks at the policy nor promotes a warning
(`RegisterSetDecl.failsOnly_resolve`, `BusDecl.failsOnly_resolve`).
-/

set_option autoImplicit false

namespace BusMap

/-! ## Failures that are no promoted warnings -/

/-- The failure is not a promoted warning. -/
def Failure.Unpromoted (e : Failure) : Prop := ∀ w, e ≠ .structural (.warningPromoted w)

theorem Failure.RaisedIn.unpromoted {scope : EntityPath → Prop} {e : Failure}
    (h : e.RaisedIn scope) : e.Unpromoted := by
  rintro w rfl
  exact StructuralError.RaisedIn.unpromoted h w rfl

/-- Resolving a register set promotes no warning. -/
theorem RegisterSetDecl.failsOnly_resolve (d : RegisterSetDecl) :
    FailsOnly Failure.Unpromoted d.resolve.outcome :=
  d.staysIn_resolve.failure.imp fun _ => Failure.RaisedIn.unpromoted

/-- Resolving a bus promotes no warning. -/
theorem BusDecl.failsOnly_resolve (d : BusDecl) :
    FailsOnly Failure.Unpromoted d.resolve.outcome :=
  d.staysIn_resolve.failure.imp fun _ => Failure.RaisedIn.unpromoted

/-! ## Two runs -/

/-- What the policy makes of a declaration, compared with what the lenient policy makes of it. -/
structure Policy.Filters {α : Type} (policy : Policy)
    (lenient strict : Except Failure (Resolved α)) : Prop where
  /-- Where no warning is fatal, nothing changes. -/
  accepts : ∀ r, lenient = .ok r → (∀ w ∈ r.warnings, policy.isFatal w = false) → strict = .ok r
  /-- Where some warning is fatal, the first of them is the error. -/
  promotes : ∀ r before w after, lenient = .ok r → r.warnings = before ++ w :: after →
    (∀ v ∈ before, policy.isFatal v = false) → policy.isFatal w = true →
      strict = .error (.structural (.warningPromoted w))
  /-- A failure stays, unless a warning before it is fatal. -/
  fails : ∀ e, lenient = .error e →
    strict = .error e ∨
      ∃ w, policy.isFatal w = true ∧ strict = .error (.structural (.warningPromoted w))
  /-- The lenient policy promotes no warning. -/
  lenient_promotes_none : ∀ w, lenient ≠ .error (.structural (.warningPromoted w))

theorem Policy.isFatal_lenient (w : Warning) : lenient.isFatal w = false := by
  cases w <;> rfl

namespace Diagnosed

variable {α : Type} {d : Diagnosed α}

theorem enforce_lenient : d.enforce .lenient = d.outcome.map fun a => ⟨a, d.warnings⟩ := by
  have hnone : d.warnings.find? Policy.lenient.isFatal = none := by
    rw [List.find?_eq_none]
    intro w _
    rw [Policy.isFatal_lenient]
    exact Bool.false_ne_true
  rw [enforce, hnone]

theorem enforce_of_append {policy : Policy} {before after : List Warning} {w : Warning}
    (hwarnings : d.warnings = before ++ w :: after)
    (hbefore : ∀ v ∈ before, policy.isFatal v = false) (hw : policy.isFatal w = true) :
    d.enforce policy = .error (.structural (.warningPromoted w)) := by
  have hfind : d.warnings.find? policy.isFatal = some w := by
    refine List.find?_eq_some_iff_append.2 ⟨hw, before, after, hwarnings, fun v hv => ?_⟩
    rw [hbefore v hv]
    rfl
  rw [enforce, hfind]

/-- A policy filters the computations that promote no warning of their own. -/
theorem filters_enforce (policy : Policy) (h : FailsOnly Failure.Unpromoted d.outcome) :
    policy.Filters (d.enforce .lenient) (d.enforce policy) where
  accepts := by
    intro r hlenient hharmless
    -- The warnings of an accepted model are all that the computation raised.
    obtain ⟨houtcome, hwarnings, -⟩ := enforce_eq_ok_iff.1 hlenient
    rw [hwarnings] at hharmless
    exact enforce_eq_ok_iff.2 ⟨houtcome, hwarnings, hharmless⟩
  promotes := by
    intro r before w after hlenient hsplit hbefore hw
    obtain ⟨-, hwarnings, -⟩ := enforce_eq_ok_iff.1 hlenient
    exact enforce_of_append (hwarnings.symm.trans hsplit) hbefore hw
  fails := by
    intro e hlenient
    rw [enforce_lenient] at hlenient
    cases houtcome : d.outcome with
    | ok a =>
      rw [houtcome] at hlenient
      cases hlenient
    | error cause =>
      rw [houtcome] at hlenient
      cases hlenient
      rw [enforce, houtcome]
      -- Warnings raised before the failure are kept with it, and one of them may be fatal.
      cases hfatal : d.warnings.find? policy.isFatal with
      | none => exact Or.inl rfl
      | some w => exact Or.inr ⟨w, List.find?_some hfatal, rfl⟩
  lenient_promotes_none := by
    intro w hlenient
    rw [enforce_lenient] at hlenient
    cases houtcome : d.outcome with
    | ok a =>
      rw [houtcome] at hlenient
      cases hlenient
    | error cause =>
      rw [houtcome] at hlenient
      cases hlenient
      exact h _ houtcome w rfl

end Diagnosed

/-- **A policy only filters.** For register sets and for buses alike, and whether warnings are
promoted where they are raised or afterwards: a policy accepts what the lenient policy accepts
without a fatal warning, with the same model and warnings; it rejects for the first fatal warning
what has one; and what the lenient policy rejects it rejects for the same reason or for a fatal
warning. The lenient policy promotes none. -/
theorem resolveWith_filters (policy : Policy) :
    (∀ d : RegisterSetDecl, (d.record policy).resolved = d.resolveWith policy ∧
      policy.Filters (d.resolveWith .lenient) (d.resolveWith policy)) ∧
    ∀ d : BusDecl, (d.record policy).resolved = d.resolveWith policy ∧
      policy.Filters (d.resolveWith .lenient) (d.resolveWith policy) := by
  constructor
  · intro d
    exact ⟨d.resolved_record policy, Diagnosed.filters_enforce policy d.failsOnly_resolve⟩
  · intro d
    exact ⟨d.resolved_record policy, Diagnosed.filters_enforce policy d.failsOnly_resolve⟩

/-- A hazard of the first field, and a function of the second one that the register cannot serve. -/
def hazardBeforeDenial : RegisterSetDecl where
  name := "regs"
  portSize := 16
  registers := [{
    name := "control"
    kind := .write
    fields := [
      { name := "low", bits := ⟨3, 0⟩, datatype := .unsigned .bits8,
        functions := .singleton .overwrite },
      { name := "high", bits := ⟨7, 4⟩, datatype := .unsigned .bits8,
        functions := .singleton .read }] }]

/-- Where the hazard is fatal, the run ends before the denial. -/
example :
    let control := (EntityPath.root "regs").child "control"
    hazardBeforeDenial.resolveWith .lenient =
        .error (.access ⟨control.child "high", .read, .read⟩) ∧
      hazardBeforeDenial.resolveWith { strictOverwrite := true } =
        .error (.structural (.warningPromoted (.overwriteMultiField (control.child "low") 2))) :=
  ⟨rfl, rfl⟩

end BusMap
