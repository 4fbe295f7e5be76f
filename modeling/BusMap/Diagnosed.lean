import BusMap.Error

/-!
# Diagnosed computations

A computation raises warnings on its way to a value or a failure. It knows of no policy: warnings
are kept in the order in which they are raised, those before a failure included. `enforce` applies a
policy afterwards, and the first fatal warning wins over all that comes after it.
-/

set_option autoImplicit false

namespace BusMap

universe u v

/-- A value or failure with the warnings raised before it. -/
structure Diagnosed (α : Type u) where
  warnings : List Warning
  outcome : Except Failure α

/-- A model with the warnings raised while it was resolved. -/
structure Resolved (α : Type u) where
  model : α
  warnings : List Warning

namespace Policy

/-- Adds a warning to those raised before, unless it is fatal. -/
def record (policy : Policy) (warnings : List Warning) (w : Warning) :
    Except StructuralError (List Warning) :=
  if policy.isFatal w then .error (.warningPromoted w) else .ok (warnings ++ [w])

end Policy

namespace Diagnosed

variable {α : Type u} {β : Type v}

/-- A value without warnings. -/
protected def pure (a : α) : Diagnosed α := ⟨[], .ok a⟩

/-- A failure without warnings. -/
def fail (cause : Failure) : Diagnosed α := ⟨[], .error cause⟩

/-- The outcome of a computation that raises no warnings. -/
def ofExcept (outcome : Except Failure α) : Diagnosed α := ⟨[], outcome⟩

/-- Raises one warning. -/
def warn (w : Warning) : Diagnosed PUnit.{u + 1} := ⟨[w], .ok ⟨⟩⟩

/-- Runs `next` on the value; warnings follow one another. -/
protected def bind (d : Diagnosed α) (next : α → Diagnosed β) : Diagnosed β :=
  match d.outcome with
  | .error cause => ⟨d.warnings, .error cause⟩
  | .ok a => ⟨d.warnings ++ (next a).warnings, (next a).outcome⟩

instance : Monad Diagnosed where
  pure := Diagnosed.pure
  bind := Diagnosed.bind

/-- Applies a policy: the first fatal warning, else the outcome with all warnings. -/
def enforce (policy : Policy) (d : Diagnosed α) : Except Failure (Resolved α) :=
  match d.warnings.find? policy.isFatal with
  | some w => .error (.structural (.warningPromoted w))
  | none => d.outcome.map fun a => ⟨a, d.warnings⟩

instance : LawfulMonad Diagnosed :=
  LawfulMonad.mk' Diagnosed
    (by rintro α ⟨ws, _ | a⟩ <;> simp [Functor.map, Diagnosed.bind, Diagnosed.pure])
    (by intro α β a f; simp [bind, pure, Diagnosed.bind, Diagnosed.pure])
    (by
      rintro α β γ ⟨ws, _ | a⟩ f g
      · rfl
      · simp only [bind, Diagnosed.bind]
        cases (f a).outcome <;> simp [List.append_assoc])

/-! ## Outcomes -/

@[simp] theorem outcome_ofExcept (outcome : Except Failure α) :
    (ofExcept outcome).outcome = outcome := rfl

@[simp] theorem outcome_pure (a : α) : (pure a : Diagnosed α).outcome = .ok a := rfl

/-- The outcome of a chain does not depend on the warnings. -/
@[simp] theorem outcome_bind {β : Type u} (d : Diagnosed α) (next : α → Diagnosed β) :
    (d >>= next).outcome = d.outcome >>= fun a => (next a).outcome := by
  obtain ⟨ws, _ | a⟩ := d <;> rfl

/-- The outcome of a map over a list does not depend on the warnings. -/
theorem outcome_mapM {ι : Type v} (f : ι → Diagnosed α) (xs : List ι) :
    (xs.mapM f).outcome = xs.mapM fun x => (f x).outcome := by
  induction xs with
  | nil => rfl
  | cons x xs ih =>
    rw [List.mapM_cons, List.mapM_cons, outcome_bind, ← ih]
    simp only [outcome_bind]
    rfl

/-! ## Policies -/

theorem enforce_ofExcept (policy : Policy) (outcome : Except Failure α) :
    (ofExcept outcome).enforce policy = outcome.map fun a => ⟨a, []⟩ := rfl

/-- A model is accepted exactly when it is the outcome and none of the warnings is fatal. -/
theorem enforce_eq_ok_iff {policy : Policy} {d : Diagnosed α} {r : Resolved α} :
    d.enforce policy = .ok r ↔
      d.outcome = .ok r.model ∧ r.warnings = d.warnings ∧
        ∀ w ∈ d.warnings, policy.isFatal w = false := by
  obtain ⟨ws, outcome⟩ := d
  obtain ⟨model, warnings⟩ := r
  rw [enforce]
  dsimp only
  cases hfatal : ws.find? policy.isFatal with
  | some w =>
    have hw := List.mem_of_find?_eq_some hfatal
    have hwf := List.find?_some hfatal
    constructor
    · intro h
      cases h
    · rintro ⟨-, -, h⟩
      rw [h w hw] at hwf
      cases hwf
  | none =>
    have hnone : ∀ w ∈ ws, policy.isFatal w = false := by
      simpa using List.find?_eq_none.1 hfatal
    cases outcome with
    | error cause =>
      constructor
      · intro h
        cases h
      · rintro ⟨h, -⟩
        cases h
    | ok a =>
      constructor
      · intro h
        cases h
        exact ⟨rfl, rfl, hnone⟩
      · rintro ⟨h, rfl, -⟩
        cases h
        rfl

/-- A chain under a policy is the chain of its steps under the policy, with all warnings in
order. -/
theorem enforce_bind {β : Type u} (policy : Policy) (d : Diagnosed α)
    (next : α → Diagnosed β) :
    (d >>= next).enforce policy =
      d.enforce policy >>= fun r =>
        ((next r.model).enforce policy).map fun s => ⟨s.model, r.warnings ++ s.warnings⟩ := by
  obtain ⟨ws, outcome⟩ := d
  cases outcome with
  | error cause =>
    show enforce policy ⟨ws, .error cause⟩ = _
    rw [enforce, enforce]
    cases ws.find? policy.isFatal <;> rfl
  | ok a =>
    show enforce policy ⟨ws ++ (next a).warnings, (next a).outcome⟩ = _
    rw [enforce, enforce, List.find?_append]
    cases ws.find? policy.isFatal with
    | some w => rfl
    | none =>
      show _ = ((next a).enforce policy).map _
      rw [enforce]
      cases (next a).warnings.find? policy.isFatal with
      | some w => rfl
      | none => cases (next a).outcome <;> rfl

end Diagnosed

end BusMap
