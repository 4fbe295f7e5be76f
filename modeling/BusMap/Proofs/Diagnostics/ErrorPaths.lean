import BusMap.Proofs.Diagnostics.Scope

/-!
# Errors point at entities

An error of resolution names an entity of the declaration: the set, one of its registers or one of
their fields, and for a bus the bus or one of its nodes (`path_of_resolveWith_eq_error`). What a
policy makes of a computation adds one error only, a promoted warning, and that one has the path of
the warning.
-/

set_option autoImplicit false

namespace BusMap

variable {scope : EntityPath → Prop}

/-- The error is about an entity of the scope, and names no entity outside of it. -/
structure Error.PointsInto (scope : EntityPath → Prop) (e : Error) : Prop where
  /-- The error is not about a text. -/
  declared : ∀ cause, e ≠ .description cause
  /-- There is a path, and it leads into the scope. -/
  path : ∃ path, e.path? = some path ∧ scope path
  /-- What an entity overlaps with is in the scope as well. -/
  other : ∀ path range other otherRange,
    e = .conflict (.overlap path range other otherRange) → scope other

/-- A failure that is raised about a scope points into it. -/
theorem Failure.RaisedIn.pointsInto {e : Error} (h : (Failure.error e).RaisedIn scope) :
    e.PointsInto scope := by
  cases e with
  | structural cause =>
    exact ⟨fun _ => Error.noConfusion, ⟨cause.path, rfl, h.path⟩, by rintro _ _ _ _ ⟨⟩⟩
  | access cause =>
    exact ⟨fun _ => Error.noConfusion, ⟨cause.path, rfl, h⟩, by rintro _ _ _ _ ⟨⟩⟩
  | description cause => exact h.elim
  | conflict cause =>
    refine ⟨fun _ => Error.noConfusion, ⟨cause.path, rfl, ?_⟩, ?_⟩
    · cases cause with
      | misaligned path address alignment => exact h
      | overflow path address size => exact h
      | overlap path range other otherRange => exact h.1
    · intro path range other otherRange heq
      cases heq
      exact h.2

/-- A promoted warning points where the warning does. -/
theorem pointsInto_warningPromoted {w : Warning} (h : scope w.path) :
    (Error.structural (.warningPromoted w)).PointsInto scope where
  declared := by
    intro cause heq
    cases heq
  path := ⟨w.path, rfl, h⟩
  other := by
    intro path range other otherRange heq
    cases heq

/-- A policy rejects a computation for one of its warnings or for its own failure. -/
theorem Diagnosed.StaysIn.pointsInto {α : Type} {d : Diagnosed α} (hd : d.StaysIn scope)
    {policy : Policy} {e : Error} (h : d.enforce policy = .error (.error e)) :
    e.PointsInto scope := by
  rw [enforce] at h
  cases hfatal : d.warnings.find? policy.isFatal with
  | some w =>
    rw [hfatal] at h
    cases h
    exact pointsInto_warningPromoted (hd.warnings w (List.mem_of_find?_eq_some hfatal))
  | none =>
    rw [hfatal] at h
    cases houtcome : d.outcome with
    | ok a =>
      rw [houtcome] at h
      cases h
    | error failure =>
      rw [houtcome] at h
      cases h
      exact (hd.failure _ houtcome).pointsInto

/-- **Every error points at an entity.** Whatever the policy, an error for a register set is about
the set, one of its registers or a field of one of them; and an error for a bus is about the bus or
one of its nodes. So is the other entity of an overlap. -/
theorem path_of_resolveWith_eq_error (policy : Policy) (e : Error) :
    (∀ d : RegisterSetDecl, d.resolveWith policy = .error (.error e) →
      e.PointsInto d.IsEntity) ∧
    ∀ d : BusDecl, d.resolveWith policy = .error (.error e) → e.PointsInto d.IsEntity := by
  constructor
  · intro d h
    exact d.staysIn_resolve.pointsInto h
  · intro d h
    exact d.staysIn_resolve.pointsInto h

/-- Two registers that ask for one byte. -/
def twoAtOneAddress : RegisterSetDecl where
  name := "regs"
  portSize := 8
  registers := [
    { name := "status", kind := .read, address := .fixed 0 },
    { name := "control", kind := .write, address := .fixed 0 }]

/-- A master that does not reach all of its slave. -/
def narrowMaster : BusDecl where
  name := "bus"
  masters := [{ name := "core", shape := ⟨32, 8, 4⟩ }]
  slaves := [{ name := "memory", shape := ⟨32, 8, 10⟩ }]

/-- The overlap is about the second register and names the first one; the promoted warning is about
the bus. -/
theorem path_of_resolveWith_eq_error_overlap_and_warning :
    let regs := EntityPath.root "regs"
    let overlap := Error.conflict
      (.overlap (regs.child "control") ⟨0, 0⟩ (regs.child "status") ⟨0, 0⟩)
    let promoted := Error.structural (.warningPromoted (.addressSizeMismatch (.root "bus") 4 10))
    twoAtOneAddress.resolveWith .lenient = .error (.error overlap) ∧
      overlap.PointsInto twoAtOneAddress.IsEntity ∧
      narrowMaster.resolveWith .strict = .error (.error promoted) ∧
      promoted.PointsInto narrowMaster.IsEntity := by
  intro regs overlap promoted
  have hoverlap : twoAtOneAddress.resolveWith .lenient = .error (.error overlap) := rfl
  have hpromoted : narrowMaster.resolveWith .strict = .error (.error promoted) := rfl
  refine ⟨hoverlap, ?_, hpromoted, ?_⟩
  · exact (path_of_resolveWith_eq_error .lenient overlap).1 twoAtOneAddress hoverlap
  · exact (path_of_resolveWith_eq_error .strict promoted).2 narrowMaster hpromoted

end BusMap
