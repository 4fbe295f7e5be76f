import BusMap.Bus.Resolve
import BusMap.Proofs.Outcome
import BusMap.Register.Resolve

/-!
# Runs that know the policy

Resolution keeps all warnings, and the policy is applied to them afterwards. It can also be run with
the policy at hand. A run is then given the warnings recorded so far and hands them on with its own,
and a fatal warning ends it at the field, register or bus that raises it. The runs here go through
the same loops, one step after another, and stop there.

A diagnosed computation stands for one run for each policy (`Diagnosed.under`), and a chain of such
computations for the chain of the runs (`Diagnosed.under_bind`). The two ways to resolve a
declaration are therefore the same (`RegisterSetDecl.resolved_record`, `BusDecl.resolved_record`).
-/

set_option autoImplicit false

namespace BusMap

/-- A run under a policy, on the warnings recorded before it. -/
abbrev Recording (α : Type) : Type := StateT (List Warning) (Except Failure) α

namespace Recording

variable {α : Type}

/-- Records one warning. A fatal one ends the run. -/
def warn (policy : Policy) (w : Warning) : Recording Unit := fun seen =>
  ((policy.record seen w).mapError Failure.structural).map fun recorded => (⟨⟩, recorded)

/-- A step that records nothing. -/
def ofExcept (x : Except Failure α) : Recording α := fun seen => x.map fun a => (a, seen)

/-- What a run makes of no warnings. -/
def resolved (run : Recording α) : Except Failure (Resolved α) :=
  (run []).map fun (model, warnings) => ⟨model, warnings⟩

end Recording

/-! ## Runs of a diagnosed computation -/

namespace Diagnosed

variable {α β : Type} {policy : Policy}

/-- The run of a diagnosed computation under a policy. -/
def under (policy : Policy) (d : Diagnosed α) : Recording α := fun seen =>
  (d.enforce policy).map fun r => (r.model, seen ++ r.warnings)

theorem under_pure (a : α) : (pure a : Diagnosed α).under policy = pure a := by
  funext seen
  exact congrArg (fun recorded => Except.ok (a, recorded)) (List.append_nil seen)

theorem under_ofExcept (x : Except Failure α) :
    (ofExcept x).under policy = Recording.ofExcept x := by
  funext seen
  cases x with
  | error e => rfl
  | ok a => exact congrArg (fun recorded => Except.ok (a, recorded)) (List.append_nil seen)

theorem under_fail (e : Failure) :
    (fail e : Diagnosed α).under policy = Recording.ofExcept (.error e) := rfl

/-- A warning is recorded, or ends the run. -/
theorem under_warn (w : Warning) : (warn w).under policy = Recording.warn policy w := by
  funext seen
  rw [under, enforce, warn, Recording.warn, Policy.record, List.find?_singleton]
  cases policy.isFatal w <;> rfl

/-- The second run starts from the warnings of the first, and is not made when the first fails. -/
theorem under_bind (d : Diagnosed α) (next : α → Diagnosed β) :
    (d >>= next).under policy = d.under policy >>= fun a => (next a).under policy := by
  funext seen
  have hchain : (d.under policy >>= fun a => (next a).under policy) seen =
      (d.under policy seen >>= fun (a, recorded) => (next a).under policy recorded) := rfl
  rw [hchain, under, under, enforce_bind]
  cases d.enforce policy with
  | error e => rfl
  -- Both sides run the second step; only the brackets of the recorded warnings differ.
  | ok r =>
    show (((next r.model).enforce policy).map _).map _ = ((next r.model).enforce policy).map _
    cases (next r.model).enforce policy with
    | error e => rfl
    | ok s =>
      exact congrArg (fun recorded => Except.ok (s.model, recorded))
        (List.append_assoc seen r.warnings s.warnings).symm

/-- The elements of a list are run one after another. -/
theorem under_mapM {ι : Type} (f : ι → Diagnosed α) (xs : List ι) :
    (xs.mapM f).under policy = xs.mapM fun x => (f x).under policy := by
  induction xs with
  | nil => exact under_pure []
  | cons x xs ih => simp only [List.mapM_cons, under_bind, under_pure, ih]

/-- From no warnings on, a run has the result of applying the policy afterwards. -/
theorem resolved_under (d : Diagnosed α) : (d.under policy).resolved = d.enforce policy := by
  rw [Recording.resolved, under]
  cases d.enforce policy with
  | error e => rfl
  | ok r => rfl

end Diagnosed

/-! ## Fields -/

namespace FieldDecl

variable {policy : Policy}

/-- Plans one function of a field. -/
def recordFunction (policy : Policy) (f : FieldDecl) (path : EntityPath) (k : RegisterKind)
    (others : List FieldDecl) (function : AccessFunction) : Recording Accessor := do
  match k.missing? function with
  | some required => Recording.ofExcept (.error (.access ⟨path, function, required⟩))
  | none =>
    Recording.ofExcept ((f.checkLanes others function).mapError Failure.fault)
    match f.hazard? path others function with
    | some w => Recording.warn policy w
    | none => pure ⟨⟩
    return f.accessor k function

/-- Plans a field, one function after another. -/
def record (policy : Policy) (f : FieldDecl) (path : EntityPath) (k : RegisterKind)
    (others : List FieldDecl) : Recording (List Accessor) :=
  f.planned.mapM (f.recordFunction policy path k others)

theorem recordFunction_eq (f : FieldDecl) (path : EntityPath) (k : RegisterKind)
    (others : List FieldDecl) (function : AccessFunction) :
    f.recordFunction policy path k others function =
      (f.planFunction path k others function).under policy := by
  rw [recordFunction, planFunction]
  -- Each branch of a match holds the rest of the chain, so the cases are split first.
  cases k.missing? function with
  | some required => exact (Diagnosed.under_fail _).symm
  | none =>
    cases f.hazard? path others function with
    | some w =>
      simp only [Diagnosed.under_bind, Diagnosed.under_ofExcept, Diagnosed.under_warn,
        Diagnosed.under_pure]
    | none => simp only [Diagnosed.under_bind, Diagnosed.under_ofExcept, Diagnosed.under_pure]

theorem record_eq (f : FieldDecl) (path : EntityPath) (k : RegisterKind)
    (others : List FieldDecl) :
    f.record policy path k others = (f.plan path k others).under policy := by
  rw [plan, Diagnosed.under_mapM, record]
  exact mapM_congr_of_mem fun function _ => f.recordFunction_eq path k others function

end FieldDecl

/-! ## Registers -/

namespace RegisterDecl

variable {policy : Policy}

/-- Plans the field at position `i` of a register. -/
def recordField (policy : Policy) (r : RegisterDecl) (path : EntityPath) (f : FieldDecl) (i : Nat) :
    Recording Field := do
  let fieldPath := path.child f.name
  let accessors ← f.record policy fieldPath r.kind (r.fields.eraseIdx i)
  return ⟨fieldPath, f, accessors⟩

/-- Plans a register, one field after another. -/
def record (policy : Policy) (r : RegisterDecl) (path : EntityPath) (address : RegisterAddress) :
    Recording Register := do
  let fields ← r.fields.zipIdx.mapM fun (f, i) => r.recordField policy path f i
  return {
    path, address, fields,
    name := r.name
    description := r.description
    comment := r.comment
    kind := r.kind
    writeEvent := r.writeEvent
    requested := r.address }

theorem recordField_eq (r : RegisterDecl) (path : EntityPath) (f : FieldDecl) (i : Nat) :
    r.recordField policy path f i = (r.resolveField path f i).under policy := by
  simp only [recordField, resolveField, Diagnosed.under_bind, Diagnosed.under_pure,
    FieldDecl.record_eq]

theorem record_eq (r : RegisterDecl) (path : EntityPath) (address : RegisterAddress) :
    r.record policy path address = (r.resolve path address).under policy := by
  simp only [record, resolve, Diagnosed.under_bind, Diagnosed.under_mapM, Diagnosed.under_pure,
    recordField_eq]

end RegisterDecl

/-! ## Register sets and buses -/

namespace RegisterSetDecl

/-- Resolves a register set, one register after another once all have addresses. -/
def record (policy : Policy) (d : RegisterSetDecl) : Recording RegisterSet := do
  Recording.ofExcept d.check
  let addresses ← Recording.ofExcept d.addresses
  let registers ← (d.registers.zip addresses).mapM fun (r, address) =>
    r.record policy (d.registerPath r) address
  let addressSize ← Recording.ofExcept
    ((BusMap.addressSize d.portSize addresses).mapError Failure.fault)
  return {
    registers, addressSize,
    name := d.name
    baseAddress := d.baseAddress
    portSize := d.portSize }

/-- A register set is resolved alike, whether warnings are promoted where they are raised or
afterwards. -/
theorem resolved_record (policy : Policy) (d : RegisterSetDecl) :
    (d.record policy).resolved = d.resolveWith policy := by
  have hrun : d.record policy = d.resolve.under policy := by
    simp only [record, resolve, resolveRegisters, Diagnosed.under_bind, Diagnosed.under_mapM,
      Diagnosed.under_ofExcept, Diagnosed.under_pure, RegisterDecl.record_eq]
  rw [hrun, Diagnosed.resolved_under, resolveWith]

end RegisterSetDecl

namespace BusDecl

/-- Resolves a bus. Address sizes are compared before the slaves are placed. -/
def record (policy : Policy) (d : BusDecl) : Recording Bus := do
  Recording.ofExcept d.check
  match d.sizeMismatch? with
  | some w => Recording.warn policy w
  | none => pure ⟨⟩
  Recording.ofExcept d.connect

/-- A bus is resolved alike, whether its warning is promoted where it is raised or afterwards. -/
theorem resolved_record (policy : Policy) (d : BusDecl) :
    (d.record policy).resolved = d.resolveWith policy := by
  have hrun : d.record policy = d.resolve.under policy := by
    rw [record, resolve]
    cases d.sizeMismatch? with
    | some w => simp only [Diagnosed.under_bind, Diagnosed.under_ofExcept, Diagnosed.under_warn]
    | none => simp only [Diagnosed.under_bind, Diagnosed.under_ofExcept]
  rw [hrun, Diagnosed.resolved_under, resolveWith]

end BusDecl

end BusMap
