import BusMap.Bus.Resolve
import BusMap.Proofs.Placement.Layout
import BusMap.Register.Resolve

/-!
# What resolution raises, and about which entities

Errors and warnings name entities by their paths. The paths of a declaration are a scope, and a
computation stays in it when every warning that it raises and every failure that it ends with names
entities of the scope only (`Diagnosed.StaysIn`). A chain stays in the scope of its steps, so that
each check is given the scope of what it checks and asks only that the entities below are in it.

What resolution raises itself is never a rejected text nor a promoted warning
(`Failure.RaisedIn`); warnings are promoted by a policy afterwards. Resolving a register set stays
among the set, its registers and their fields (`RegisterSetDecl.staysIn_resolve`), and resolving a
bus among the bus and its nodes (`BusDecl.staysIn_resolve`).
-/

set_option autoImplicit false

namespace BusMap

variable {scope : EntityPath → Prop}

/-! ## Failures -/

/-- The error is not a promoted warning. -/
def StructuralError.Unpromoted (e : StructuralError) : Prop := ∀ w, e ≠ .warningPromoted w

/-- A check raises the error about an entity of the scope. -/
structure StructuralError.RaisedIn (scope : EntityPath → Prop) (e : StructuralError) : Prop where
  path : scope e.path
  unpromoted : e.Unpromoted

/-- Both entities of an overlap are in the scope, and so is the entity of any other conflict. -/
def Conflict.RaisedIn (scope : EntityPath → Prop) : Conflict → Prop
  | .misaligned path _ _ => scope path
  | .overlap path _ other _ => scope path ∧ scope other
  | .overflow path _ _ => scope path

/-- Resolution raises the failure about entities of the scope, if it is no fault. -/
def Failure.RaisedIn (scope : EntityPath → Prop) : Failure → Prop
  | .error (.structural cause) => cause.RaisedIn scope
  | .error (.access cause) => scope cause.path
  | .error (.conflict cause) => cause.RaisedIn scope
  | .error (.description _) => False
  | .fault _ => True

section Classes

variable {α : Type}

theorem raisedIn_fault (x : Except Fault α) :
    FailsOnly (Failure.RaisedIn scope) (x.mapError Failure.fault) :=
  .mapError fun _ _ => trivial

theorem raisedIn_structural {x : Except StructuralError α}
    (h : FailsOnly (StructuralError.RaisedIn scope) x) :
    FailsOnly (Failure.RaisedIn scope) (x.mapError Failure.structural) :=
  .mapError h

theorem raisedIn_conflict {x : Except Conflict α} (h : FailsOnly (Conflict.RaisedIn scope) x) :
    FailsOnly (Failure.RaisedIn scope) (x.mapError Failure.conflict) :=
  .mapError h

end Classes

/-! ## Warnings -/

namespace Diagnosed

universe u

variable {α β : Type u}

/-- All warnings and the failure, if there is one, name entities of the scope. -/
structure StaysIn (scope : EntityPath → Prop) (d : Diagnosed α) : Prop where
  warnings : ∀ w ∈ d.warnings, scope w.path
  failure : FailsOnly (Failure.RaisedIn scope) d.outcome

theorem staysIn_pure (a : α) : (pure a : Diagnosed α).StaysIn scope where
  warnings := by simp [pure, Diagnosed.pure]
  failure := .ok a

theorem staysIn_ofExcept {x : Except Failure α} (h : FailsOnly (Failure.RaisedIn scope) x) :
    (ofExcept x).StaysIn scope where
  warnings := by simp [ofExcept]
  failure := h

theorem staysIn_warn {w : Warning} (h : scope w.path) : (warn w).StaysIn scope where
  warnings := by simpa [warn] using h
  failure := .ok _

/-- A chain stays in the scope of its steps; the second step is only run on values of the first. -/
theorem StaysIn.bind {d : Diagnosed α} {next : α → Diagnosed β} (hd : d.StaysIn scope)
    (hnext : ∀ a, d.outcome = .ok a → (next a).StaysIn scope) : (d >>= next).StaysIn scope := by
  obtain ⟨warnings, outcome⟩ := d
  cases outcome with
  | error e => exact ⟨hd.warnings, fun e' he => hd.failure e' (by cases he; rfl)⟩
  | ok a =>
    have ha := hnext a rfl
    refine ⟨fun w hw => ?_, ha.failure⟩
    rcases List.mem_append.1 hw with hw | hw
    · exact hd.warnings w hw
    · exact ha.warnings w hw

theorem StaysIn.mapM {ι : Type u} {f : ι → Diagnosed α} {xs : List ι}
    (h : ∀ x ∈ xs, (f x).StaysIn scope) : (xs.mapM f).StaysIn scope := by
  induction xs with
  | nil => exact staysIn_pure []
  | cons x xs ih =>
    rw [List.mapM_cons]
    rcases List.forall_mem_cons.1 h with ⟨hx, hxs⟩
    apply hx.bind
    intro y _
    apply (ih hxs).bind
    intro ys _
    exact staysIn_pure (y :: ys)

end Diagnosed

/-! ## Names -/

theorem raisedIn_checkName {path : EntityPath} (h : scope path) :
    FailsOnly (StructuralError.RaisedIn scope) (checkName path) := by
  rw [checkName]
  split
  · exact .error ⟨h, fun _ => StructuralError.noConfusion⟩
  · exact .ok _

/-- A flaw of a name is about the child, and two names that do not go together about the parent. -/
theorem raisedIn_checkSiblings {parent : EntityPath} {kind : SiblingClass} {names : List String}
    (hparent : scope parent) (hnames : ∀ name ∈ names, scope (parent.child name)) :
    FailsOnly (StructuralError.RaisedIn scope) (checkSiblings parent kind names) := by
  rw [checkSiblings]
  -- The names seen before vary along the list.
  generalize ([] : List (String × String)) = seen
  induction names generalizing seen with
  | nil => exact .ok _
  | cons name names ih =>
    rcases List.forall_mem_cons.1 hnames with ⟨hname, hnames⟩
    rw [checkSiblingsFrom]
    apply (raisedIn_checkName hname).bind
    intro _ _
    dsimp only
    split
    · split
      · exact .error ⟨hparent, fun _ => StructuralError.noConfusion⟩
      · exact .error ⟨hparent, fun _ => StructuralError.noConfusion⟩
    · exact ih hnames _

/-! ## Placement -/

namespace Allocator

variable {a b : Allocator}

/-- Everything placed so far is in the scope. -/
def PlacedIn (scope : EntityPath → Prop) (a : Allocator) : Prop := ∀ p ∈ a.placed, scope p.path

theorem placedIn_empty (alignmentBits : Nat) : (empty alignmentBits).PlacedIn scope := by
  simp [PlacedIn, empty]

theorem PlacedIn.commit (h : a.PlacedIn scope) {path : EntityPath} (hpath : scope path)
    (range : Interval) : (a.commit path range).PlacedIn scope := by
  simp only [PlacedIn, placed_commit, List.forall_mem_append, List.forall_mem_singleton]
  exact ⟨h, hpath⟩

theorem raisedIn_granted {served : Except Conflict Interval × Allocator}
    (h : FailsOnly (Conflict.RaisedIn scope) served.1) :
    FailsOnly (Conflict.RaisedIn scope) (granted served) := by
  rcases served with ⟨cause | range, c⟩
  · exact .error (h cause rfl)
  · exact .ok _

/-- A fixed request is rejected for itself, or for one that was placed before it. -/
theorem raisedIn_placeAt (h : a.PlacedIn scope) {path : EntityPath} (hpath : scope path)
    (address size : Nat) : FailsOnly (Conflict.RaisedIn scope) (a.placeAt path address size).1 := by
  rw [placeAt]
  split
  · exact .error hpath
  split
  · exact .error hpath
  split
  · rename_i other hblocker
    exact .error ⟨hpath, h other (List.mem_of_find?_eq_some hblocker)⟩
  · exact .ok _

theorem raisedIn_placeNext {path : EntityPath} (hpath : scope path) (size : Nat) :
    FailsOnly (Conflict.RaisedIn scope) (a.placeNext path size).1 := by
  rw [placeNext]
  split
  · exact .error hpath
  · exact .ok _

/-- The first pass stays in the scope of its requests and leaves an allocator that does. The
allocator varies: each request is compared with those placed before it. -/
theorem raisedIn_placeFixed {rs : List Request} (hrs : ∀ r ∈ rs, scope r.path)
    (h : a.PlacedIn scope) :
    FailsOnly (Conflict.RaisedIn scope) (a.placeFixed rs) ∧
      ∀ marks b, a.placeFixed rs = .ok (marks, b) → b.PlacedIn scope := by
  induction rs generalizing a with
  | nil =>
    refine ⟨.ok _, fun marks b hplaced => ?_⟩
    cases hplaced
    exact h
  | cons r rs ih =>
    rcases List.forall_mem_cons.1 hrs with ⟨hr, hrs⟩
    cases haddress : r.address with
    | auto =>
      refine ⟨?_, fun marks b hplaced => ?_⟩
      · rw [placeFixed, haddress]
        exact (ih hrs h).1.bind fun _ _ => .ok _
      · rcases (placeFixed_cons_of_auto haddress).1 hplaced with ⟨rest, hrest, -⟩
        exact (ih hrs h).2 rest b hrest
    | fixed address =>
      -- What the request commits is its own path.
      have hnext : ∀ range c, a.placeAt r.path address r.size = (.ok range, c) →
          c.PlacedIn scope := by
        intro range c hplace
        rcases placeAt_eq_ok_iff.1 hplace with ⟨-, -, -, -, -, rfl⟩
        exact h.commit hr range
      refine ⟨?_, fun marks b hplaced => ?_⟩
      · rw [placeFixed, haddress]
        apply (raisedIn_granted (raisedIn_placeAt h hr address r.size)).bind
        rintro ⟨range, c⟩ hplace
        exact (ih hrs (hnext range c (granted_eq_ok_iff.1 hplace))).1.bind fun _ _ => .ok _
      · rcases (placeFixed_cons_of_fixed haddress).1 hplaced with ⟨range, c, rest, hplace, hrest, -⟩
        exact (ih hrs (hnext range c hplace)).2 rest b hrest

/-- An open request meets nothing, so that the second pass only names its own requests. -/
theorem raisedIn_placeOpen {work : List (Request × Option Interval)}
    (hwork : ∀ entry ∈ work, scope entry.1.path) :
    FailsOnly (Conflict.RaisedIn scope) (a.placeOpen work) := by
  induction work generalizing a with
  | nil => exact .ok _
  | cons entry work ih =>
    rw [List.forall_mem_cons] at hwork
    rcases hwork with ⟨hentry, hwork⟩
    rcases entry with ⟨r, _ | range⟩
    · rw [placeOpen]
      apply (raisedIn_granted (raisedIn_placeNext hentry r.size)).bind
      rintro ⟨range, c⟩ _
      exact (ih hwork).bind fun _ _ => .ok _
    · rw [placeOpen]
      exact (ih hwork).bind fun _ _ => .ok _

end Allocator

theorem raisedIn_place {requests : List Request} (h : ∀ r ∈ requests, scope r.path)
    (alignmentBits : Nat) :
    FailsOnly (Conflict.RaisedIn scope) (place alignmentBits requests) := by
  rw [place]
  apply (Allocator.raisedIn_placeFixed h (Allocator.placedIn_empty alignmentBits)).1.bind
  rintro ⟨marks, a⟩ _
  apply Allocator.raisedIn_placeOpen
  rintro ⟨r, mark⟩ hentry
  exact h r (List.of_mem_zip hentry).1

/-! ## Fields -/

namespace FieldDecl

variable {path : EntityPath} {portSize : Nat} {f : FieldDecl}

theorem raisedIn_checkBits (h : scope path) :
    FailsOnly (StructuralError.RaisedIn scope) (f.checkBits path portSize) := by
  rw [checkBits]
  split
  · exact .error ⟨h, fun _ => StructuralError.noConfusion⟩
  split
  · exact .error ⟨h, fun _ => StructuralError.noConfusion⟩
  · exact .ok _

theorem raisedIn_checkWidth (h : scope path) (width : Nat) :
    FailsOnly (StructuralError.RaisedIn scope) (f.checkWidth path width) := by
  rw [checkWidth]
  split
  · exact .error ⟨h, fun _ => StructuralError.noConfusion⟩
  split
  · exact .error ⟨h, fun _ => StructuralError.noConfusion⟩
  · exact .ok _

theorem raisedIn_checkDefault (h : scope path) (range : Int × Int) :
    FailsOnly (StructuralError.RaisedIn scope) (f.checkDefault path range) := by
  rw [checkDefault]
  split
  · exact .error ⟨h, fun _ => StructuralError.noConfusion⟩
  · exact .ok _

theorem raisedIn_check (h : scope path) :
    FailsOnly (Failure.RaisedIn scope) (f.check path portSize) := by
  rw [check]
  apply (raisedIn_structural (raisedIn_checkBits h)).bind
  intro _ _
  apply (raisedIn_fault _).bind
  intro width _
  apply (raisedIn_structural (raisedIn_checkWidth h width)).bind
  intro _ _
  apply (raisedIn_fault _).bind
  intro range _
  exact raisedIn_structural (raisedIn_checkDefault h range)

theorem raisedIn_checkApart (h : scope path) (g : FieldDecl) :
    FailsOnly (Failure.RaisedIn scope) (f.checkApart path g) := by
  rw [checkApart]
  apply (raisedIn_fault _).bind
  intro shared _
  split
  · exact .ok _
  · exact .error ⟨h, fun _ => StructuralError.noConfusion⟩

theorem staysIn_planFunction (h : scope path) (k : RegisterKind) (others : List FieldDecl)
    (function : AccessFunction) : (f.planFunction path k others function).StaysIn scope := by
  rw [planFunction]
  split
  · exact Diagnosed.staysIn_ofExcept (.error h)
  apply (Diagnosed.staysIn_ofExcept (raisedIn_fault _)).bind
  intro _ _
  split
  · rename_i w hw
    have hwarn : scope w.path := (path_of_hazard? hw).symm ▸ h
    exact (Diagnosed.staysIn_warn hwarn).bind fun _ _ => Diagnosed.staysIn_pure _
  · exact (Diagnosed.staysIn_pure PUnit.unit).bind fun _ _ => Diagnosed.staysIn_pure _

end FieldDecl

/-! ## Registers -/

theorem raisedIn_checkDisjoint {path : EntityPath} (h : scope path) (fs : List FieldDecl) :
    FailsOnly (Failure.RaisedIn scope) (checkDisjoint path fs) := by
  induction fs with
  | nil => exact .ok _
  | cons f fs ih =>
    rw [checkDisjoint]
    apply (FailsOnly.forM fun g _ => f.raisedIn_checkApart h g).bind
    intro _ _
    exact ih

namespace RegisterDecl

variable {path : EntityPath} {r : RegisterDecl}

theorem raisedIn_check (h : scope path) (hfields : ∀ f ∈ r.fields, scope (path.child f.name))
    (portSize : Nat) : FailsOnly (Failure.RaisedIn scope) (r.check path portSize) := by
  rw [check]
  apply (raisedIn_structural (raisedIn_checkSiblings h (List.forall_mem_map.2 hfields))).bind
  intro _ _
  refine FailsOnly.bind (FailsOnly.forM ?_) ?_
  · intro f hf
    exact f.raisedIn_check (hfields f hf)
  · intro _ _
    exact raisedIn_checkDisjoint h r.fields

theorem staysIn_resolve (hfields : ∀ f ∈ r.fields, scope (path.child f.name))
    (address : RegisterAddress) : (r.resolve path address).StaysIn scope := by
  rw [resolve]
  apply (Diagnosed.StaysIn.mapM ?_).bind
  · intro fields _
    exact Diagnosed.staysIn_pure _
  rintro ⟨f, i⟩ hentry
  have hf := hfields f (List.fst_mem_of_mem_zipIdx hentry)
  apply (Diagnosed.StaysIn.mapM fun function _ => f.staysIn_planFunction hf _ _ function).bind
  intro accessors _
  exact Diagnosed.staysIn_pure _

end RegisterDecl

theorem RegisterAddress.raisedIn_at {path : EntityPath} (h : scope path) (base : Nat)
    (range : Interval) :
    FailsOnly (Failure.RaisedIn scope) (RegisterAddress.at base path range) := by
  rw [RegisterAddress.at]
  split
  · exact (raisedIn_fault _).bind fun _ _ => .ok _
  · rw [overflowBeyond]
    split
    · exact .error h
    · exact .error trivial

/-! ## Register sets -/

namespace RegisterSetDecl

variable {d : RegisterSetDecl} {r : RegisterDecl}

/-- The path leads to the set, to a register of the set or to a field of one. -/
def IsEntity (d : RegisterSetDecl) (path : EntityPath) : Prop :=
  path.segments = [d.name] ∨
    ∃ r ∈ d.registers, path.segments = [d.name, r.name] ∨
      ∃ f ∈ r.fields, path.segments = [d.name, r.name, f.name]

theorem isEntity_path : d.IsEntity d.path := Or.inl rfl

theorem isEntity_registerPath (hr : r ∈ d.registers) : d.IsEntity (d.registerPath r) :=
  Or.inr ⟨r, hr, Or.inl rfl⟩

theorem isEntity_fieldPath (hr : r ∈ d.registers) {f : FieldDecl} (hf : f ∈ r.fields) :
    d.IsEntity ((d.registerPath r).child f.name) :=
  Or.inr ⟨r, hr, Or.inr ⟨f, hf, rfl⟩⟩

theorem raisedIn_check : FailsOnly (Failure.RaisedIn d.IsEntity) d.check := by
  rw [check]
  apply (raisedIn_structural (raisedIn_checkName isEntity_path)).bind
  intro _ _
  apply FailsOnly.bind (raisedIn_structural ?_)
  · intro _ _
    apply FailsOnly.bind (raisedIn_structural (raisedIn_checkSiblings isEntity_path ?_))
    · intro _ _
      apply FailsOnly.forM
      intro r hr
      exact r.raisedIn_check (isEntity_registerPath hr) (fun f hf => isEntity_fieldPath hr hf) _
    · rw [List.forall_mem_map]
      intro r hr
      exact isEntity_registerPath hr
  · rw [checkPortSize]
    split
    · exact .ok _
    · exact .error ⟨isEntity_path, fun _ => StructuralError.noConfusion⟩

theorem isEntity_of_mem_requests {request : Request} (h : request ∈ d.requests) :
    d.IsEntity request.path := by
  rw [requests, List.mem_map] at h
  rcases h with ⟨r, hr, rfl⟩
  exact isEntity_registerPath hr

theorem raisedIn_addresses : FailsOnly (Failure.RaisedIn d.IsEntity) d.addresses := by
  rw [addresses, ranges]
  apply FailsOnly.bind
  · apply (raisedIn_fault _).bind
    intro alignmentBits _
    exact raisedIn_conflict (raisedIn_place (fun _ => isEntity_of_mem_requests) alignmentBits)
  · intro ranges _
    apply FailsOnly.mapM
    rintro ⟨request, range⟩ hentry
    exact RegisterAddress.raisedIn_at (isEntity_of_mem_requests (List.of_mem_zip hentry).1) _ _

/-- Resolving a register set stays among the set, its registers and their fields. -/
theorem staysIn_resolve : d.resolve.StaysIn d.IsEntity := by
  rw [resolve]
  apply (Diagnosed.staysIn_ofExcept raisedIn_check).bind
  intro _ _
  apply (Diagnosed.staysIn_ofExcept raisedIn_addresses).bind
  intro addresses _
  apply (Diagnosed.StaysIn.mapM ?_).bind
  · intro registers _
    apply (Diagnosed.staysIn_ofExcept (raisedIn_fault _)).bind
    intro size _
    exact Diagnosed.staysIn_pure _
  rintro ⟨r, address⟩ hentry
  have hr := (List.of_mem_zip hentry).1
  exact r.staysIn_resolve (fun f hf => isEntity_fieldPath hr hf) address

end RegisterSetDecl

/-! ## Buses -/

theorem Shape.raisedIn_check {path : EntityPath} (h : scope path) (s : Shape) :
    FailsOnly (Failure.RaisedIn scope) (s.check path) := by
  rw [check]
  split
  · exact .error ⟨h, fun _ => StructuralError.noConfusion⟩
  split
  · exact .error ⟨h, fun _ => StructuralError.noConfusion⟩
  split
  · exact .error ⟨h, fun _ => StructuralError.noConfusion⟩
  apply (raisedIn_fault _).bind
  intro low _
  split
  · exact .error ⟨h, fun _ => StructuralError.noConfusion⟩
  · exact .ok _

namespace BusDecl

variable {d : BusDecl}

/-- The path leads to the bus, to one of its masters or to one of its slaves. -/
def IsEntity (d : BusDecl) (path : EntityPath) : Prop :=
  path.segments = [d.name] ∨ (∃ m ∈ d.masters, path.segments = [d.name, m.name]) ∨
    ∃ s ∈ d.slaves, path.segments = [d.name, s.name]

theorem isEntity_path : d.IsEntity d.path := Or.inl rfl

theorem isEntity_masterPath {m : MasterDecl} (hm : m ∈ d.masters) :
    d.IsEntity (d.path.child m.name) :=
  Or.inr (Or.inl ⟨m, hm, rfl⟩)

theorem isEntity_slavePath {s : SlaveDecl} (hs : s ∈ d.slaves) :
    d.IsEntity (d.path.child s.name) :=
  Or.inr (Or.inr ⟨s, hs, rfl⟩)

theorem raisedIn_check : FailsOnly (Failure.RaisedIn d.IsEntity) d.check := by
  rw [check]
  apply (raisedIn_structural (raisedIn_checkName isEntity_path)).bind
  intro _ _
  apply FailsOnly.bind (raisedIn_structural ?_)
  · intro _ _
    have hmasters : ∀ name ∈ d.masters.map (·.name), d.IsEntity (d.path.child name) :=
      List.forall_mem_map.2 fun m hm => isEntity_masterPath hm
    have hslaves : ∀ name ∈ d.slaves.map (·.name), d.IsEntity (d.path.child name) :=
      List.forall_mem_map.2 fun s hs => isEntity_slavePath hs
    apply (raisedIn_structural (raisedIn_checkSiblings isEntity_path hmasters)).bind
    intro _ _
    apply (raisedIn_structural (raisedIn_checkSiblings isEntity_path hslaves)).bind
    intro _ _
    apply FailsOnly.forM
    rintro ⟨name, shape⟩ hnode
    apply shape.raisedIn_check
    -- A node is a master or a slave, and is reported by its name.
    rcases List.mem_append.1 hnode with hnode | hnode
    · rcases List.mem_map.1 hnode with ⟨m, hm, heq⟩
      cases heq
      exact isEntity_masterPath hm
    · rcases List.mem_map.1 hnode with ⟨s, hs, heq⟩
      cases heq
      exact isEntity_slavePath hs
  · rw [checkInhabited]
    split
    · exact .error ⟨isEntity_path, fun _ => StructuralError.noConfusion⟩
    · exact .ok _

/-- A slave asks for its window under its own path. -/
theorem path_of_request {path : EntityPath} {low : Nat} {s : SlaveDecl} {request : Request}
    (h : s.request path low = .ok request) : request.path = path.child s.name := by
  rw [SlaveDecl.request] at h
  split at h
  · cases h
    rfl
  · cases h

theorem raisedIn_request {s : SlaveDecl} (hs : s ∈ d.slaves) (low : Nat) :
    FailsOnly (Conflict.RaisedIn d.IsEntity) (s.request d.path low) := by
  rw [SlaveDecl.request]
  split
  · exact .ok _
  · exact .error (isEntity_slavePath hs)

theorem raisedIn_windows (low : Nat) :
    FailsOnly (Failure.RaisedIn d.IsEntity) (d.windows low) := by
  rw [BusDecl.windows]
  apply (raisedIn_conflict (FailsOnly.mapM fun s hs => raisedIn_request hs low)).bind
  intro requests hrequests
  apply (raisedIn_fault _).bind
  intro alignmentBits _
  apply raisedIn_conflict (raisedIn_place ?_ alignmentBits)
  intro request hrequest
  rw [mapError_eq_ok_iff, mapM_eq_ok_iff] at hrequests
  rcases exists_mem_of_forall₂ hrequests hrequest with ⟨s, hs, hrequested⟩
  rw [path_of_request hrequested]
  exact isEntity_slavePath hs

theorem raisedIn_connect : FailsOnly (Failure.RaisedIn d.IsEntity) d.connect := by
  rw [connect]
  apply (raisedIn_fault _).bind
  intro low _
  apply (raisedIn_windows low).bind
  intro windows _
  apply FailsOnly.bind
  · apply FailsOnly.mapM
    intro m _
    exact (raisedIn_fault _).bind fun _ _ => .ok _
  · intro masters _
    exact (raisedIn_fault _).bind fun _ _ => .ok _

/-- Resolving a bus stays among the bus, its masters and its slaves. -/
theorem staysIn_resolve : d.resolve.StaysIn d.IsEntity := by
  rw [resolve]
  apply (Diagnosed.staysIn_ofExcept raisedIn_check).bind
  intro _ _
  have hconnect := Diagnosed.staysIn_ofExcept (raisedIn_connect (d := d))
  split
  · rename_i w hw
    have hpath : w.path = d.path := by
      rw [sizeMismatch?] at hw
      split at hw
      · rcases Option.ite_none_right_eq_some.1 hw with ⟨-, hw⟩
        cases hw
        rfl
      · cases hw
    have hwarn : d.IsEntity w.path := hpath.symm ▸ isEntity_path
    exact (Diagnosed.staysIn_warn hwarn).bind fun _ _ => hconnect
  · exact (Diagnosed.staysIn_pure PUnit.unit).bind fun _ _ => hconnect

end BusDecl

end BusMap
