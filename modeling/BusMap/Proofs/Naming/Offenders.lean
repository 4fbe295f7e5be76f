import BusMap.Proofs.Naming.Siblings

/-!
# Which of some siblings is blamed

The check of siblings goes from name to name and stops at the first one that cannot follow those
before it (`IsOffender`). What it says of that name is one of three things (`Offends`): that the
name is not usable, that it is there already, or that another name has its identifier. As the names
before it have been accepted, there is only one such other name (`checkSiblings_blames_first`).
-/

set_option autoImplicit false

namespace BusMap

open Identifier

/-! ## Offenders -/

/-- Names with the identifier of the given one. -/
def namesakes (earlier : List String) (name : String) : List String :=
  earlier.filter fun other => ofName .snake other = ofName .snake name

/-- The name cannot follow the earlier ones: it is not usable, or one of them has its identifier. -/
def IsOffender (parent : EntityPath) (earlier : List String) (name : String) : Prop :=
  checkName (parent.child name) ≠ .ok () ∨
    ∃ other ∈ earlier, ofName .snake other = ofName .snake name

/-- What is said of a name that cannot follow the earlier ones. -/
inductive Offends (parent : EntityPath) (kind : SiblingClass) (earlier : List String)
    (name : String) : StructuralError → Prop
  | invalid {flaw : NameFlaw}
      (h : checkName (parent.child name) = .error (.invalidName (parent.child name) flaw)) :
      Offends parent kind earlier name (.invalidName (parent.child name) flaw)
  | duplicate (husable : checkName (parent.child name) = .ok ())
      (h : namesakes earlier name = [name]) :
      Offends parent kind earlier name (.duplicateName parent kind name)
  | collision {other : String} (husable : checkName (parent.child name) = .ok ())
      (h : namesakes earlier name = [other]) (hne : other ≠ name) :
      Offends parent kind earlier name
        (.nameCollision parent kind other name (ofName .snake name))

variable {parent : EntityPath} {kind : SiblingClass} {earlier names : List String}
  {name other : String} {e : StructuralError}

/-- Only one thing is said of a name. -/
theorem Offends.unique {e' : StructuralError} (h : Offends parent kind earlier name e)
    (h' : Offends parent kind earlier name e') : e = e' := by
  cases h with
  | invalid h =>
    cases h' with
    | invalid h' => exact Except.error.inj (h.symm.trans h')
    | duplicate husable => exact nomatch h.symm.trans husable
    | collision husable => exact nomatch h.symm.trans husable
  | duplicate husable h =>
    cases h' with
    | invalid h' => exact nomatch husable.symm.trans h'
    | duplicate => rfl
    | collision _ h' hne => exact absurd (List.cons.inj (h'.symm.trans h)).1 hne
  | collision husable h hne =>
    cases h' with
    | invalid h' => exact nomatch husable.symm.trans h'
    | duplicate _ h' => exact absurd (List.cons.inj (h.symm.trans h')).1 hne
    | collision _ h' => rw [(List.cons.inj (h.symm.trans h')).1]

theorem exists_of_checkName_eq_error {path : EntityPath} (h : checkName path = .error e) :
    ∃ flaw, e = .invalidName path flaw := by
  rw [checkName] at h
  split at h
  · rename_i flaw _
    exact ⟨flaw, (Except.error.inj h).symm⟩
  · cases h

theorem namesakes_eq_nil_iff :
    namesakes earlier name = [] ↔
      ∀ other ∈ earlier, ofName .snake other ≠ ofName .snake name := by
  simp [namesakes, List.filter_eq_nil_iff]

/-- Among names with different identifiers, only one has that of a further name. -/
theorem namesakes_eq_singleton (hdistinct : (earlier.map (ofName .snake)).Nodup)
    (hmem : other ∈ earlier) (hsame : ofName .snake other = ofName .snake name) :
    namesakes earlier name = [other] := by
  obtain ⟨pre, post, rfl⟩ := List.append_of_mem hmem
  rw [List.map_append, List.map_cons, List.nodup_middle, List.nodup_cons, List.mem_append,
    not_or, hsame] at hdistinct
  obtain ⟨⟨hpre, hpost⟩, -⟩ := hdistinct
  have hpre' : namesakes pre name = [] :=
    namesakes_eq_nil_iff.2 fun other hother heq => hpre (List.mem_map.2 ⟨other, hother, heq⟩)
  have hpost' : namesakes post name = [] :=
    namesakes_eq_nil_iff.2 fun other hother heq => hpost (List.mem_map.2 ⟨other, hother, heq⟩)
  rw [namesakes] at hpre' hpost' ⊢
  rw [List.filter_append, hpre', List.nil_append, List.filter_cons_of_pos (by simpa using hsame),
    hpost']

/-! ## One name -/

/-- What the loop has kept of the names that it has accepted. -/
def kept (earlier : List String) : List (String × String) :=
  earlier.map fun name => (name, ofName .snake name)

/-- A name is checked by itself, and then for the first of its namesakes. -/
theorem checkSiblingsFrom_cons :
    checkSiblingsFrom parent kind (kept earlier) (name :: names) =
      checkName (parent.child name) >>= fun _ =>
        match (namesakes earlier name).head? with
        | some other =>
          if other = name then .error (.duplicateName parent kind name)
          else .error (.nameCollision parent kind other name (ofName .snake name))
        | none => checkSiblingsFrom parent kind (kept (earlier ++ [name])) names := by
  have hfind : ((kept earlier).find? fun entry => entry.2 = ofName .snake name) =
      (namesakes earlier name).head?.map fun other => (other, ofName .snake other) := by
    rw [kept, List.find?_map, namesakes, List.head?_filter, Function.comp_def]
  have hkept : kept (earlier ++ [name]) = kept earlier ++ [(name, ofName .snake name)] := by
    simp [kept]
  rw [checkSiblingsFrom, hkept]
  dsimp only
  rw [hfind]
  cases (namesakes earlier name).head? with
  | none => rfl
  | some other => rfl

/-- A name that can follow the earlier ones is kept. -/
theorem checkSiblingsFrom_of_not_isOffender (h : ¬ IsOffender parent earlier name) :
    checkSiblingsFrom parent kind (kept earlier) (name :: names) =
      checkSiblingsFrom parent kind (kept (earlier ++ [name])) names := by
  obtain ⟨husable, hnew⟩ := not_or.1 h
  have hnone : namesakes earlier name = [] :=
    namesakes_eq_nil_iff.2 fun other hother heq => hnew ⟨other, hother, heq⟩
  rw [checkSiblingsFrom_cons, not_not.1 husable, hnone]
  rfl

/-- A name that cannot follow the earlier ones ends the check, with what is said of it. -/
theorem exists_offends_of_isOffender (kind : SiblingClass) (names : List String)
    (hdistinct : (earlier.map (ofName .snake)).Nodup) (h : IsOffender parent earlier name) :
    ∃ e, Offends parent kind earlier name e ∧
      checkSiblingsFrom parent kind (kept earlier) (name :: names) = .error e := by
  rw [checkSiblingsFrom_cons]
  cases hname : checkName (parent.child name) with
  | error cause =>
    obtain ⟨flaw, rfl⟩ := exists_of_checkName_eq_error hname
    exact ⟨_, .invalid hname, rfl⟩
  | ok _ =>
    obtain ⟨other, hother, hsame⟩ := h.resolve_left (not_not_intro hname)
    have hsole := namesakes_eq_singleton hdistinct hother hsame
    rw [hsole, ok_bind, List.head?_cons]
    dsimp only
    by_cases hrepeated : other = name
    · subst hrepeated
      exact ⟨_, .duplicate hname hsole, if_pos rfl⟩
    · exact ⟨_, .collision hname hsole hrepeated, if_neg hrepeated⟩

/-! ## All names -/

theorem nodup_concat_of_not_isOffender (hdistinct : (earlier.map (ofName .snake)).Nodup)
    (h : ¬ IsOffender parent earlier name) :
    ((earlier ++ [name]).map (ofName .snake)).Nodup := by
  have hnew : ofName .snake name ∉ earlier.map (ofName .snake) := by
    intro hmem
    obtain ⟨other, hother, hsame⟩ := List.mem_map.1 hmem
    exact h (Or.inr ⟨other, hother, hsame⟩)
  rw [List.map_append, List.map_singleton, ← List.concat_eq_append]
  exact .concat hnew hdistinct

/-- The check fails with what is said of the first name that cannot follow those before it. -/
theorem checkSiblingsFrom_eq_error_iff (hdistinct : (earlier.map (ofName .snake)).Nodup) :
    checkSiblingsFrom parent kind (kept earlier) names = .error e ↔
      ∃ before name,
        IsFirst (fun before => IsOffender parent (earlier ++ before)) names before name ∧
          Offends parent kind (earlier ++ before) name e := by
  -- The earlier names vary: each accepted name joins those before the next ones.
  induction names generalizing earlier with
  | nil =>
    constructor
    · intro h
      cases h
    · rintro ⟨before, name, hfirst, -⟩
      obtain ⟨post, hsplit⟩ := hfirst.split
      cases before <;> cases hsplit
  | cons name names ih =>
    simp only [IsFirst.cons_iff, List.append_nil]
    by_cases hoffender : IsOffender parent earlier name
    · obtain ⟨cause, hoffends, hresult⟩ :=
        exists_offends_of_isOffender kind names hdistinct hoffender
      rw [hresult]
      constructor
      · intro h
        cases h
        refine ⟨[], name, Or.inl ⟨hoffender, rfl, rfl⟩, ?_⟩
        rwa [List.append_nil]
      · rintro ⟨before, other, ⟨-, rfl, rfl⟩ | ⟨hnot, -⟩, he⟩
        · rw [List.append_nil] at he
          rw [hoffends.unique he]
        · exact absurd hoffender hnot
    · rw [checkSiblingsFrom_of_not_isOffender hoffender,
        ih (nodup_concat_of_not_isOffender hdistinct hoffender)]
      simp only [List.append_assoc, List.singleton_append]
      constructor
      · rintro ⟨before, other, hfirst, he⟩
        exact ⟨name :: before, other, Or.inr ⟨hoffender, before, rfl, hfirst⟩, he⟩
      · rintro ⟨before, other, ⟨hhead, -⟩ | ⟨-, rest, rfl, hfirst⟩, he⟩
        · exact absurd hhead hoffender
        · exact ⟨rest, other, hfirst, he⟩

/-- **The first offender among siblings is blamed.** Siblings are accepted exactly when each of them
is usable and their snake identifiers differ. Otherwise the error is about the first one that is not
usable or has the identifier of an earlier one. It is the flaw of the name if there is one, else
that the name is there twice or that it collides with the one earlier name of its identifier. -/
theorem checkSiblings_blames_first (parent : EntityPath) (kind : SiblingClass)
    (names : List String) :
    (checkSiblings parent kind names = .ok () ↔
      (∀ name ∈ names, checkName (parent.child name) = .ok ()) ∧
        (names.map (ofName .snake)).Nodup) ∧
    ∀ e, checkSiblings parent kind names = .error e ↔
      ∃ earlier name, IsFirst (IsOffender parent) names earlier name ∧
        Offends parent kind earlier name e := by
  have hnone : (([] : List String).map (ofName .snake)).Nodup := List.nodup_nil
  exact ⟨checkSiblings_eq_ok_iff, fun _ => checkSiblingsFrom_eq_error_iff hnone⟩

-- The last two names are offenders as well, and each of them would be blamed for something else.
example :
    checkSiblings (.root "regs") .register ["Config 1", "mode", "config_1", "mode", "2nd"] =
      .error (.nameCollision (.root "regs") .register "Config 1" "config_1" "config_1") := by
  decide

end BusMap
