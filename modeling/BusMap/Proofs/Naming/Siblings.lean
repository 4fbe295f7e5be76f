import Mathlib.Data.List.Nodup
import BusMap.Proofs.Naming.Words
import BusMap.Proofs.Outcome

/-!
# Names of siblings

The check of sibling names accepts exactly names that are usable one by one and have identifiers
that differ from one another, where an identifier is the snake spelling (`checkSiblings_eq_ok_iff`).
The names themselves then differ as well (`nodup_of_checkSiblings`).

What the snake spelling tells apart, the constant spelling does too, and the Pascal spelling does
except for underscores before digits (`checkSiblings_spellings`). Accepted siblings can thus have one
Pascal identifier, and `checkSiblings_pascal_collision` names two of them.
-/

set_option autoImplicit false

namespace BusMap

variable {parent : EntityPath} {kind : SiblingClass} {names : List String}

theorem checkSiblingsFrom_cons_eq_ok_iff {seen : List (String × String)} {name : String} :
    checkSiblingsFrom parent kind seen (name :: names) = .ok () ↔
      checkName (parent.child name) = .ok () ∧
        (∀ entry ∈ seen, entry.2 ≠ Identifier.ofName .snake name) ∧
          checkSiblingsFrom parent kind (seen ++ [(name, Identifier.ofName .snake name)]) names =
            .ok () := by
  rw [checkSiblingsFrom, then_eq_ok_iff]
  apply and_congr_right
  intro _
  dsimp only
  cases hfind : seen.find? fun entry => entry.2 = Identifier.ofName .snake name with
  | none =>
    have hnew : ∀ entry ∈ seen, entry.2 ≠ Identifier.ofName .snake name := by
      simpa using List.find?_eq_none.1 hfind
    rw [and_iff_right hnew]
  | some entry =>
    have hmem := List.mem_of_find?_eq_some hfind
    have hsame : entry.2 = Identifier.ofName .snake name := by
      simpa using List.find?_some hfind
    constructor
    · intro h
      dsimp only at h
      split at h <;> cases h
    · rintro ⟨hnew, -⟩
      exact absurd hsame (hnew entry hmem)

/-- The loop accepts names that are usable, have new identifiers and do not repeat one another's. -/
theorem checkSiblingsFrom_eq_ok_iff {seen : List (String × String)} :
    checkSiblingsFrom parent kind seen names = .ok () ↔
      (∀ name ∈ names, checkName (parent.child name) = .ok ()) ∧
        (∀ name ∈ names, ∀ entry ∈ seen, entry.2 ≠ Identifier.ofName .snake name) ∧
          (names.map (Identifier.ofName .snake)).Nodup := by
  -- The names seen so far vary: each accepted name is seen by all that follow it.
  induction names generalizing seen with
  | nil => simp [checkSiblingsFrom]
  | cons name names ih =>
    rw [checkSiblingsFrom_cons_eq_ok_iff, ih]
    have hlast : (∀ other ∈ names, Identifier.ofName .snake name ≠ Identifier.ofName .snake other) ↔
        Identifier.ofName .snake name ∉ names.map (Identifier.ofName .snake) := by
      simp [eq_comm]
    rw [List.map_cons, List.nodup_cons, ← hlast]
    simp only [List.forall_mem_cons, List.forall_mem_append, List.mem_singleton, forall_eq,
      forall_and]
    tauto

/-- Siblings are accepted exactly when each is usable and no two have one snake identifier. -/
theorem checkSiblings_eq_ok_iff :
    checkSiblings parent kind names = .ok () ↔
      (∀ name ∈ names, checkName (parent.child name) = .ok ()) ∧
        (names.map (Identifier.ofName .snake)).Nodup := by
  rw [checkSiblings, checkSiblingsFrom_eq_ok_iff]
  simp

/-- Names that siblings can have: each is usable, and no two have one snake identifier. -/
structure SiblingNames (names : List String) : Prop where
  usable : ∀ name ∈ names, nameFlaw? name = none
  distinct : (names.map (Identifier.ofName .snake)).Nodup

theorem checkName_eq_ok_iff {path : EntityPath} :
    checkName path = .ok () ↔ nameFlaw? path.name = none := by
  rw [checkName]
  cases nameFlaw? path.name with
  | none => simp
  | some flaw => simp

/-- The names that the check of siblings accepts do not depend on whose children they are. -/
theorem checkSiblings_eq_ok_iff_siblingNames {parent : EntityPath} {kind : SiblingClass}
    {names : List String} : checkSiblings parent kind names = .ok () ↔ SiblingNames names := by
  simp only [checkSiblings_eq_ok_iff, checkName_eq_ok_iff, EntityPath.name_child]
  constructor
  · rintro ⟨husable, hdistinct⟩
    exact ⟨husable, hdistinct⟩
  · intro h
    exact ⟨h.usable, h.distinct⟩

/-- Names with different identifiers are different. -/
theorem nodup_of_checkSiblings (h : checkSiblings parent kind names = .ok ()) : names.Nodup :=
  List.Nodup.of_map _ (checkSiblings_eq_ok_iff.1 h).2

namespace Identifier

variable {name other : String}

theorem ofName_eq_iff {spelling : Spelling} :
    ofName spelling name = ofName spelling other ↔
      spell spelling name.toList = spell spelling other.toList :=
  String.ofList_inj

theorem ofName_constant_eq_iff :
    ofName .constant name = ofName .constant other ↔
      ofName .snake name = ofName .snake other := by
  rw [ofName_eq_iff, ofName_eq_iff, spell_constant_eq_iff]

theorem ofName_pascal_eq_iff :
    ofName .pascal name = ofName .pascal other ↔
      withoutDigitBreaks (ofName .snake name).toList =
        withoutDigitBreaks (ofName .snake other).toList := by
  rw [ofName_eq_iff, spell_pascal_eq_iff, ofName, ofName, String.toList_ofList,
    String.toList_ofList]

end Identifier

open Identifier in
/-- **Accepted siblings differ in two spellings of three.** Their snake identifiers differ from one
another, and so do their constant identifiers. Their Pascal identifiers do exactly when the snake
identifiers still differ without the underscores before digits. -/
theorem checkSiblings_spellings (parent : EntityPath) (kind : SiblingClass) (names : List String)
    (h : checkSiblings parent kind names = .ok ()) :
    (names.map (ofName .snake)).Nodup ∧ (names.map (ofName .constant)).Nodup ∧
      ((names.map (ofName .pascal)).Nodup ↔
        (names.map fun name => withoutDigitBreaks (ofName .snake name).toList).Nodup) := by
  have hsnake := (checkSiblings_eq_ok_iff.1 h).2
  refine ⟨hsnake, ?_, ?_⟩
  · rw [List.Nodup, List.pairwise_map] at hsnake ⊢
    apply hsnake.imp
    intro first second hne
    exact mt ofName_constant_eq_iff.1 hne
  · simp only [List.Nodup, List.pairwise_map, ne_eq, ofName_pascal_eq_iff]

/-- Three names with a digit that starts a word in one of them and ends a word in another. -/
theorem checkSiblings_spellings_mixed :
    checkSiblings (.root "regs") .register ["Config 1", "ConfigMode", "mode2"] = .ok () ∧
      (["Config 1", "ConfigMode", "mode2"].map (Identifier.ofName .pascal)).Nodup := by
  have haccepted : checkSiblings (.root "regs") .register ["Config 1", "ConfigMode", "mode2"] =
      .ok () := by decide
  refine ⟨haccepted, ?_⟩
  exact (checkSiblings_spellings _ _ _ haccepted).2.2.2 (by decide)

/-- Two accepted names with one Pascal identifier. -/
theorem checkSiblings_pascal_collision :
    checkSiblings (.root "regs") .register ["Config 1", "Config1"] = .ok () ∧
      Identifier.ofName .pascal "Config 1" = Identifier.ofName .pascal "Config1" :=
  ⟨by decide, by decide⟩

end BusMap
