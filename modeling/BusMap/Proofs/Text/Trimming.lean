import Mathlib.Data.List.DropRight
import BusMap.Text.Blank

/-!
# Texts between blanks

A text has one part that neither starts nor ends with a blank and has only blanks around it, and
`trim` gives this part (`Text.trim_eq_iff`).
-/

set_option autoImplicit false

namespace BusMap.Text

/-- The text is `core` with blanks around it, and `core` itself has none at its ends. -/
structure IsCore (text core : List Char) : Prop where
  around : ∃ before after, text = before ++ core ++ after ∧
    (∀ c ∈ before, isBlank c = true) ∧ ∀ c ∈ after, isBlank c = true
  front : ∀ c, core.head? = some c → isBlank c = false
  back : ∀ c, core.getLast? = some c → isBlank c = false

variable {text core : List Char}

/-- Trimming drops from the front and then from the back. -/
theorem trim_eq (text : List Char) : trim text = (text.dropWhile isBlank).rdropWhile isBlank := rfl

theorem isCore_trim (text : List Char) : IsCore text (trim text) := by
  have hback : trim text ++ (text.dropWhile isBlank).rtakeWhile isBlank = text.dropWhile isBlank :=
    List.rdropWhile_append_rtakeWhile
  constructor
  · refine ⟨text.takeWhile isBlank, (text.dropWhile isBlank).rtakeWhile isBlank, ?_,
      fun c => List.mem_takeWhile_imp, fun c => List.mem_rtakeWhile_imp⟩
    rw [List.append_assoc, hback, List.takeWhile_append_dropWhile]
  · intro c hc
    -- The core begins as the text without the blanks at its front does.
    have hfront : (text.dropWhile isBlank).head? = some c := by
      rw [← hback, List.head?_append, hc, Option.some_or]
    have hnot := List.head?_dropWhile_not isBlank text
    rw [hfront] at hnot
    exact hnot
  · intro c hc
    rw [trim_eq] at hc
    have hlast := List.rdropWhile_last_not isBlank (text.dropWhile isBlank)
      (List.ne_nil_of_mem (List.mem_of_getLast? hc))
    rwa [List.getLast_of_getLast?_eq_some hc, Bool.not_eq_true] at hlast

/-- The part of a text between the blanks around it is the trimmed text, and no other. -/
theorem trim_eq_iff : trim text = core ↔ IsCore text core := by
  constructor
  · rintro rfl
    exact isCore_trim text
  · rintro ⟨⟨before, after, rfl, hbefore, hafter⟩, hfront, hback⟩
    rw [trim_eq, List.append_assoc, List.dropWhile_append_of_pos hbefore]
    cases core with
    | nil =>
      rw [List.nil_append, List.dropWhile_eq_nil_iff.2 hafter]
      rfl
    | cons c cs =>
      have hc : ¬ isBlank c = true := by simp [hfront c rfl]
      have hend : (after.reverse ++ (c :: cs).reverse).dropWhile isBlank = (c :: cs).reverse := by
        rw [List.dropWhile_append_of_pos (by simpa using hafter)]
        cases hrev : (c :: cs).reverse with
        | nil => rfl
        | cons last rest =>
          have hlast : (c :: cs).getLast? = some last := by
            rw [← List.head?_reverse, hrev, List.head?_cons]
          exact List.dropWhile_cons_of_neg (by simp [hback last hlast])
      rw [List.cons_append, List.dropWhile_cons_of_neg hc, ← List.cons_append, List.rdropWhile,
        List.reverse_append, hend, List.reverse_reverse]

/-- A text without blanks stays as it is. -/
theorem trim_of_forall (h : ∀ c ∈ text, isBlank c = false) : trim text = text := by
  refine trim_eq_iff.2 ⟨⟨[], [], ?_, ?_, ?_⟩, fun c hc => h c ?_, fun c hc => h c ?_⟩
  · simp
  · simp
  · simp
  · exact List.mem_of_head? hc
  · exact List.mem_of_getLast? hc

end BusMap.Text
