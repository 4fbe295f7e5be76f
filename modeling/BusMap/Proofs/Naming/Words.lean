import Mathlib.Data.List.Basic
import BusMap.Identifier

/-!
# Words of names, and what their spellings keep of them

The words of a name are never empty and consist of small letters and digits (`isWord_of_mem_words`).
Such words can be read back from a spelling that marks where each of them starts. The snake spelling
marks it by an underscore, so that it agrees for two names exactly when their words do
(`spell_snake_eq_iff`), and the constant spelling agrees exactly when the snake spelling does
(`spell_constant_eq_iff`).

The Pascal spelling marks a start by a capital, and no digit is one. A word that starts with a digit
thus runs into the word before it, and the Pascal spelling agrees exactly when the snake spelling
does up to underscores before digits (`spell_pascal_eq_iff`).
-/

set_option autoImplicit false

namespace BusMap

namespace Identifier

/-! ## Characters -/

/-- Small letter or digit. -/
def IsWordChar (c : Char) : Prop := c.isLower = true ∨ c.isDigit = true

instance (c : Char) : Decidable (IsWordChar c) :=
  inferInstanceAs (Decidable (_ ∨ _))

/-- What holds of all ASCII characters, one by one, holds of each letter and digit. -/
theorem forall_of_isAlphanum {p : Char → Prop} (h : ∀ n < 128, p (Char.ofNat n)) {c : Char}
    (hc : c.isAlphanum = true) : p c := by
  have hascii : c.toNat < 128 := by
    delta Char.isAlphanum Char.isAlpha Char.isUpper Char.isLower Char.isDigit at hc
    simp only [ge_iff_le, UInt32.le_iff_toNat_le, Bool.or_eq_true, Bool.and_eq_true,
      decide_eq_true_eq] at hc
    change ((65 ≤ c.toNat ∧ c.toNat ≤ 90) ∨ (97 ≤ c.toNat ∧ c.toNat ≤ 122)) ∨
      (48 ≤ c.toNat ∧ c.toNat ≤ 57) at hc
    omega
  have hcode := h c.toNat hascii
  rwa [Char.ofNat_toNat] at hcode

/-- Letters and digits become characters of words. -/
theorem isWordChar_toLower {c : Char} (h : c.isAlphanum = true) : IsWordChar c.toLower :=
  forall_of_isAlphanum (p := fun c => c.isAlphanum = true → IsWordChar c.toLower) (by decide) h h

namespace IsWordChar

variable {c : Char}

theorem isAlphanum (h : IsWordChar c) : c.isAlphanum = true := by
  rcases h with hlower | hdigit
  · show (c.isUpper || c.isLower || c.isDigit) = true
    rw [hlower, Bool.or_true, Bool.true_or]
  · rw [Char.isAlphanum, hdigit, Bool.or_true]

theorem isUpper_eq_false (h : IsWordChar c) : c.isUpper = false :=
  forall_of_isAlphanum (p := fun c => IsWordChar c → c.isUpper = false) (by decide) h.isAlphanum h

theorem ne_underscore (h : IsWordChar c) : c ≠ '_' := by
  rintro rfl
  exact absurd h (by decide)

/-- Small letters have their capitals, and come back from them. -/
theorem toLower_toUpper (h : IsWordChar c) : c.toUpper.toLower = c :=
  forall_of_isAlphanum (p := fun c => IsWordChar c → c.toUpper.toLower = c) (by decide)
    h.isAlphanum h

/-- Every character of a word has a capital except the digits. -/
theorem isUpper_toUpper (h : IsWordChar c) : c.toUpper.isUpper = !c.isDigit :=
  forall_of_isAlphanum (p := fun c => IsWordChar c → c.toUpper.isUpper = !c.isDigit) (by decide)
    h.isAlphanum h

theorem toUpper_eq_of_isDigit (h : c.isDigit = true) : c.toUpper = c :=
  forall_of_isAlphanum (p := fun c => c.isDigit = true → c.toUpper = c) (by decide)
    (isAlphanum (Or.inr h)) h

end IsWordChar

/-! ## Words -/

/-- At least one character, all of them small letters or digits. -/
def IsWord (w : List Char) : Prop := w ≠ [] ∧ ∀ c ∈ w, IsWordChar c

theorem isWord_of_mem_words {name w : List Char} (h : w ∈ words name) : IsWord w := by
  obtain ⟨hpart, hne⟩ := List.mem_filter.1 h
  obtain ⟨part, -, rfl⟩ := List.mem_map.1 hpart
  refine ⟨by simpa using hne, ?_⟩
  intro c hc
  obtain ⟨d, hd, rfl⟩ := List.mem_map.1 hc
  exact isWordChar_toLower (List.mem_filter.1 hd).2

theorem IsWord.underscore_not_mem {w : List Char} (h : IsWord w) : '_' ∉ w := by
  intro hmem
  exact (h.2 '_' hmem).ne_underscore rfl

/-! ## Marks in front of a text -/

/-- The first character is no underscore. -/
def NoUnderscoreFirst (cs : List Char) : Prop := ∀ rest, cs ≠ '_' :: rest

theorem IsWord.noUnderscoreFirst {w : List Char} (h : IsWord w) (rest : List Char) :
    NoUnderscoreFirst (w ++ rest) := by
  obtain ⟨hne, hchars⟩ := h
  cases w with
  | nil => exact absurd rfl hne
  | cons c cs =>
    intro rest' heq
    have hhead : c = '_' := (List.cons.inj heq).1
    exact (hchars c List.mem_cons_self).ne_underscore hhead

/-- Puts an underscore before a first character of a class. -/
def markFirst (p : Char → Bool) : List Char → List Char
  | [] => []
  | c :: cs => if p c then '_' :: c :: cs else c :: cs

theorem guardDigit_eq_markFirst (cs : List Char) : guardDigit cs = markFirst Char.isDigit cs := by
  cases cs <;> rfl

theorem markFirst_append (p : Char → Bool) {cs : List Char} (h : cs ≠ []) (ds : List Char) :
    markFirst p (cs ++ ds) = markFirst p cs ++ ds := by
  cases cs with
  | nil => exact absurd rfl h
  | cons c cs =>
    simp only [List.cons_append, markFirst]
    split <;> rfl

/-- A mark is seen, so that it can be taken away again. -/
theorem markFirst_inj (p : Char → Bool) {cs ds : List Char} (hcs : NoUnderscoreFirst cs)
    (hds : NoUnderscoreFirst ds) : markFirst p cs = markFirst p ds ↔ cs = ds := by
  constructor
  · intro h
    -- Unless both texts are marked or none is, one of them starts with an underscore.
    cases cs with
    | nil =>
      cases ds with
      | nil => rfl
      | cons d ds =>
        simp only [markFirst] at h
        split at h <;> cases h
    | cons c cs =>
      cases ds with
      | nil =>
        simp only [markFirst] at h
        split at h <;> cases h
      | cons d ds =>
        simp only [markFirst] at h
        split at h <;> split at h
        · exact (List.cons.inj h).2
        · exact absurd h.symm (hds _)
        · exact absurd h (hcs _)
        · exact h
  · rintro rfl
    rfl

/-! ## Joined words -/

section Words

variable {ws vs : List (List Char)}

/-- The first word stands alone, and each other one follows an underscore. -/
theorem joinWords_cons (w : List Char) (ws : List (List Char)) :
    joinWords (w :: ws) = w ++ ws.flatMap ('_' :: ·) := by
  induction ws generalizing w with
  | nil => simp [joinWords]
  | cons v ws ih =>
    have htail : joinWords (w :: v :: ws) = w ++ '_' :: joinWords (v :: ws) := by
      simp [joinWords]
    rw [htail, ih, List.flatMap_cons, List.cons_append]

theorem noUnderscoreFirst_joinWords (h : ∀ w ∈ ws, IsWord w) :
    NoUnderscoreFirst (joinWords ws) := by
  cases ws with
  | nil =>
    intro rest heq
    cases heq
  | cons w ws =>
    rw [joinWords_cons]
    exact (h w List.mem_cons_self).noUnderscoreFirst _

theorem joinWords_ne_nil (h : ∀ w ∈ ws, IsWord w) (hne : ws ≠ []) : joinWords ws ≠ [] := by
  cases ws with
  | nil => exact absurd rfl hne
  | cons w ws =>
    rw [joinWords_cons]
    simp [(h w List.mem_cons_self).1]

/-- Words can be read back from where the underscores are. -/
theorem joinWords_inj (hws : ∀ w ∈ ws, IsWord w) (hvs : ∀ v ∈ vs, IsWord v) :
    joinWords ws = joinWords vs ↔ ws = vs := by
  constructor
  · intro h
    by_cases hws' : ws = []
    · subst hws'
      by_contra hvs'
      exact joinWords_ne_nil hvs (Ne.symm hvs') h.symm
    · have hvs' : vs ≠ [] := by
        rintro rfl
        exact joinWords_ne_nil hws hws' h
      rw [← List.splitOn_intercalate '_' (fun w hw => (hws w hw).underscore_not_mem) hws',
        ← List.splitOn_intercalate '_' (fun v hv => (hvs v hv).underscore_not_mem) hvs']
      exact congrArg (List.splitOn '_') h
  · rintro rfl
    rfl

theorem isWordChar_or_eq_underscore_of_mem_joinWords (h : ∀ w ∈ ws, IsWord w) {c : Char}
    (hc : c ∈ joinWords ws) : IsWordChar c ∨ c = '_' := by
  cases ws with
  | nil => cases hc
  | cons w ws =>
    obtain ⟨hw, hws⟩ := List.forall_mem_cons.1 h
    rw [joinWords_cons, List.mem_append, List.mem_flatMap] at hc
    rcases hc with hc | ⟨v, hv, hc⟩
    · exact Or.inl (hw.2 c hc)
    · rcases List.mem_cons.1 hc with rfl | hc
      · exact Or.inr rfl
      · exact Or.inl ((hws v hv).2 c hc)

/-- Capitals in place of small letters lose nothing of joined words. -/
theorem map_toLower_map_toUpper_joinWords (h : ∀ w ∈ ws, IsWord w) :
    ((joinWords ws).map Char.toUpper).map Char.toLower = joinWords ws := by
  have hchars : ∀ c ∈ joinWords ws, (Char.toLower ∘ Char.toUpper) c = id c := by
    intro c hc
    rcases isWordChar_or_eq_underscore_of_mem_joinWords h hc with hword | rfl
    · exact hword.toLower_toUpper
    · rfl
  rw [List.map_map, List.map_congr_left hchars, List.map_id]

/-- The constant spelling starts with an underscore as little as the words do. -/
theorem noUnderscoreFirst_map_toUpper_joinWords (h : ∀ w ∈ ws, IsWord w) :
    NoUnderscoreFirst ((joinWords ws).map Char.toUpper) := by
  intro rest heq
  apply noUnderscoreFirst_joinWords h (rest.map Char.toLower)
  rw [← map_toLower_map_toUpper_joinWords h, heq]
  rfl

/-! ## Breaks before digits -/

/-- The text without the underscores that stand before a digit. -/
def withoutDigitBreaks : List Char → List Char
  | [] => []
  | c :: cs =>
    if c = '_' ∧ cs.head?.any Char.isDigit then withoutDigitBreaks cs
    else c :: withoutDigitBreaks cs

theorem withoutDigitBreaks_append {cs : List Char} (h : '_' ∉ cs) (ds : List Char) :
    withoutDigitBreaks (cs ++ ds) = cs ++ withoutDigitBreaks ds := by
  induction cs with
  | nil => rfl
  | cons c cs ih =>
    obtain ⟨hc, hcs⟩ := not_or.1 (mt List.mem_cons.2 h)
    rw [List.cons_append, withoutDigitBreaks, if_neg (fun hbreak => hc hbreak.1.symm), ih hcs,
      List.cons_append]

/-- The underscore before a word stays exactly when the word starts with a letter. -/
theorem withoutDigitBreaks_underscore_cons {w : List Char} (h : IsWord w) (ds : List Char) :
    withoutDigitBreaks ('_' :: w ++ ds) =
      markFirst (!Char.isDigit ·) w ++ withoutDigitBreaks ds := by
  cases w with
  | nil => exact absurd rfl h.1
  | cons c cs =>
    have hword := withoutDigitBreaks_append h.underscore_not_mem ds
    rw [List.cons_append, withoutDigitBreaks, markFirst, hword]
    cases hdigit : c.isDigit with
    | true => simp [hdigit]
    | false => simp [hdigit]

theorem withoutDigitBreaks_flatMap (h : ∀ w ∈ ws, IsWord w) :
    withoutDigitBreaks (ws.flatMap ('_' :: ·)) = ws.flatMap (markFirst (!Char.isDigit ·)) := by
  induction ws with
  | nil => rfl
  | cons w ws ih =>
    obtain ⟨hw, hws⟩ := List.forall_mem_cons.1 h
    rw [List.flatMap_cons, List.flatMap_cons, withoutDigitBreaks_underscore_cons hw, ih hws]

theorem withoutDigitBreaks_guardDigit (cs : List Char) :
    withoutDigitBreaks (guardDigit cs) = withoutDigitBreaks cs := by
  cases cs with
  | nil => rfl
  | cons c cs =>
    rw [guardDigit]
    split
    · rename_i hdigit
      rw [withoutDigitBreaks, if_pos ⟨rfl, hdigit⟩]
    · rfl

/-- Marks before the words that start with a letter are what is left of the underscores. -/
theorem flatMap_markFirst_eq (h : ∀ w ∈ ws, IsWord w) :
    ws.flatMap (markFirst (!Char.isDigit ·)) =
      markFirst (!Char.isDigit ·) (withoutDigitBreaks (joinWords ws)) := by
  cases ws with
  | nil => rfl
  | cons w ws =>
    obtain ⟨hw, hws⟩ := List.forall_mem_cons.1 h
    rw [joinWords_cons, withoutDigitBreaks_append hw.underscore_not_mem,
      withoutDigitBreaks_flatMap hws, markFirst_append _ hw.1, List.flatMap_cons]

theorem noUnderscoreFirst_withoutDigitBreaks (h : ∀ w ∈ ws, IsWord w) :
    NoUnderscoreFirst (withoutDigitBreaks (joinWords ws)) := by
  cases ws with
  | nil =>
    intro rest heq
    cases heq
  | cons w ws =>
    have hw := h w List.mem_cons_self
    rw [joinWords_cons, withoutDigitBreaks_append hw.underscore_not_mem]
    exact hw.noUnderscoreFirst _

/-! ## Capitals -/

/-- Puts an underscore and the small letter in place of each capital. -/
def lowerCapitals (cs : List Char) : List Char :=
  cs.flatMap fun c => if c.isUpper then ['_', c.toLower] else [c]

/-- Drops each underscore and puts the capital in place of the character after it. -/
def raiseMarked : List Char → List Char
  | [] => []
  | c :: cs => if c = '_' then capitalize (raiseMarked cs) else c :: raiseMarked cs

theorem lowerCapitals_eq_self {cs : List Char} (h : ∀ c ∈ cs, IsWordChar c) :
    lowerCapitals cs = cs := by
  induction cs with
  | nil => rfl
  | cons c cs ih =>
    obtain ⟨hc, hcs⟩ := List.forall_mem_cons.1 h
    rw [lowerCapitals, List.flatMap_cons, hc.isUpper_eq_false]
    exact congrArg (c :: ·) (ih hcs)

theorem lowerCapitals_capitalize {w : List Char} (h : IsWord w) :
    lowerCapitals (capitalize w) = markFirst (!Char.isDigit ·) w := by
  obtain ⟨hne, hchars⟩ := h
  cases w with
  | nil => rfl
  | cons c cs =>
    obtain ⟨hc, hcs⟩ := List.forall_mem_cons.1 hchars
    have hrest : lowerCapitals cs = cs := lowerCapitals_eq_self hcs
    rw [lowerCapitals] at hrest
    rw [capitalize, lowerCapitals, List.flatMap_cons, hrest, hc.isUpper_toUpper, hc.toLower_toUpper,
      markFirst]
    cases hdigit : c.isDigit with
    | true => simp [IsWordChar.toUpper_eq_of_isDigit hdigit]
    | false => simp

theorem raiseMarked_append {cs : List Char} (h : '_' ∉ cs) (ds : List Char) :
    raiseMarked (cs ++ ds) = cs ++ raiseMarked ds := by
  induction cs with
  | nil => rfl
  | cons c cs ih =>
    obtain ⟨hc, hcs⟩ := not_or.1 (mt List.mem_cons.2 h)
    rw [List.cons_append, raiseMarked, if_neg (Ne.symm hc), ih hcs, List.cons_append]

theorem raiseMarked_markFirst {w : List Char} (h : IsWord w) (ds : List Char) :
    raiseMarked (markFirst (!Char.isDigit ·) w ++ ds) = capitalize w ++ raiseMarked ds := by
  have hword := raiseMarked_append h.underscore_not_mem ds
  cases w with
  | nil => rfl
  | cons c cs =>
    rw [markFirst]
    cases hdigit : c.isDigit with
    | true =>
      rw [capitalize, IsWordChar.toUpper_eq_of_isDigit hdigit]
      exact hword
    | false =>
      show raiseMarked ('_' :: (c :: cs ++ ds)) = _
      rw [raiseMarked, if_pos rfl, hword]
      rfl

/-- Capitals and marks are two ways to tell where the words start. -/
theorem flatMap_capitalize_inj (hws : ∀ w ∈ ws, IsWord w) (hvs : ∀ v ∈ vs, IsWord v) :
    ws.flatMap capitalize = vs.flatMap capitalize ↔
      ws.flatMap (markFirst (!Char.isDigit ·)) = vs.flatMap (markFirst (!Char.isDigit ·)) := by
  have hlower : ∀ {us : List (List Char)}, (∀ u ∈ us, IsWord u) →
      lowerCapitals (us.flatMap capitalize) = us.flatMap (markFirst (!Char.isDigit ·)) := by
    intro us hus
    rw [lowerCapitals, List.flatMap_assoc]
    apply List.flatMap_congr
    intro u hu
    exact lowerCapitals_capitalize (hus u hu)
  have hraise : ∀ {us : List (List Char)}, (∀ u ∈ us, IsWord u) →
      raiseMarked (us.flatMap (markFirst (!Char.isDigit ·))) = us.flatMap capitalize := by
    intro us hus
    induction us with
    | nil => rfl
    | cons u us ih =>
      obtain ⟨hu, hus⟩ := List.forall_mem_cons.1 hus
      rw [List.flatMap_cons, List.flatMap_cons, raiseMarked_markFirst hu, ih hus]
  constructor
  · intro h
    rw [← hlower hws, h, hlower hvs]
  · intro h
    rw [← hraise hws, h, hraise hvs]

theorem noUnderscoreFirst_flatMap_capitalize (h : ∀ w ∈ ws, IsWord w) :
    NoUnderscoreFirst (ws.flatMap capitalize) := by
  intro rest heq
  cases ws with
  | nil => cases heq
  | cons w ws =>
    obtain ⟨hne, hchars⟩ := h w List.mem_cons_self
    cases w with
    | nil => exact hne rfl
    | cons c cs =>
      have hhead : c.toUpper = '_' := (List.cons.inj heq).1
      have hc := hchars c List.mem_cons_self
      apply hc.ne_underscore
      rw [← hc.toLower_toUpper, hhead]
      rfl

end Words

/-! ## Spellings of names -/

section Spellings

variable {name other : List Char}

/-- The snake spelling keeps the words apart. -/
theorem spell_snake_eq_iff :
    spell .snake name = spell .snake other ↔ words name = words other := by
  have hname : ∀ w ∈ words name, IsWord w := fun _ => isWord_of_mem_words
  have hother : ∀ w ∈ words other, IsWord w := fun _ => isWord_of_mem_words
  rw [spell, spell, join, join, guardDigit_eq_markFirst, guardDigit_eq_markFirst,
    markFirst_inj _ (noUnderscoreFirst_joinWords hname) (noUnderscoreFirst_joinWords hother),
    joinWords_inj hname hother]

/-- The constant spelling is as fine as the snake spelling. -/
theorem spell_constant_eq_iff :
    spell .constant name = spell .constant other ↔ spell .snake name = spell .snake other := by
  have hname : ∀ w ∈ words name, IsWord w := fun _ => isWord_of_mem_words
  have hother : ∀ w ∈ words other, IsWord w := fun _ => isWord_of_mem_words
  rw [spell_snake_eq_iff, spell, spell, join, join, guardDigit_eq_markFirst,
    guardDigit_eq_markFirst, markFirst_inj _ (noUnderscoreFirst_map_toUpper_joinWords hname)
      (noUnderscoreFirst_map_toUpper_joinWords hother), ← joinWords_inj hname hother]
  constructor
  · intro h
    rw [← map_toLower_map_toUpper_joinWords hname, h, map_toLower_map_toUpper_joinWords hother]
  · intro h
    rw [h]

/-- The Pascal spelling does not tell where a word starts that starts with a digit. -/
theorem spell_pascal_eq_iff :
    spell .pascal name = spell .pascal other ↔
      withoutDigitBreaks (spell .snake name) = withoutDigitBreaks (spell .snake other) := by
  have hname : ∀ w ∈ words name, IsWord w := fun _ => isWord_of_mem_words
  have hother : ∀ w ∈ words other, IsWord w := fun _ => isWord_of_mem_words
  rw [spell, spell, spell, spell, withoutDigitBreaks_guardDigit, withoutDigitBreaks_guardDigit,
    guardDigit_eq_markFirst, guardDigit_eq_markFirst, join, join, join, join,
    markFirst_inj _ (noUnderscoreFirst_flatMap_capitalize hname)
      (noUnderscoreFirst_flatMap_capitalize hother),
    flatMap_capitalize_inj hname hother, flatMap_markFirst_eq hname, flatMap_markFirst_eq hother,
    markFirst_inj _ (noUnderscoreFirst_withoutDigitBreaks hname)
      (noUnderscoreFirst_withoutDigitBreaks hother)]

end Spellings

end Identifier

end BusMap
