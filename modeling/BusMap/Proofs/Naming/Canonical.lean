import BusMap.Proofs.Naming.Words

/-!
# Identifiers of identifiers

Cutting a name into words drops all but its letters and digits and keeps these in their order
(`flatten_words`). Every spelling has them in this order again, next to underscores and capitals of
its own.

A snake or constant identifier is of one case, with an underscore between words, and is therefore
cut where the words have been joined (`words_spell_snake`, `words_spell_constant`), however the name
itself was cut. Converting such an identifier is converting the name (`ofName_canonical`).
-/

set_option autoImplicit false

namespace BusMap

namespace Identifier

theorem map_eq_self {α : Type} {f : α → α} {xs : List α} (h : ∀ x ∈ xs, f x = x) :
    xs.map f = xs :=
  (List.map_congr_left h).trans (List.map_id xs)

/-! ## Cases -/

namespace IsWordChar

variable {c : Char}

theorem toLower_eq (h : IsWordChar c) : c.toLower = c :=
  forall_of_isAlphanum (p := fun c => IsWordChar c → c.toLower = c) (by decide) h.isAlphanum h

theorem isAlphanum_toUpper (h : IsWordChar c) : c.toUpper.isAlphanum = true :=
  forall_of_isAlphanum (p := fun c => IsWordChar c → c.toUpper.isAlphanum = true) (by decide)
    h.isAlphanum h

theorem isLower_toUpper (h : IsWordChar c) : c.toUpper.isLower = false :=
  forall_of_isAlphanum (p := fun c => c.toUpper.isLower = false) (by decide) h.isAlphanum

theorem isDigit_toUpper (h : IsWordChar c) : c.toUpper.isDigit = c.isDigit :=
  forall_of_isAlphanum (p := fun c => c.toUpper.isDigit = c.isDigit) (by decide) h.isAlphanum

end IsWordChar

theorem isSeparator_eq_false {c : Char} (h : c.isAlphanum = true) : isSeparator c = false :=
  forall_of_isAlphanum (p := fun c => c.isAlphanum = true → isSeparator c = false) (by decide) h h

theorem isSeparator_underscore : isSeparator '_' = true := by decide

theorem isAlphanum_of_isSeparator {c : Char} (h : isSeparator c = true) :
    ¬ c.isAlphanum = true := by
  intro halphanum
  rw [isSeparator_eq_false halphanum] at h
  cases h

theorem isDigit_toLower {c : Char} (h : c.isAlphanum = true) : c.toLower.isDigit = c.isDigit :=
  forall_of_isAlphanum (p := fun c => c.toLower.isDigit = c.isDigit) (by decide) h

theorem toLower_ne_underscore {c : Char} (h : c.isAlphanum = true) : c.toLower ≠ '_' :=
  (isWordChar_toLower h).ne_underscore

/-! ## Letters and digits -/

theorem wordOf_append (part rest : List Char) :
    wordOf (part ++ rest) = wordOf part ++ wordOf rest := by
  simp [wordOf]

theorem wordOf_cons_of_isSeparator {c : Char} (h : isSeparator c = true) (rest : List Char) :
    wordOf (c :: rest) = wordOf rest := by
  simp [wordOf, isAlphanum_of_isSeparator h]

theorem flatten_cutAtHumps (wasUpper : Bool) (current rest : List Char) :
    ((cutAtHumps wasUpper current rest).map wordOf).flatten = wordOf (current ++ rest) := by
  -- The current part varies: it starts anew at a capital, and grows at any other character.
  induction rest generalizing wasUpper current with
  | nil => simp [cutAtHumps]
  | cons c cs ih =>
    rw [cutAtHumps]
    split
    · rw [List.map_cons, List.flatten_cons, ih, ← wordOf_append, List.singleton_append]
    · rw [ih, List.append_assoc, List.singleton_append]

theorem flatten_cutAtSeparators (current rest : List Char) :
    ((cutAtSeparators current rest).map wordOf).flatten = wordOf (current ++ rest) := by
  induction rest generalizing current with
  | nil => simp [cutAtSeparators]
  | cons c cs ih =>
    rw [cutAtSeparators]
    split
    · rename_i hseparator
      rw [List.map_cons, List.flatten_cons, ih, List.nil_append, wordOf_append,
        wordOf_cons_of_isSeparator hseparator]
    · rw [ih, List.append_assoc, List.singleton_append]

/-- The words hold the letters and digits of the name, and nothing else. -/
theorem flatten_words (name : List Char) : (words name).flatten = wordOf name := by
  rw [words, List.flatten_filter_not_isEmpty, parts]
  split
  · exact flatten_cutAtHumps false [] name
  · exact flatten_cutAtSeparators [] name

theorem IsWord.wordOf_eq {w : List Char} (h : IsWord w) : wordOf w = w := by
  have hkept : w.filter Char.isAlphanum = w :=
    List.filter_eq_self.2 fun c hc => (h.2 c hc).isAlphanum
  rw [wordOf, hkept, map_eq_self fun c hc => (h.2 c hc).toLower_eq]

/-- A word in capitals is the same word. -/
theorem IsWord.wordOf_map_toUpper {w : List Char} (h : IsWord w) :
    wordOf (w.map Char.toUpper) = w := by
  have hkept : (w.map Char.toUpper).filter Char.isAlphanum = w.map Char.toUpper :=
    List.filter_eq_self.2 (List.forall_mem_map.2 fun c hc => (h.2 c hc).isAlphanum_toUpper)
  rw [wordOf, hkept, List.map_map]
  exact map_eq_self fun c hc => (h.2 c hc).toLower_toUpper

/-! ## Cutting at underscores -/

section Cut

variable {part : List Char} {ps : List (List Char)}

theorem cutAtSeparators_append (h : ∀ c ∈ part, c.isAlphanum = true) (current rest : List Char) :
    cutAtSeparators current (part ++ rest) = cutAtSeparators (current ++ part) rest := by
  induction part generalizing current with
  | nil => simp
  | cons c cs ih =>
    obtain ⟨hc, hcs⟩ := List.forall_mem_cons.1 h
    rw [List.cons_append, cutAtSeparators, isSeparator_eq_false hc, if_neg Bool.false_ne_true,
      ih hcs, List.append_assoc, List.singleton_append]

theorem cutAtSeparators_flatMap (h : ∀ part ∈ ps, ∀ c ∈ part, c.isAlphanum = true)
    (current : List Char) : cutAtSeparators current (ps.flatMap ('_' :: ·)) = current :: ps := by
  induction ps generalizing current with
  | nil => rfl
  | cons part ps ih =>
    obtain ⟨hpart, hps⟩ := List.forall_mem_cons.1 h
    rw [List.flatMap_cons, List.cons_append, cutAtSeparators, if_pos isSeparator_underscore,
      cutAtSeparators_append hpart, List.nil_append, ih hps]

/-- Parts that have been joined are what the joined text is cut into. -/
theorem cutAtSeparators_joinWords (h : ∀ part ∈ ps, ∀ c ∈ part, c.isAlphanum = true)
    (hne : ps ≠ []) : cutAtSeparators [] (joinWords ps) = ps := by
  cases ps with
  | nil => exact absurd rfl hne
  | cons part ps =>
    obtain ⟨hpart, hps⟩ := List.forall_mem_cons.1 h
    rw [joinWords_cons, cutAtSeparators_append hpart, cutAtSeparators_flatMap hps,
      List.nil_append]

theorem guardDigit_eq_or (cs : List Char) : guardDigit cs = cs ∨ guardDigit cs = '_' :: cs := by
  cases cs with
  | nil => exact Or.inl rfl
  | cons c cs =>
    rw [guardDigit]
    split
    · exact Or.inr rfl
    · exact Or.inl rfl

theorem eq_underscore_or_mem_of_mem_guardDigit {c : Char} {cs : List Char}
    (hc : c ∈ guardDigit cs) : c = '_' ∨ c ∈ cs := by
  rcases guardDigit_eq_or cs with heq | heq
  · rw [heq] at hc
    exact Or.inr hc
  · rw [heq] at hc
    exact List.mem_cons.1 hc

/-- Joined parts of one case have the words of the parts. The guard of a digit only adds an empty
part. -/
theorem words_guardDigit_joinWords (h : ∀ part ∈ ps, ∀ c ∈ part, c.isAlphanum = true)
    (hcase : hasHumps (guardDigit (joinWords ps)) = false) :
    words (guardDigit (joinWords ps)) = (ps.map wordOf).filter fun w => !w.isEmpty := by
  by_cases hne : ps = []
  · subst hne
    rfl
  have hparts := cutAtSeparators_joinWords h hne
  rw [words, parts, hcase, if_neg Bool.false_ne_true]
  rcases guardDigit_eq_or (joinWords ps) with heq | heq
  · rw [heq, hparts]
  · rw [heq, cutAtSeparators, if_pos isSeparator_underscore, hparts]
    rfl

end Cut

/-! ## Spellings -/

section Spellings

variable {name : List Char}

theorem map_joinWords {f : Char → Char} (hf : f '_' = '_') (ws : List (List Char)) :
    (joinWords ws).map f = joinWords (ws.map (List.map f)) := by
  cases ws with
  | nil => rfl
  | cons w ws =>
    rw [List.map_cons, joinWords_cons, joinWords_cons, List.map_append, List.map_flatMap,
      List.flatMap_map]
    simp only [List.map_cons, hf]

theorem guardDigit_map {f : Char → Char} (hf : f '_' = '_') {cs : List Char}
    (h : ∀ c ∈ cs, (f c).isDigit = c.isDigit) :
    guardDigit (cs.map f) = (guardDigit cs).map f := by
  cases cs with
  | nil => rfl
  | cons c cs =>
    rw [List.map_cons, guardDigit, guardDigit, h c List.mem_cons_self]
    split
    · rw [List.map_cons, hf, List.map_cons]
    · rw [List.map_cons]

theorem isWordChar_or_eq_underscore_of_mem_spell {c : Char} (hc : c ∈ spell .snake name) :
    IsWordChar c ∨ c = '_' := by
  rcases eq_underscore_or_mem_of_mem_guardDigit hc with heq | hjoined
  · exact Or.inr heq
  · exact isWordChar_or_eq_underscore_of_mem_joinWords (fun _ => isWord_of_mem_words) hjoined

/-- The constant spelling is the snake spelling in capitals. -/
theorem spell_constant (name : List Char) :
    spell .constant name = (spell .snake name).map Char.toUpper := by
  have hdigit : ∀ c ∈ joinWords (words name), c.toUpper.isDigit = c.isDigit := by
    intro c hc
    rcases isWordChar_or_eq_underscore_of_mem_joinWords (fun _ => isWord_of_mem_words) hc with
      hword | rfl
    · exact hword.isDigit_toUpper
    · rfl
  exact guardDigit_map rfl hdigit

/-! ## One case -/

theorem hasHumps_spell_snake (name : List Char) : hasHumps (spell .snake name) = false := by
  have hupper : (spell .snake name).any Char.isUpper = false := by
    rw [List.any_eq_false]
    intro c hc
    rcases isWordChar_or_eq_underscore_of_mem_spell hc with hword | rfl
    · simp [hword.isUpper_eq_false]
    · decide
  simp [hasHumps, hupper]

theorem hasHumps_spell_constant (name : List Char) : hasHumps (spell .constant name) = false := by
  have hlower : (spell .constant name).any Char.isLower = false := by
    rw [spell_constant, List.any_map, List.any_eq_false]
    intro c hc
    rcases isWordChar_or_eq_underscore_of_mem_spell hc with hword | rfl
    · simp [hword.isLower_toUpper]
    · decide
  simp [hasHumps, hlower]

theorem filter_words (name : List Char) :
    ((words name).filter fun w => !w.isEmpty) = words name := by
  rw [words, List.filter_filter]
  simp only [Bool.and_self]

/-- The snake identifier of a name has the words of the name. -/
theorem words_spell_snake (name : List Char) : words (spell .snake name) = words name := by
  have hparts : ∀ w ∈ words name, ∀ c ∈ w, c.isAlphanum = true :=
    fun w hw c hc => ((isWord_of_mem_words hw).2 c hc).isAlphanum
  have hwords : (words name).map wordOf = words name :=
    map_eq_self fun w hw => (isWord_of_mem_words hw).wordOf_eq
  calc words (spell .snake name)
      = ((words name).map wordOf).filter fun w => !w.isEmpty :=
        words_guardDigit_joinWords hparts (hasHumps_spell_snake name)
    _ = words name := by rw [hwords, filter_words]

/-- The constant identifier of a name has the words of the name. -/
theorem words_spell_constant (name : List Char) : words (spell .constant name) = words name := by
  have hspell : spell .constant name =
      guardDigit (joinWords ((words name).map (List.map Char.toUpper))) := by
    rw [← map_joinWords rfl]
    rfl
  have hparts : ∀ part ∈ (words name).map (List.map Char.toUpper), ∀ c ∈ part,
      c.isAlphanum = true := by
    intro part hpart c hc
    obtain ⟨w, hw, rfl⟩ := List.mem_map.1 hpart
    obtain ⟨d, hd, rfl⟩ := List.mem_map.1 hc
    exact ((isWord_of_mem_words hw).2 d hd).isAlphanum_toUpper
  have hcase := hasHumps_spell_constant name
  rw [hspell] at hcase
  have hwords : (words name).map (wordOf ∘ List.map Char.toUpper) = words name :=
    map_eq_self fun w hw => (isWord_of_mem_words hw).wordOf_map_toUpper
  rw [hspell, words_guardDigit_joinWords hparts hcase, List.map_map, hwords, filter_words]

/-! ## Small letters -/

theorem map_toLower_spell_snake (name : List Char) :
    (spell .snake name).map Char.toLower = spell .snake name := by
  refine map_eq_self fun c hc => ?_
  rcases isWordChar_or_eq_underscore_of_mem_spell hc with hword | rfl
  · exact hword.toLower_eq
  · rfl

theorem map_toLower_spell_constant (name : List Char) :
    (spell .constant name).map Char.toLower = spell .snake name := by
  rw [spell_constant, List.map_map]
  refine map_eq_self fun c hc => ?_
  rcases isWordChar_or_eq_underscore_of_mem_spell hc with hword | rfl
  · exact hword.toLower_toUpper
  · rfl

theorem IsWord.map_toLower_capitalize {w : List Char} (h : IsWord w) :
    (capitalize w).map Char.toLower = w := by
  obtain ⟨-, hchars⟩ := h
  cases w with
  | nil => rfl
  | cons c cs =>
    obtain ⟨hc, hcs⟩ := List.forall_mem_cons.1 hchars
    rw [capitalize, List.map_cons, hc.toLower_toUpper,
      map_eq_self fun d hd => (hcs d hd).toLower_eq]

theorem IsWord.isAlphanum_capitalize {w : List Char} (h : IsWord w) :
    ∀ c ∈ capitalize w, c.isAlphanum = true := by
  obtain ⟨-, hchars⟩ := h
  cases w with
  | nil =>
    intro c hc
    cases hc
  | cons d ds =>
    obtain ⟨hd, hds⟩ := List.forall_mem_cons.1 hchars
    exact List.forall_mem_cons.2 ⟨hd.isAlphanum_toUpper, fun c hc => (hds c hc).isAlphanum⟩

theorem isAlphanum_of_mem_join_pascal {c : Char} (hc : c ∈ join .pascal (words name)) :
    c.isAlphanum = true := by
  obtain ⟨w, hw, hc⟩ := List.mem_flatMap.1 hc
  exact (isWord_of_mem_words hw).isAlphanum_capitalize c hc

/-- In small letters nothing is left in the Pascal identifier to tell the words apart. -/
theorem map_toLower_spell_pascal (name : List Char) :
    (spell .pascal name).map Char.toLower = guardDigit (words name).flatten := by
  have hdigit : ∀ c ∈ (words name).flatMap capitalize, c.toLower.isDigit = c.isDigit := by
    intro c hc
    exact isDigit_toLower (isAlphanum_of_mem_join_pascal hc)
  have hwords : ∀ w ∈ words name, (capitalize w).map Char.toLower = id w :=
    fun w hw => (isWord_of_mem_words hw).map_toLower_capitalize
  rw [spell, join, ← guardDigit_map rfl hdigit, List.map_flatMap, List.flatMap_congr hwords,
    List.flatMap_id]

/-! ## Without underscores -/

theorem filter_guardDigit (cs : List Char) :
    (guardDigit cs).filter (· ≠ '_') = cs.filter (· ≠ '_') := by
  rcases guardDigit_eq_or cs with heq | heq
  · rw [heq]
  · simp [heq]

theorem IsWord.filter_eq {w : List Char} (h : IsWord w) : w.filter (· ≠ '_') = w :=
  List.filter_eq_self.2 fun c hc => decide_eq_true (h.2 c hc).ne_underscore

theorem filter_flatten {ws : List (List Char)} (h : ∀ w ∈ ws, IsWord w) :
    ws.flatten.filter (· ≠ '_') = ws.flatten := by
  rw [List.filter_flatten, map_eq_self fun w hw => (h w hw).filter_eq]

theorem filter_joinWords {ws : List (List Char)} (h : ∀ w ∈ ws, IsWord w) :
    (joinWords ws).filter (· ≠ '_') = ws.flatten := by
  cases ws with
  | nil => rfl
  | cons w ws =>
    have hrest : (ws.flatMap ('_' :: ·)).filter (· ≠ '_') = ws.flatten.filter (· ≠ '_') := by
      rw [List.filter_flatMap, List.filter_flatten, List.flatMap_def]
      simp
    obtain ⟨hw, hws⟩ := List.forall_mem_cons.1 h
    rw [joinWords_cons, List.filter_append, hrest, hw.filter_eq, filter_flatten hws,
      List.flatten_cons]

/-- Letters and digits are all that a spelling has besides underscores. -/
theorem isAlphanum_or_eq_underscore_of_mem_spell {spelling : Spelling} {c : Char}
    (hc : c ∈ spell spelling name) : c.isAlphanum = true ∨ c = '_' := by
  cases spelling with
  | snake => exact (isWordChar_or_eq_underscore_of_mem_spell hc).imp_left IsWordChar.isAlphanum
  | constant =>
    rw [spell_constant] at hc
    obtain ⟨d, hd, rfl⟩ := List.mem_map.1 hc
    rcases isWordChar_or_eq_underscore_of_mem_spell hd with hword | rfl
    · exact Or.inl hword.isAlphanum_toUpper
    · exact Or.inr rfl
  | pascal =>
    rcases eq_underscore_or_mem_of_mem_guardDigit hc with heq | hjoined
    · exact Or.inr heq
    · exact Or.inl (isAlphanum_of_mem_join_pascal hjoined)

theorem map_toLower_filter {cs : List Char} (h : ∀ c ∈ cs, c.isAlphanum = true ∨ c = '_') :
    (cs.filter (· ≠ '_')).map Char.toLower = (cs.map Char.toLower).filter (· ≠ '_') := by
  rw [List.filter_map]
  refine congrArg (List.map Char.toLower) (List.filter_congr fun c hc => ?_)
  rcases h c hc with halphanum | rfl
  · have hne := toLower_ne_underscore halphanum
    have hne' : c ≠ '_' := by
      rintro rfl
      exact absurd halphanum (by decide)
    simp [hne, hne']
  · rfl

/-- Each spelling has the letters and digits of the name, in their order. -/
theorem letters_spell (spelling : Spelling) (name : List Char) :
    ((spell spelling name).filter (· ≠ '_')).map Char.toLower = wordOf name := by
  have hwords : ∀ w ∈ words name, IsWord w := fun _ => isWord_of_mem_words
  have hsnake : (spell .snake name).filter (· ≠ '_') = (words name).flatten := by
    rw [spell, join, filter_guardDigit, filter_joinWords hwords]
  rw [map_toLower_filter fun _ => isAlphanum_or_eq_underscore_of_mem_spell, ← flatten_words]
  cases spelling with
  | snake => rw [map_toLower_spell_snake, hsnake]
  | constant => rw [map_toLower_spell_constant, hsnake]
  | pascal => rw [map_toLower_spell_pascal, filter_guardDigit, filter_flatten hwords]

end Spellings

/-- **Identifiers are canonical, and lose no letter or digit.** Converting a snake or constant
identifier of a name, to whatever spelling, is converting the name itself. Without its underscores
and in small letters, an identifier of any spelling is the ASCII letters and digits of the name in
their order. -/
theorem ofName_canonical (name : String) :
    (∀ spelling, ofName spelling (ofName .snake name) = ofName spelling name) ∧
      (∀ spelling, ofName spelling (ofName .constant name) = ofName spelling name) ∧
        ∀ spelling, ((ofName spelling name).toList.filter (· ≠ '_')).map Char.toLower =
          (name.toList.filter Char.isAlphanum).map Char.toLower := by
  refine ⟨fun spelling => ?_, fun spelling => ?_, fun spelling => ?_⟩
  · rw [ofName, ofName, String.toList_ofList, spell, words_spell_snake]
    rfl
  · rw [ofName, ofName, String.toList_ofList, spell, words_spell_constant]
    rfl
  · rw [ofName, String.toList_ofList, letters_spell]
    rfl

/-- A Pascal identifier is not canonical: where each word is one letter, no word is left. -/
example : ofName .pascal "a b" = "AB" ∧ ofName .pascal "AB" = "Ab" := by decide

end Identifier

end BusMap
