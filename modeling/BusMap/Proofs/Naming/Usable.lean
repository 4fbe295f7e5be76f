import Mathlib.Data.List.Chain
import BusMap.Proofs.Naming.Canonical
import BusMap.Proofs.Naming.Siblings

/-!
# Names that can be used

An accepted name starts with a letter, and so does its first word (`exists_words_of_isAlpha`). No
spelling then has to guard a digit, and what it makes of the name is its words and what it puts
between them (`spell_eq_join`). Such text is an identifier in every target language
(`checkName_usable`).

The check asks whether the snake identifier is reserved. The constant identifier is the same text in
capitals, and a word is reserved in any case (`isReserved_constant`).
-/

set_option autoImplicit false

namespace BusMap

namespace Identifier

/-! ## Identifiers -/

/-- One of two neighbours is a letter or a digit. -/
def Joinable (c d : Char) : Prop := c.isAlphanum = true ∨ d.isAlphanum = true

/-- An identifier as a spelling writes it. A letter comes first, and every underscore stands alone
between letters and digits. -/
structure IsUsable (spelling : Spelling) (cs : List Char) : Prop where
  letter_first : ∃ c rest, cs = c :: rest ∧ c.isAlpha = true
  chars : ∀ c ∈ cs, c.isAlphanum = true ∨ (c = '_' ∧ spelling ≠ .pascal)
  neighbours : cs.IsChain Joinable
  last : ∀ c ∈ cs.getLast?, c.isAlphanum = true

/-! ## Joined parts -/

/-- At least one character, all of them letters or digits. -/
def IsPart (p : List Char) : Prop := p ≠ [] ∧ ∀ c ∈ p, c.isAlphanum = true

theorem IsWord.isPart {w : List Char} (h : IsWord w) : IsPart w :=
  ⟨h.1, fun c hc => (h.2 c hc).isAlphanum⟩

theorem IsWord.isPart_map_toUpper {w : List Char} (h : IsWord w) : IsPart (w.map Char.toUpper) := by
  refine ⟨mt List.map_eq_nil_iff.1 h.1, fun c hc => ?_⟩
  obtain ⟨d, hd, rfl⟩ := List.mem_map.1 hc
  exact (h.2 d hd).isAlphanum_toUpper

section Parts

variable {p : List Char} {ps : List (List Char)}

theorem IsPart.isChain (h : IsPart p) : p.IsChain Joinable :=
  (List.pairwise_of_forall_mem_list fun _ hc _ _ => Or.inl (h.2 _ hc)).isChain

theorem IsPart.isAlphanum_getLast (h : IsPart p) : ∀ c ∈ p.getLast?, c.isAlphanum = true :=
  fun c hc => h.2 c (List.mem_of_getLast? hc)

theorem IsPart.isChain_append (h : IsPart p) {rest : List Char} (hrest : rest.IsChain Joinable) :
    (p ++ rest).IsChain Joinable :=
  List.isChain_append.2 ⟨h.isChain, hrest, fun c hc _ _ => Or.inl (h.isAlphanum_getLast c hc)⟩

/-- The underscores before parts stand alone, and there is a part after each. -/
theorem isChain_flatMap (h : ∀ p ∈ ps, IsPart p) : (ps.flatMap ('_' :: ·)).IsChain Joinable := by
  induction ps with
  | nil => exact .nil
  | cons p ps ih =>
    obtain ⟨hp, hps⟩ := List.forall_mem_cons.1 h
    have hrest := hp.isChain_append (ih hps)
    obtain ⟨hne, hchars⟩ := hp
    cases p with
    | nil => exact absurd rfl hne
    | cons c cs => exact .cons_cons (Or.inr (hchars c List.mem_cons_self)) hrest

theorem isAlphanum_getLast_flatMap (h : ∀ p ∈ ps, IsPart p) :
    ∀ c ∈ (ps.flatMap ('_' :: ·)).getLast?, c.isAlphanum = true := by
  induction ps with
  | nil =>
    intro c hc
    cases hc
  | cons p ps ih =>
    obtain ⟨hp, hps⟩ := List.forall_mem_cons.1 h
    intro c hc
    rw [List.flatMap_cons, List.getLast?_append, Option.mem_def, Option.or_eq_some_iff] at hc
    rcases hc with hc | ⟨-, hc⟩
    · exact ih hps c hc
    · obtain ⟨hne, hchars⟩ := hp
      obtain ⟨d, ds, rfl⟩ := List.exists_cons_of_ne_nil hne
      rw [List.getLast?_cons_cons] at hc
      exact hchars c (List.mem_of_getLast? hc)

theorem isChain_joinWords (h : ∀ p ∈ ps, IsPart p) : (joinWords ps).IsChain Joinable := by
  cases ps with
  | nil => exact .nil
  | cons p ps =>
    obtain ⟨hp, hps⟩ := List.forall_mem_cons.1 h
    rw [joinWords_cons]
    exact hp.isChain_append (isChain_flatMap hps)

theorem isAlphanum_getLast_joinWords (h : ∀ p ∈ ps, IsPart p) :
    ∀ c ∈ (joinWords ps).getLast?, c.isAlphanum = true := by
  cases ps with
  | nil =>
    intro c hc
    cases hc
  | cons p ps =>
    obtain ⟨hp, hps⟩ := List.forall_mem_cons.1 h
    intro c hc
    rw [joinWords_cons, List.getLast?_append, Option.mem_def, Option.or_eq_some_iff] at hc
    rcases hc with hc | ⟨-, hc⟩
    · exact isAlphanum_getLast_flatMap hps c hc
    · exact hp.isAlphanum_getLast c hc

end Parts

/-! ## Names that start with a letter -/

section Letter

variable {c : Char}

theorem isAlphanum_of_isAlpha (h : c.isAlpha = true) : c.isAlphanum = true := by
  rw [Char.isAlphanum, h, Bool.true_or]

theorem isLower_toLower (h : c.isAlpha = true) : c.toLower.isLower = true :=
  forall_of_isAlphanum (p := fun c => c.isAlpha = true → c.toLower.isLower = true) (by decide)
    (isAlphanum_of_isAlpha h) h

/-- The first letter of the name is the first one of its first word. -/
theorem exists_words_of_isAlpha (h : c.isAlpha = true) (cs : List Char) :
    ∃ w ws, words (c :: cs) = (c.toLower :: w) :: ws := by
  have hletters : (words (c :: cs)).flatten = c.toLower :: wordOf cs := by
    rw [flatten_words, wordOf, List.filter_cons_of_pos (isAlphanum_of_isAlpha h)]
    rfl
  -- There are letters, so there are words, and no word is empty.
  cases hwords : words (c :: cs) with
  | nil =>
    rw [hwords] at hletters
    cases hletters
  | cons v ws =>
    have hmem : v ∈ words (c :: cs) := by
      rw [hwords]
      exact List.mem_cons_self
    obtain ⟨d, w, rfl⟩ := List.exists_cons_of_ne_nil (isWord_of_mem_words hmem).1
    rw [hwords] at hletters
    have hd : d = c.toLower := (List.cons.inj hletters).1
    exact ⟨w, ws, by rw [hd]⟩

/-- Joined words start as the first of them does. -/
theorem exists_join_of_isLower (h : c.isLower = true) (spelling : Spelling) (w : List Char)
    (ws : List (List Char)) :
    ∃ d rest, join spelling ((c :: w) :: ws) = d :: rest ∧ d.isAlpha = true := by
  have hword : IsWordChar c := Or.inl h
  have hsmall : (c.isUpper || c.isLower) = true := by rw [h, Bool.or_true]
  have hcapital : c.toUpper.isAlpha = true :=
    forall_of_isAlphanum (p := fun c => c.isLower = true → c.toUpper.isAlpha = true) (by decide)
      hword.isAlphanum h
  cases spelling with
  | snake => exact ⟨c, _, joinWords_cons _ _, hsmall⟩
  | constant =>
    exact ⟨c.toUpper, _, congrArg (List.map Char.toUpper) (joinWords_cons _ _), hcapital⟩
  | pascal => exact ⟨c.toUpper, _, rfl, hcapital⟩

theorem guardDigit_of_isAlpha (h : c.isAlpha = true) (cs : List Char) :
    guardDigit (c :: cs) = c :: cs := by
  have hdigit : c.isDigit = false :=
    forall_of_isAlphanum (p := fun c => c.isAlpha = true → c.isDigit = false) (by decide)
      (isAlphanum_of_isAlpha h) h
  rw [guardDigit, hdigit, if_neg Bool.false_ne_true]

/-- A spelling puts nothing before the words of a name that starts with a letter. -/
theorem spell_eq_join (h : c.isAlpha = true) (spelling : Spelling) (cs : List Char) :
    spell spelling (c :: cs) = join spelling (words (c :: cs)) ∧
      ∃ d rest, join spelling (words (c :: cs)) = d :: rest ∧ d.isAlpha = true := by
  obtain ⟨w, ws, hwords⟩ := exists_words_of_isAlpha h cs
  obtain ⟨d, rest, hjoin, hd⟩ := exists_join_of_isLower (isLower_toLower h) spelling w ws
  rw [spell, hwords, hjoin, guardDigit_of_isAlpha hd]
  exact ⟨rfl, d, rest, rfl, hd⟩

end Letter

/-! ## Usable spellings -/

section Usable

variable {c : Char}

/-- Each spelling joins parts; the Pascal spelling is a single one. -/
theorem exists_join_eq_joinWords (h : c.isAlpha = true) (spelling : Spelling) (cs : List Char) :
    ∃ ps, join spelling (words (c :: cs)) = joinWords ps ∧ ∀ p ∈ ps, IsPart p := by
  cases spelling with
  | snake => exact ⟨words (c :: cs), rfl, fun w hw => (isWord_of_mem_words hw).isPart⟩
  | constant =>
    refine ⟨(words (c :: cs)).map (List.map Char.toUpper), map_joinWords rfl _, ?_⟩
    exact List.forall_mem_map.2 fun w hw => (isWord_of_mem_words hw).isPart_map_toUpper
  | pascal =>
    obtain ⟨-, d, rest, hjoin, -⟩ := spell_eq_join h .pascal cs
    have hne : join .pascal (words (c :: cs)) ≠ [] := by
      rw [hjoin]
      exact List.cons_ne_nil d rest
    refine ⟨[join .pascal (words (c :: cs))], by simp [joinWords], ?_⟩
    exact List.forall_mem_singleton.2 ⟨hne, fun _ => isAlphanum_of_mem_join_pascal⟩

/-- What a spelling makes of a name that starts with a letter is an identifier. -/
theorem isUsable_spell (h : c.isAlpha = true) (spelling : Spelling) (cs : List Char) :
    IsUsable spelling (spell spelling (c :: cs)) := by
  obtain ⟨hspell, d, rest, hjoin, hd⟩ := spell_eq_join h spelling cs
  obtain ⟨ps, hps, hparts⟩ := exists_join_eq_joinWords h spelling cs
  constructor
  case letter_first => exact ⟨d, rest, hspell.trans hjoin, hd⟩
  case chars =>
    intro e he
    by_cases hpascal : spelling = .pascal
    · subst hpascal
      rw [hspell] at he
      exact Or.inl (isAlphanum_of_mem_join_pascal he)
    · exact (isAlphanum_or_eq_underscore_of_mem_spell he).imp_right fun heq => ⟨heq, hpascal⟩
  case neighbours =>
    rw [hspell, hps]
    exact isChain_joinWords hparts
  case last =>
    rw [hspell, hps]
    exact isAlphanum_getLast_joinWords hparts

end Usable

/-- A word is reserved in capitals exactly when it is reserved in small letters. -/
theorem isReserved_constant (name : String) :
    isReserved (ofName .constant name) = isReserved (ofName .snake name) := by
  simp only [isReserved, ofName, String.toList_ofList, map_toLower_spell_constant,
    map_toLower_spell_snake]

end Identifier

/-! ## Accepted names -/

/-- What a name has to be for the check to find no flaw. -/
theorem nameFlaw?_eq_none_iff {name : String} :
    nameFlaw? name = none ↔
      (∃ c cs, name.toList = c :: cs ∧ c.isAlpha = true) ∧
        (∀ c ∈ name.toList, isPrintable c = true) ∧
          Identifier.isReserved (Identifier.ofName .snake name) = false := by
  rw [nameFlaw?]
  cases hname : name.toList with
  | nil => simp
  | cons c cs =>
    have hfirst : (∃ d ds, c :: cs = d :: ds ∧ d.isAlpha = true) ↔ c.isAlpha = true := by simp
    rw [hfirst, ← List.all_eq_true]
    dsimp only
    -- Three tests in a row, and no flaw only where each of them passes.
    cases c.isAlpha with
    | false => simp
    | true =>
      cases (c :: cs).all isPrintable with
      | false => simp
      | true => cases Identifier.isReserved (Identifier.ofName .snake name) <;> simp

open Identifier in
/-- **Accepted names are usable identifiers.** Whatever the spelling, the identifier of an accepted
name is its words and what joins them, with a letter first, and then letters and digits and single
underscores between them; a Pascal identifier has no underscore. Neither the snake nor the constant
identifier is a reserved word. -/
theorem checkName_usable (path : EntityPath) (h : checkName path = .ok ()) :
    (∀ spelling, (ofName spelling path.name).toList = join spelling (words path.name.toList) ∧
        IsUsable spelling (ofName spelling path.name).toList) ∧
      isReserved (ofName .snake path.name) = false ∧
        isReserved (ofName .constant path.name) = false := by
  obtain ⟨⟨c, cs, hname, halpha⟩, -, hreserved⟩ := nameFlaw?_eq_none_iff.1 (checkName_eq_ok_iff.1 h)
  refine ⟨fun spelling => ?_, hreserved, ?_⟩
  · rw [ofName, String.toList_ofList, hname]
    exact ⟨(spell_eq_join halpha spelling cs).1, isUsable_spell halpha spelling cs⟩
  · rw [isReserved_constant, hreserved]

/-- A name with punctuation, two spaces, a digit that starts a word, and both cases. -/
theorem checkName_usable_punctuated :
    checkName ((EntityPath.root "regs").child "I/O  2nd-Port") = .ok () ∧
      Identifier.ofName .snake "I/O  2nd-Port" = "io_2nd_port" ∧
      Identifier.IsUsable .snake "io_2nd_port".toList ∧
      Identifier.isReserved "IO_2ND_PORT" = false := by
  have haccepted : checkName ((EntityPath.root "regs").child "I/O  2nd-Port") = .ok () := by decide
  obtain ⟨hspellings, -, hreserved⟩ := checkName_usable _ haccepted
  exact ⟨haccepted, by decide, (hspellings .snake).2, hreserved⟩

/-- A Pascal identifier may be reserved, as it has lost what the snake identifier keeps apart. -/
example :
    nameFlaw? "wi re" = none ∧
      Identifier.isReserved (Identifier.ofName .pascal "wi re") = true := by
  decide

end BusMap
