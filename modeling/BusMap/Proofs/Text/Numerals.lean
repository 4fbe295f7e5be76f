import Mathlib.Data.Nat.Digits.Defs
import Mathlib.Tactic.IntervalCases
import BusMap.Proofs.Outcome
import BusMap.Text.Blank
import BusMap.Text.Hex
import BusMap.Text.Numeral

/-!
# What numerals denote

A list of digits spells a number (`Text.Spells`), and a numeral is such a list after a sign. Reading
takes exactly the numerals whose number is within the bounds (`Text.readNat_eq_ok_iff`,
`Text.readInt_eq_ok_iff`): the bound is checked after every digit, and no later digit makes a number
smaller.
-/

set_option autoImplicit false

namespace BusMap.Text

/-! ## Digits -/

/-- The character is the digit of a number below the radix, as a small letter or a capital one. -/
def IsDigit (radix : Nat) (c : Char) (d : Nat) : Prop :=
  d < radix ∧ (c = d.digitChar ∨ c = d.digitChar.toUpper)

variable {radix d n : Nat} {c : Char} {cs : List Char}

theorem digitValue?_digitChar (h : d < 16) : digitValue? d.digitChar = some d := by
  interval_cases d <;> rfl

theorem digitValue?_toUpper_digitChar (h : d < 16) :
    digitValue? d.digitChar.toUpper = some d := by
  interval_cases d <;> rfl

/-- Only characters among the first 128 are digits in any radix. -/
theorem toNat_lt_of_digitValue? (h : digitValue? c = some d) : c.toNat < 128 := by
  unfold digitValue? at h
  split at h
  · rename_i hc
    exact Nat.lt_of_le_of_lt hc.2 (by decide)
  · split at h
    · rename_i hc
      exact Nat.lt_of_le_of_lt hc.2 (by decide)
    · split at h
      · rename_i hc
        exact Nat.lt_of_le_of_lt hc.2 (by decide)
      · cases h

theorem eq_digitChar_of_digitValue? (h : digitValue? c = some d) (hd : d < 16) :
    c = d.digitChar ∨ c = d.digitChar.toUpper := by
  have hcodes : ∀ n < 128, ∀ d ∈ digitValue? (Char.ofNat n), d < 16 →
      Char.ofNat n = d.digitChar ∨ Char.ofNat n = d.digitChar.toUpper := by decide
  have hcode := hcodes c.toNat (toNat_lt_of_digitValue? h)
  rw [Char.ofNat_toNat] at hcode
  exact hcode d h hd

/-- The value of a character as a digit, in radices up to the hexadecimal one. -/
theorem digit?_eq_some_iff (hradix : radix ≤ 16) : digit? radix c = some d ↔ IsDigit radix c d := by
  rw [digit?, Option.filter_eq_some_iff, decide_eq_true_eq, IsDigit]
  constructor
  · rintro ⟨hvalue, hd⟩
    exact ⟨hd, eq_digitChar_of_digitValue? hvalue (by omega)⟩
  · rintro ⟨hd, rfl | rfl⟩
    · exact ⟨digitValue?_digitChar (by omega), hd⟩
    · exact ⟨digitValue?_toUpper_digitChar (by omega), hd⟩

/-- A character is the digit of one number only. -/
theorem IsDigit.inj (hradix : radix ≤ 16) {e : Nat} (hd : IsDigit radix c d)
    (he : IsDigit radix c e) : d = e := by
  rw [← digit?_eq_some_iff hradix] at hd he
  exact Option.some.inj (hd.symm.trans he)

/-- What holds of the sixteen digits, in both cases of the letters, holds of every digit. -/
theorem IsDigit.forall_of {p : Char → Prop} (hradix : radix ≤ 16)
    (h : ∀ d < 16, p d.digitChar ∧ p d.digitChar.toUpper) (hd : IsDigit radix c d) : p c := by
  rcases hd with ⟨hlt, rfl | rfl⟩
  · exact (h d (by omega)).1
  · exact (h d (by omega)).2

/-! ## Lists of digits -/

/-- The characters are digits of a number, the highest first; there is at least one. -/
def Spells (radix : Nat) (cs : List Char) (n : Nat) : Prop :=
  cs ≠ [] ∧ ∃ ds, List.Forall₂ (IsDigit radix) cs ds ∧ n = Nat.ofDigits radix ds.reverse

/-- A digit moves the number before it up by one place. -/
theorem shift_add_ofDigits (radix value d : Nat) (ds : List Nat) :
    value * radix ^ (d :: ds).length + Nat.ofDigits radix (d :: ds).reverse =
      (value * radix + d) * radix ^ ds.length + Nat.ofDigits radix ds.reverse := by
  rw [Nat.ofDigits_reverse_cons, List.length_cons]
  ring

/-- Reading digits onto a value puts them below it, as long as the result is within the bound. -/
theorem readDigits_eq_ok_iff (hpos : 1 ≤ radix) (hradix : radix ≤ 16) {bound value : Nat}
    (hvalue : value ≤ bound) {beyond : NumeralError} :
    readDigits radix bound beyond value cs = .ok n ↔
      ∃ ds, List.Forall₂ (IsDigit radix) cs ds ∧
        n = value * radix ^ ds.length + Nat.ofDigits radix ds.reverse ∧ n ≤ bound := by
  induction cs generalizing value with
  | nil =>
    simp only [readDigits, List.forall₂_nil_left_iff, exists_eq_left, Except.ok.injEq]
    simp
    omega
  | cons c cs ih =>
    rw [readDigits]
    cases hdigit : digit? radix c with
    | none =>
      refine iff_of_false (by simp) ?_
      rintro ⟨ds, hds, -⟩
      obtain ⟨d, ds, hd, -, -⟩ := List.forall₂_cons_left_iff.1 hds
      rw [(digit?_eq_some_iff hradix).2 hd] at hdigit
      cases hdigit
    | some d =>
      have hd := (digit?_eq_some_iff hradix).1 hdigit
      dsimp only
      split
      · rename_i hnext
        rw [ih hnext]
        constructor
        · rintro ⟨ds, hds, hn, hbound⟩
          exact ⟨d :: ds, .cons hd hds, hn.trans (shift_add_ofDigits radix value d ds).symm, hbound⟩
        · rintro ⟨ds, hds, hn, hbound⟩
          obtain ⟨e, ds, he, hrest, rfl⟩ := List.forall₂_cons_left_iff.1 hds
          cases hd.inj hradix he
          exact ⟨ds, hrest, hn.trans (shift_add_ofDigits radix value d ds), hbound⟩
      · -- The value so far is beyond the bound, and the digits that follow only add to it.
        rename_i hnext
        refine iff_of_false (by simp) ?_
        rintro ⟨ds, hds, hn, hbound⟩
        obtain ⟨e, ds, he, -, rfl⟩ := List.forall₂_cons_left_iff.1 hds
        cases hd.inj hradix he
        rw [shift_add_ofDigits] at hn
        have hpower : 1 ≤ radix ^ ds.length := Nat.one_le_pow _ _ hpos
        have hle : value * radix + d ≤ (value * radix + d) * radix ^ ds.length :=
          Nat.le_mul_of_pos_right _ hpower
        omega

/-- From zero on, the digits that are read spell the number. -/
theorem readDigits_zero_eq_ok_iff (hpos : 1 ≤ radix) (hradix : radix ≤ 16) (hcs : cs ≠ [])
    {bound : Nat} {beyond : NumeralError} :
    readDigits radix bound beyond 0 cs = .ok n ↔ Spells radix cs n ∧ n ≤ bound := by
  rw [readDigits_eq_ok_iff hpos hradix (Nat.zero_le bound), Spells, and_iff_right hcs]
  simp only [Nat.zero_mul, Nat.zero_add, ← and_assoc, exists_and_right]

theorem Spells.exists_isDigit (h : Spells radix cs n) (hc : c ∈ cs) : ∃ d, IsDigit radix c d := by
  obtain ⟨-, ds, hds, -⟩ := h
  obtain ⟨d, -, hd⟩ := exists_mem_of_forall₂ hds.flip hc
  exact ⟨d, hd⟩

/-- What holds of the sixteen digits holds of every character of a number. -/
theorem Spells.forall_of {p : Char → Prop} (hradix : radix ≤ 16)
    (hp : ∀ d < 16, p d.digitChar ∧ p d.digitChar.toUpper) (h : Spells radix cs n) :
    ∀ c ∈ cs, p c := by
  intro c hc
  obtain ⟨d, hd⟩ := h.exists_isDigit hc
  exact hd.forall_of hradix hp

/-- Digits spell one number only. -/
theorem Spells.unique (hradix : radix ≤ 16) {m : Nat} (h : Spells radix cs n)
    (h' : Spells radix cs m) : n = m := by
  obtain ⟨-, ds, hds, rfl⟩ := h
  obtain ⟨-, ds', hds', rfl⟩ := h'
  have hunique : Relator.RightUnique (IsDigit radix) := fun _ _ _ => IsDigit.inj hradix
  rw [List.right_unique_forall₂' hunique hds hds']

/-! ## Signs -/

/-- What may stand in front of the digits of a number. -/
inductive Sign where
  | absent
  | plus
  | minus
deriving DecidableEq, Repr

namespace Sign

/-- The characters of the sign. -/
def chars : Sign → List Char
  | absent => []
  | plus => ['+']
  | minus => ['-']

/-- The number of a size with the sign. -/
def apply : Sign → Nat → Int
  | absent, n => n
  | plus, n => n
  | minus, n => -n

variable {sign : Sign}

/-- Only a minus makes a number negative. -/
theorem apply_eq_neg_iff {n m : Nat} (hm : 1 ≤ m) : sign.apply n = -m ↔ sign = .minus ∧ n = m := by
  cases sign with
  | absent => simp [apply]; omega
  | plus => simp [apply]; omega
  | minus => simp [apply]

theorem isBlank_eq_false {c : Char} (hc : c ∈ sign.chars) : isBlank c = false := by
  cases sign with
  | absent => cases hc
  | plus => rw [List.mem_singleton.1 hc]; decide
  | minus => rw [List.mem_singleton.1 hc]; decide

end Sign

/-- The character is a sign. -/
def IsSign (c : Char) : Prop := c = '+' ∨ c = '-'

instance (c : Char) : Decidable (IsSign c) :=
  inferInstanceAs (Decidable (_ ∨ _))

theorem Spells.not_isSign (hradix : radix ≤ 16) (h : Spells radix cs n) : ∀ c ∈ cs, ¬ IsSign c :=
  h.forall_of hradix (by decide)

/-- The characters are a sign and digits that spell the size of a number. -/
def Denotes (radix : Nat) (cs : List Char) (sign : Sign) (n : Nat) : Prop :=
  ∃ digits, cs = sign.chars ++ digits ∧ Spells radix digits n

theorem Sign.exists_iff {p : Sign → Prop} : (∃ sign, p sign) ↔ p .absent ∨ p .plus ∨ p .minus := by
  constructor
  · rintro ⟨sign, h⟩
    cases sign with
    | absent => exact Or.inl h
    | plus => exact Or.inr (Or.inl h)
    | minus => exact Or.inr (Or.inr h)
  · rintro (h | h | h)
    · exact ⟨_, h⟩
    · exact ⟨_, h⟩
    · exact ⟨_, h⟩

@[simp] theorem denotes_absent_iff : Denotes radix cs .absent n ↔ Spells radix cs n := by
  simp [Denotes, Sign.chars]

@[simp] theorem denotes_plus_iff :
    Denotes radix cs .plus n ↔ ∃ digits, cs = '+' :: digits ∧ Spells radix digits n := Iff.rfl

@[simp] theorem denotes_minus_iff :
    Denotes radix cs .minus n ↔ ∃ digits, cs = '-' :: digits ∧ Spells radix digits n := Iff.rfl

@[simp] theorem not_spells_nil : ¬ Spells radix [] n := fun h => h.1 rfl

/-- No number is spelled with a sign among its digits. -/
theorem not_spells_cons_of_isSign (hradix : radix ≤ 16) (hc : IsSign c) :
    ¬ Spells radix (c :: cs) n :=
  fun h => h.not_isSign hradix c List.mem_cons_self hc

/-- Digits are no blanks. -/
theorem Spells.isBlank_eq_false (hradix : radix ≤ 16) (h : Spells radix cs n) (hc : c ∈ cs) :
    isBlank c = false :=
  h.forall_of (p := fun c => isBlank c = false) hradix (by decide) c hc

theorem filter_isSign_chars (sign : Sign) : sign.chars.filter (IsSign ·) = sign.chars := by
  cases sign <;> rfl

theorem filter_not_isSign_chars (sign : Sign) : sign.chars.filter (¬ IsSign ·) = [] := by
  cases sign <;> rfl

theorem filter_isSign_of_spells (hradix : radix ≤ 16) (h : Spells radix cs n) :
    cs.filter (IsSign ·) = [] := by
  rw [List.filter_eq_nil_iff]
  intro c hc hsign
  exact h.not_isSign hradix c hc (of_decide_eq_true hsign)

theorem filter_not_isSign_of_spells (hradix : radix ≤ 16) (h : Spells radix cs n) :
    cs.filter (¬ IsSign ·) = cs := by
  rw [List.filter_eq_self]
  intro c hc
  exact decide_eq_true (h.not_isSign hradix c hc)

/-- The characters decide which sign and which digits they are. -/
theorem Denotes.unique (hradix : radix ≤ 16) {sign sign' : Sign} {m : Nat}
    (h : Denotes radix cs sign n) (h' : Denotes radix cs sign' m) : sign = sign' ∧ n = m := by
  obtain ⟨digits, rfl, hdigits⟩ := h
  obtain ⟨digits', heq, hdigits'⟩ := h'
  have hchars : sign.chars = sign'.chars := by
    have hfilter := congrArg (List.filter (IsSign ·)) heq
    rwa [List.filter_append, List.filter_append, filter_isSign_chars, filter_isSign_chars,
      filter_isSign_of_spells hradix hdigits, filter_isSign_of_spells hradix hdigits',
      List.append_nil, List.append_nil] at hfilter
  rw [hchars, List.append_cancel_left_eq] at heq
  subst heq
  refine ⟨?_, hdigits.unique hradix hdigits'⟩
  cases sign <;> cases sign' <;> first | rfl | cases hchars

/-! ## Reading numerals -/

/-- Digits without a minus are read up to the greatest integer of so many bits. -/
theorem readDigits_map_ofNat_eq_ok_iff (hpos : 1 ≤ radix) (hradix : radix ≤ 16) (hcs : cs ≠ [])
    {bits : Nat} {v : Int} :
    (readDigits radix ((1 <<< bits) - 1) .tooLarge 0 cs).map Int.ofNat = .ok v ↔
      ∃ n : Nat, Spells radix cs n ∧ v = n ∧ -2 ^ bits ≤ v ∧ v < 2 ^ bits := by
  have hpower := Nat.two_pow_pos bits
  refine map_eq_ok_iff.trans (exists_congr fun n => ?_)
  rw [readDigits_zero_eq_ok_iff hpos hradix hcs, Nat.one_shiftLeft, and_assoc]
  refine and_congr_right fun _ => ?_
  constructor
  · rintro ⟨hn, rfl⟩
    have hlt : (n : Int) < 2 ^ bits := by exact_mod_cast (by omega : n < 2 ^ bits)
    exact ⟨rfl, by simp only [Int.ofNat_eq_natCast]; omega, hlt⟩
  · rintro ⟨rfl, -, hlt⟩
    have hn : n < 2 ^ bits := by exact_mod_cast hlt
    exact ⟨by omega, rfl⟩

/-- Digits after a minus are read down to the least integer of so many bits. -/
theorem readDigits_map_neg_eq_ok_iff (hpos : 1 ≤ radix) (hradix : radix ≤ 16) (hcs : cs ≠ [])
    {bits : Nat} {v : Int} :
    (readDigits radix (1 <<< bits) .tooSmall 0 cs).map (fun n => -Int.ofNat n) = .ok v ↔
      ∃ n : Nat, Spells radix cs n ∧ v = -n ∧ -2 ^ bits ≤ v ∧ v < 2 ^ bits := by
  have hpower := Nat.two_pow_pos bits
  have hpower' : (0 : Int) < 2 ^ bits := by exact_mod_cast hpower
  refine map_eq_ok_iff.trans (exists_congr fun n => ?_)
  rw [readDigits_zero_eq_ok_iff hpos hradix hcs, Nat.one_shiftLeft, and_assoc]
  refine and_congr_right fun _ => ?_
  constructor
  · rintro ⟨hn, rfl⟩
    have hle : (n : Int) ≤ 2 ^ bits := by exact_mod_cast hn
    simp only [Int.ofNat_eq_natCast]
    exact ⟨trivial, by omega, by omega⟩
  · rintro ⟨rfl, hle, -⟩
    have hn : (n : Int) ≤ 2 ^ bits := by omega
    exact ⟨by exact_mod_cast hn, rfl⟩

/-- An integer is read from digits with at most one sign, if it has so many bits and a sign bit. -/
theorem readInt_eq_ok_iff (hpos : 1 ≤ radix) (hradix : radix ≤ 16) {bits : Nat} {v : Int} :
    readInt radix bits cs = .ok v ↔
      ∃ sign n, Denotes radix cs sign n ∧ v = sign.apply n ∧ -2 ^ bits ≤ v ∧ v < 2 ^ bits := by
  have hplus : ∀ cs n, ¬ Spells radix ('+' :: cs) n :=
    fun _ _ => not_spells_cons_of_isSign hradix (Or.inl rfl)
  have hminus : ∀ cs n, ¬ Spells radix ('-' :: cs) n :=
    fun _ _ => not_spells_cons_of_isSign hradix (Or.inr rfl)
  unfold readInt
  split
  · simp [Sign.exists_iff]
  · simp [Sign.exists_iff, hplus]
  · simp [Sign.exists_iff, hminus]
  · rename_i rest hrest
    rw [readDigits_map_ofNat_eq_ok_iff hpos hradix (by simpa using hrest)]
    simp [Sign.exists_iff, Sign.apply, hplus]
  · rename_i rest hrest
    rw [readDigits_map_neg_eq_ok_iff hpos hradix (by simpa using hrest)]
    simp [Sign.exists_iff, Sign.apply, hminus]
  · rename_i hnil _ _ hnoPlus hnoMinus
    have hnoPlus' : ∀ rest, cs ≠ '+' :: rest := hnoPlus
    have hnoMinus' : ∀ rest, cs ≠ '-' :: rest := hnoMinus
    rw [readDigits_map_ofNat_eq_ok_iff hpos hradix hnil]
    simp [Sign.exists_iff, Sign.apply, hnoPlus', hnoMinus']

/-- A sign and digits are read as the number that they denote, if it has so many bits. -/
theorem readInt_eq_ok_iff_of_denotes (hpos : 1 ≤ radix) (hradix : radix ≤ 16) {sign : Sign}
    (h : Denotes radix cs sign n) {bits : Nat} {v : Int} :
    readInt radix bits cs = .ok v ↔ v = sign.apply n ∧ -2 ^ bits ≤ v ∧ v < 2 ^ bits := by
  rw [readInt_eq_ok_iff hpos hradix]
  constructor
  · rintro ⟨sign', n', h', hv⟩
    obtain ⟨rfl, rfl⟩ := h'.unique hradix h
    exact hv
  · rintro hv
    exact ⟨sign, n, h, hv⟩

/-! ## Writing numerals -/

/-- A digit at the end counts its own value, and those before it the radix times theirs. -/
theorem Spells.concat (h : Spells radix cs n) (hd : IsDigit radix c d) :
    Spells radix (cs ++ [c]) (radix * n + d) := by
  obtain ⟨-, ds, hds, rfl⟩ := h
  refine ⟨by simp, ds ++ [d], List.rel_append hds (.cons hd .nil), ?_⟩
  rw [List.reverse_append, List.reverse_singleton, List.singleton_append, Nat.ofDigits_cons,
    Nat.add_comm]

/-- A number is spelled by the digits that division by the radix gives. -/
theorem spells_toDigits (hone : 1 < radix) (n : Nat) : Spells radix (Nat.toDigits radix n) n := by
  -- The last digit is the remainder, and those before it spell the quotient.
  induction n using Nat.strongRecOn with
  | ind n ih =>
    rw [Nat.toDigits_eq_if hone]
    split
    · rename_i hlt
      exact ⟨by simp, [n], .cons ⟨hlt, Or.inl rfl⟩ .nil, by simp⟩
    · rename_i hle
      have hdigit : IsDigit radix (n % radix).digitChar (n % radix) :=
        ⟨Nat.mod_lt _ (by omega), Or.inl rfl⟩
      have hquotient := (ih (n / radix) (Nat.div_lt_self (by omega) hone)).concat hdigit
      rwa [Nat.div_add_mod] at hquotient

theorem IsDigit.toUpper (hradix : radix ≤ 16) (h : IsDigit radix c d) :
    IsDigit radix c.toUpper d := by
  have hcapital : ∀ d < 16, d.digitChar.toUpper.toUpper = d.digitChar.toUpper := by decide
  rcases h with ⟨hd, rfl | rfl⟩
  · exact ⟨hd, Or.inr rfl⟩
  · exact ⟨hd, Or.inr (hcapital d (by omega))⟩

/-- Letters among the digits may be capitals. -/
theorem Spells.map_toUpper (hradix : radix ≤ 16) (h : Spells radix cs n) :
    Spells radix (cs.map Char.toUpper) n := by
  obtain ⟨hne, ds, hds, rfl⟩ := h
  refine ⟨by simpa using hne, ds, ?_, rfl⟩
  rw [List.forall₂_map_left_iff]
  exact hds.imp fun _ _ => IsDigit.toUpper hradix

@[simp] theorem spells_hexDigits (n : Nat) : Spells 16 (hexDigits n) n :=
  (spells_toDigits (by decide) n).map_toUpper (Nat.le_refl 16)

end BusMap.Text
