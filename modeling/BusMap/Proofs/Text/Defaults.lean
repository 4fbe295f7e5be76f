import BusMap.Proofs.Text.Numerals
import BusMap.Proofs.Text.Trimming
import BusMap.Register.Reading

/-!
# Defaults as texts

A default is written as a number in decimal or, after a mark, in hexadecimal, with blanks around it
and underscores anywhere. A minus is taken off the front before the number is read, and the number
may carry a sign of its own.
-/

set_option autoImplicit false

namespace BusMap

open Text Toml

/-! ## Written numbers -/

/-- What tells decimal digits from hexadecimal ones. -/
inductive Mark where
  | decimal
  | small
  | capital
deriving DecidableEq, Repr

namespace Mark

/-- The characters of the mark. -/
def chars : Mark → List Char
  | decimal => []
  | small => ['0', 'x']
  | capital => ['0', 'X']

/-- Radix of the digits after the mark. -/
def radix : Mark → Nat
  | decimal => 10
  | small => 16
  | capital => 16

theorem one_le_radix (mark : Mark) : 1 ≤ mark.radix := by
  cases mark <;> decide

theorem radix_le (mark : Mark) : mark.radix ≤ 16 := by
  cases mark <;> decide

theorem filter_isSign_chars (mark : Mark) : mark.chars.filter (IsSign ·) = [] := by
  cases mark <;> rfl

theorem filter_not_isSign_chars (mark : Mark) :
    mark.chars.filter (¬ IsSign ·) = mark.chars := by
  cases mark <;> rfl

theorem isBlank_eq_false {mark : Mark} {c : Char} (hc : c ∈ mark.chars) : isBlank c = false := by
  cases mark with
  | decimal => cases hc
  | small => rcases List.mem_pair.1 hc with rfl | rfl <;> decide
  | capital => rcases List.mem_pair.1 hc with rfl | rfl <;> decide

end Mark

/-- The text is digits after a mark with at most one sign anywhere, and the number is what the digits
spell, with the sign. -/
def IsSignedNumber (cs : List Char) (v : Int) : Prop :=
  ∃ (sign : Sign) (mark : Mark) (digits : List Char) (n : Nat),
    cs.filter (IsSign ·) = sign.chars ∧ cs.filter (¬ IsSign ·) = mark.chars ++ digits ∧
      Spells mark.radix digits n ∧ v = sign.apply n

/-- The text is a minus and a number with a sign of its own after the mark. -/
def IsDoublySigned (cs : List Char) (sign : Sign) (n : Nat) : Prop :=
  sign ≠ .absent ∧ ∃ (mark : Mark) (rest : List Char),
    cs = '-' :: (mark.chars ++ rest) ∧ Denotes mark.radix rest sign n

variable {cs rest : List Char} {mark : Mark} {sign : Sign} {n : Nat} {v : Int}

/-! ## Reading the number -/

/-- Neither letter of a mark is a decimal digit or a sign. -/
theorem not_denotes_ten_of_mem {c : Char} (hc : c ∈ cs) (hmark : c = 'x' ∨ c = 'X') :
    ¬ Denotes 10 cs sign n := by
  rintro ⟨digits, rfl, hdigits⟩
  rcases List.mem_append.1 hc with hsign | hdigit
  · rcases hmark with rfl | rfl <;> cases sign <;> revert hsign <;> decide
  · obtain ⟨d, hd⟩ := hdigits.exists_isDigit hdigit
    rw [← digit?_eq_some_iff (by decide)] at hd
    rcases hmark with rfl | rfl <;> cases hd

/-- The mark decides the radix of the number after it. -/
theorem readMagnitude_marked (h : Denotes mark.radix rest sign n) :
    readMagnitude (mark.chars ++ rest) = Text.readInt mark.radix defaultBits rest := by
  cases mark with
  | small => rfl
  | capital => rfl
  | decimal =>
    rw [Mark.chars, List.nil_append]
    unfold readMagnitude
    split
    -- Decimal digits do not look like a mark.
    · exact absurd h (not_denotes_ten_of_mem (by simp) (Or.inl rfl))
    · exact absurd h (not_denotes_ten_of_mem (by simp) (Or.inr rfl))
    · rfl

theorem readMagnitude_marked_eq_ok_iff (h : Denotes mark.radix rest sign n) :
    readMagnitude (mark.chars ++ rest) = .ok v ↔
      v = sign.apply n ∧ -2 ^ 127 ≤ v ∧ v < 2 ^ 127 := by
  rw [readMagnitude_marked h]
  exact readInt_eq_ok_iff_of_denotes mark.one_le_radix mark.radix_le h

/-- Only a mark with a sign and digits after it is read as a number. -/
theorem exists_mark_of_readMagnitude (h : readMagnitude cs = .ok v) :
    ∃ (mark : Mark) (rest : List Char) (sign : Sign) (n : Nat), cs = mark.chars ++ rest ∧
      Denotes mark.radix rest sign n ∧ v = sign.apply n ∧ -2 ^ 127 ≤ v ∧ v < 2 ^ 127 := by
  unfold readMagnitude at h
  split at h
  · rename_i digits
    obtain ⟨sign, n, hdenotes, hv⟩ := (readInt_eq_ok_iff (by decide) (by decide)).1 h
    exact ⟨.small, digits, sign, n, rfl, hdenotes, hv⟩
  · rename_i digits
    obtain ⟨sign, n, hdenotes, hv⟩ := (readInt_eq_ok_iff (by decide) (by decide)).1 h
    exact ⟨.capital, digits, sign, n, rfl, hdenotes, hv⟩
  · obtain ⟨sign, n, hdenotes, hv⟩ := (readInt_eq_ok_iff (by decide) (by decide)).1 h
    exact ⟨.decimal, cs, sign, n, rfl, hdenotes, hv⟩

/-! ## Reading the text -/

variable {s : String} {core : List Char} {cause : Fault}

/-- A number without a minus in front is read as it is. -/
theorem defaultOfValue_of_not_minus (hcore : IsCore s.toList core)
    (h : ∀ rest, dropUnderscores core ≠ '-' :: rest) :
    defaultOfValue (.string s) = (readMagnitude (dropUnderscores core)).mapError fun cause =>
      .rejected (.invalidDefault s cause.message) := by
  have hread : readDefault s.toList =
      (readMagnitude (dropUnderscores core)).mapError DefaultError.numeral := by
    unfold readDefault
    rw [trim_eq_iff.2 hcore]
    split
    · rename_i rest hrest
      exact absurd hrest (h rest)
    · rfl
  rw [defaultOfValue, hread]
  cases readMagnitude (dropUnderscores core) <;> rfl

/-- A number after a minus is negated, unless it is the least one. -/
theorem defaultOfValue_of_minus (hcore : IsCore s.toList core)
    (h : dropUnderscores core = '-' :: rest) :
    defaultOfValue (.string s) =
      match readMagnitude rest with
      | .ok value => if value = leastDefault then .error (.fault .negationTooLarge) else .ok (-value)
      | .error cause => .error (.rejected (.invalidDefault s cause.message)) := by
  have hread : readDefault s.toList =
      (readMagnitude rest).mapError DefaultError.numeral >>= negateDefault := by
    rw [readDefault, trim_eq_iff.2 hcore, h]
    rfl
  rw [defaultOfValue, hread]
  cases readMagnitude rest with
  | error cause => rfl
  | ok value =>
    rw [mapError_ok, ok_bind, negateDefault]
    by_cases hleast : value = leastDefault
    · simp only [if_pos hleast]
    · simp only [if_neg hleast]

theorem defaultOfValue_eq_ok_iff_of_minus (hcore : IsCore s.toList core)
    (h : dropUnderscores core = '-' :: rest) :
    defaultOfValue (.string s) = .ok v ↔ readMagnitude rest = .ok (-v) ∧ v ≠ 2 ^ 127 := by
  have hleast : leastDefault = -2 ^ 127 := rfl
  rw [defaultOfValue_of_minus hcore h]
  cases readMagnitude rest with
  | error cause => simp
  | ok value =>
    dsimp only
    split
    · rename_i hvalue
      simp only [reduceCtorEq, Except.ok.injEq, false_iff]
      omega
    · rename_i hvalue
      simp only [Except.ok.injEq]
      omega

theorem defaultOfValue_eq_fault_iff_of_minus (hcore : IsCore s.toList core)
    (h : dropUnderscores core = '-' :: rest) :
    defaultOfValue (.string s) = .error (.fault cause) ↔
      cause = .negationTooLarge ∧ readMagnitude rest = .ok (-2 ^ 127) := by
  have hleast : leastDefault = -2 ^ 127 := rfl
  rw [defaultOfValue_of_minus hcore h]
  cases readMagnitude rest with
  | error cause => simp
  | ok value =>
    dsimp only
    split
    · rename_i hvalue
      simp [hvalue, hleast, eq_comm]
    · rename_i hvalue
      simp only [reduceCtorEq, Except.ok.injEq, false_iff, not_and]
      omega

/-- Negation alone can fail, and it does so for the least number only. -/
theorem defaultOfValue_eq_fault_iff (hcore : IsCore s.toList core) :
    defaultOfValue (.string s) = .error (.fault cause) ↔
      cause = .negationTooLarge ∧ IsDoublySigned (dropUnderscores core) .minus (2 ^ 127) := by
  by_cases hminus : ∃ rest, dropUnderscores core = '-' :: rest
  · obtain ⟨rest, hrest⟩ := hminus
    rw [defaultOfValue_eq_fault_iff_of_minus hcore hrest, hrest]
    refine and_congr_right fun _ => ?_
    constructor
    · intro hread
      obtain ⟨mark, rest, sign, n, rfl, hdenotes, hvalue, -⟩ := exists_mark_of_readMagnitude hread
      obtain ⟨rfl, rfl⟩ := (Sign.apply_eq_neg_iff (by decide)).1 hvalue.symm
      exact ⟨by decide, mark, rest, rfl, hdenotes⟩
    · rintro ⟨-, mark, rest, heq, hdenotes⟩
      cases heq
      exact (readMagnitude_marked_eq_ok_iff hdenotes).2 ⟨rfl, by decide, by decide⟩
  · rw [defaultOfValue_of_not_minus hcore fun rest hrest => hminus ⟨rest, hrest⟩,
      mapError_eq_error_iff]
    constructor
    · rintro ⟨cause, -, hrejected⟩
      cases hrejected
    · rintro ⟨-, -, mark, rest, heq, -⟩
      exact absurd ⟨_, heq⟩ hminus

/-! ## Signs of the text -/

variable {digits : List Char}

theorem filter_isSign_of_signed (front sign : Sign) (h : Spells mark.radix digits n) :
    (front.chars ++ (mark.chars ++ (sign.chars ++ digits))).filter (IsSign ·) =
      front.chars ++ sign.chars := by
  rw [List.filter_append, List.filter_append, List.filter_append, mark.filter_isSign_chars,
    Text.filter_isSign_chars, Text.filter_isSign_chars, filter_isSign_of_spells mark.radix_le h,
    List.nil_append, List.append_nil]

theorem filter_not_isSign_of_signed (front sign : Sign) (h : Spells mark.radix digits n) :
    (front.chars ++ (mark.chars ++ (sign.chars ++ digits))).filter (¬ IsSign ·) =
      mark.chars ++ digits := by
  rw [List.filter_append, List.filter_append, List.filter_append, mark.filter_not_isSign_chars,
    Text.filter_not_isSign_chars, Text.filter_not_isSign_chars,
    filter_not_isSign_of_spells mark.radix_le h, List.nil_append, List.nil_append]

/-- A number after a mark has no sign but its own. -/
theorem isSignedNumber_of_denotes (h : Denotes mark.radix rest sign n) :
    IsSignedNumber (mark.chars ++ rest) (sign.apply n) := by
  obtain ⟨digits, rfl, hdigits⟩ := h
  have hsign := filter_isSign_of_signed .absent sign hdigits
  have hrest := filter_not_isSign_of_signed .absent sign hdigits
  exact ⟨sign, mark, digits, n, hsign, hrest, hdigits, rfl⟩

/-- A minus in front of the mark is the only sign of digits without one. -/
theorem isSignedNumber_of_minus (h : Spells mark.radix digits n) :
    IsSignedNumber ('-' :: (mark.chars ++ digits)) (-n) := by
  have hsign := filter_isSign_of_signed .minus .absent h
  have hrest := filter_not_isSign_of_signed .minus .absent h
  exact ⟨.minus, mark, digits, n, hsign, hrest, h, rfl⟩

/-- Two signs are more than one. -/
theorem IsDoublySigned.not_isSignedNumber (h : IsDoublySigned cs sign n) :
    ¬ IsSignedNumber cs v := by
  obtain ⟨hsign, mark, rest, rfl, digits, rfl, hdigits⟩ := h
  rintro ⟨sign', -, -, -, hsign', -⟩
  have htwo := (filter_isSign_of_signed .minus sign hdigits).symm.trans hsign'
  cases sign with
  | absent => exact hsign rfl
  | plus => cases sign' <;> cases htwo
  | minus => cases sign' <;> cases htwo

/-! ## What is read -/

/-- What is accepted has one sign, or a minus before a number with a sign of its own. -/
theorem isSignedNumber_or_of_defaultOfValue (hcore : IsCore s.toList core)
    (h : defaultOfValue (.string s) = .ok v) :
    IsSignedNumber (dropUnderscores core) v ∨
      ∃ sign n, IsDoublySigned (dropUnderscores core) sign n := by
  by_cases hminus : ∃ rest, dropUnderscores core = '-' :: rest
  -- The minus in front is the only sign unless the number after it has one as well.
  · obtain ⟨rest, hrest⟩ := hminus
    rw [defaultOfValue_eq_ok_iff_of_minus hcore hrest] at h
    obtain ⟨mark, rest, sign, n, rfl, hdenotes, hvalue, -⟩ := exists_mark_of_readMagnitude h.1
    rw [hrest]
    cases sign with
    | absent =>
      have hv : v = -n := by rw [← neg_neg v, hvalue]; rfl
      rw [hv]
      exact Or.inl (isSignedNumber_of_minus (denotes_absent_iff.1 hdenotes))
    | plus => exact Or.inr ⟨.plus, n, by decide, mark, rest, rfl, hdenotes⟩
    | minus => exact Or.inr ⟨.minus, n, by decide, mark, rest, rfl, hdenotes⟩
  · rw [defaultOfValue_of_not_minus hcore fun rest hrest => hminus ⟨rest, hrest⟩,
      mapError_eq_ok_iff] at h
    obtain ⟨mark, rest, sign, n, hcs, hdenotes, rfl, -⟩ := exists_mark_of_readMagnitude h
    rw [hcs]
    exact Or.inl (isSignedNumber_of_denotes hdenotes)

/-- A second sign after the minus is applied as well. -/
theorem IsDoublySigned.defaultOfValue_eq_ok_iff (hcore : IsCore s.toList core)
    (h : IsDoublySigned (dropUnderscores core) sign n) :
    defaultOfValue (.string s) = .ok v ↔ n < 2 ^ 127 ∧ v = -sign.apply n := by
  obtain ⟨hsign, mark, rest, hcs, hdenotes⟩ := h
  rw [defaultOfValue_eq_ok_iff_of_minus hcore hcs, readMagnitude_marked_eq_ok_iff hdenotes]
  cases sign with
  | absent => exact absurd rfl hsign
  | plus =>
    simp only [Sign.apply]
    omega
  | minus =>
    simp only [Sign.apply]
    omega

/-- Digits after a mark, with no sign or with a minus in front of the mark, are read as the number
that they spell. -/
theorem defaultOfValue_of_spells (hcore : IsCore s.toList core) (h : Spells mark.radix digits n)
    (hn : n < 2 ^ 127) {front : Sign} (hfront : front ≠ .plus)
    (hcs : dropUnderscores core = front.chars ++ (mark.chars ++ digits)) :
    defaultOfValue (.string s) = .ok (front.apply n) := by
  have hread : readMagnitude (mark.chars ++ digits) = .ok n :=
    (readMagnitude_marked_eq_ok_iff (denotes_absent_iff.2 h)).2 ⟨rfl, by omega, by omega⟩
  cases front with
  | plus => exact absurd rfl hfront
  | minus =>
    rw [defaultOfValue_eq_ok_iff_of_minus hcore hcs, Sign.apply, neg_neg]
    exact ⟨hread, by omega⟩
  | absent =>
    -- Without a sign, the text starts with the mark or a digit.
    have hnot : ∀ rest, dropUnderscores core ≠ '-' :: rest := by
      intro rest hrest
      rw [hcs, Sign.chars, List.nil_append] at hrest
      cases mark with
      | decimal =>
        cases hrest
        exact not_spells_cons_of_isSign (by decide) (Or.inr rfl) h
      | small => cases hrest
      | capital => cases hrest
    have hchars : dropUnderscores core = mark.chars ++ digits := hcs
    rw [defaultOfValue_of_not_minus hcore hnot, hchars, hread]
    rfl

/-! ## Texts of a number -/

/-- The sign that a number is written with. -/
def signOf (v : Int) : Sign := if v < 0 then .minus else .absent

theorem signOf_ofNat (n : Nat) : signOf (.ofNat n) = .absent :=
  if_neg (Int.not_lt.2 (Int.natCast_nonneg n))

theorem signOf_negSucc (n : Nat) : signOf (.negSucc n) = .minus :=
  if_pos (Int.negSucc_lt_zero n)

theorem signOf_ne_plus (v : Int) : signOf v ≠ .plus := by
  cases v with
  | ofNat n => rw [signOf_ofNat]; decide
  | negSucc n => rw [signOf_negSucc]; decide

theorem apply_signOf (v : Int) : (signOf v).apply v.natAbs = v := by
  cases v with
  | ofNat n => rw [signOf_ofNat]; rfl
  | negSucc n => rw [signOf_negSucc]; rfl

/-- The text is the number in decimal or hexadecimal, a minus in front of a negative one. -/
def IsTextOf (v : Int) (cs : List Char) : Prop :=
  ∃ (mark : Mark) (digits : List Char),
    Spells mark.radix digits v.natAbs ∧ cs = (signOf v).chars ++ (mark.chars ++ digits)

theorem isTextOf_toString (v : Int) : IsTextOf v (toString v).toList := by
  refine ⟨.decimal, Nat.toDigits 10 v.natAbs, spells_toDigits (by decide) v.natAbs, ?_⟩
  cases v with
  | ofNat n =>
    rw [signOf_ofNat]
    exact Nat.toList_repr
  | negSucc n =>
    rw [signOf_negSucc]
    simp [Sign.chars, Mark.chars, Int.toString_eq_repr, Int.repr, Nat.toList_repr]

theorem isTextOf_hex (v : Int) :
    IsTextOf v ((signOf v).chars ++ (Text.hex v.natAbs).toList) := by
  refine ⟨.small, hexDigits v.natAbs, spells_hexDigits v.natAbs, ?_⟩
  simp [Text.hex, Mark.chars]

theorem IsTextOf.isBlank_eq_false {c : Char} (h : IsTextOf v cs) (hc : c ∈ cs) :
    isBlank c = false := by
  obtain ⟨mark, digits, hdigits, rfl⟩ := h
  simp only [List.mem_append] at hc
  rcases hc with hc | hc | hc
  · exact Sign.isBlank_eq_false hc
  · exact Mark.isBlank_eq_false hc
  · exact hdigits.isBlank_eq_false mark.radix_le hc

/-- Underscores are no blanks, so that a text with more of them has no blanks either. -/
theorem IsTextOf.isCore (h : IsTextOf v (dropUnderscores cs)) : IsCore cs cs := by
  refine trim_eq_iff.1 (trim_of_forall fun c hc => ?_)
  by_cases hunderscore : c = '_'
  · subst hunderscore
    decide
  · exact h.isBlank_eq_false (List.mem_filter.2 ⟨hc, decide_eq_true hunderscore⟩)

/-- Every text of a number is read as the number, wherever underscores are put in. -/
theorem defaultOfValue_of_isTextOf (h : IsTextOf v (dropUnderscores s.toList))
    (hlow : -2 ^ 127 < v) (hhigh : v < 2 ^ 127) : defaultOfValue (.string s) = .ok v := by
  have hcore := h.isCore
  obtain ⟨mark, digits, hdigits, hcs⟩ := h
  have hn : v.natAbs < 2 ^ 127 := by omega
  have hread := defaultOfValue_of_spells hcore hdigits hn (signOf_ne_plus v) hcs
  rwa [apply_signOf] at hread

/-- **Texts of defaults.** Reading faults on the negation of the least number only, which takes two
minus signs. An accepted text is one signed number or a minus before one with a sign of its own,
where both signs count. Every text of a number that is larger than the least one is read as the
number, with underscores put in anywhere, the text that it is printed as among them. -/
theorem defaultOfValue_signs (s : String) :
    (∃ core, IsCore s.toList core ∧
      (∀ cause, defaultOfValue (.string s) = .error (.fault cause) ↔
        cause = .negationTooLarge ∧ IsDoublySigned (dropUnderscores core) .minus (2 ^ 127)) ∧
      (∀ v, defaultOfValue (.string s) = .ok v → IsSignedNumber (dropUnderscores core) v ∨
        ∃ sign n, IsDoublySigned (dropUnderscores core) sign n) ∧
      ∀ sign n, IsDoublySigned (dropUnderscores core) sign n →
        (∀ v, ¬ IsSignedNumber (dropUnderscores core) v) ∧
          ∀ v, defaultOfValue (.string s) = .ok v ↔ n < 2 ^ 127 ∧ v = -sign.apply n) ∧
    ∀ v : Int,
      IsTextOf v (toString v).toList ∧
        IsTextOf v ((signOf v).chars ++ (Text.hex v.natAbs).toList) ∧
        (-2 ^ 127 < v → v < 2 ^ 127 → IsTextOf v (dropUnderscores s.toList) →
          defaultOfValue (.string s) = .ok v) := by
  have hcore := isCore_trim s.toList
  constructor
  · refine ⟨trim s.toList, hcore, ?_, ?_, ?_⟩
    · intro cause
      exact defaultOfValue_eq_fault_iff hcore
    · intro v haccepted
      exact isSignedNumber_or_of_defaultOfValue hcore haccepted
    · intro sign n htwo
      exact ⟨fun v => htwo.not_isSignedNumber, fun v => htwo.defaultOfValue_eq_ok_iff hcore⟩
  · intro v
    exact ⟨isTextOf_toString v, isTextOf_hex v, fun hlow hhigh htext =>
      defaultOfValue_of_isTextOf htext hlow hhigh⟩

/-- Minus ten, with an underscore between the digits. -/
theorem defaultOfValue_signs_separated :
    IsTextOf (-10) (dropUnderscores "-1_0".toList) ∧ defaultOfValue (.string "-1_0") = .ok (-10) := by
  have htext : IsTextOf (-10) (dropUnderscores "-1_0".toList) := isTextOf_toString (-10)
  have hread := ((defaultOfValue_signs "-1_0").2 (-10)).2.2
  exact ⟨htext, hread (by decide) (by decide) htext⟩

/-- Two signs are accepted, and two before the least number are a fault. -/
theorem defaultOfValue_of_two_signs :
    defaultOfValue (.string "--5") = .ok 5 ∧ (∀ v, ¬ IsSignedNumber "--5".toList v) ∧
      defaultOfValue (.string "--170141183460469231731687303715884105728") =
        .error (.fault .negationTooLarge) := by
  refine ⟨rfl, fun v => ?_, rfl⟩
  rintro ⟨sign, -, -, -, hsigns, -⟩
  cases sign <;> revert hsigns <;> decide

end BusMap
