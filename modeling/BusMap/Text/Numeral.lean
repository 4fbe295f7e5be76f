/-!
# Reading numerals

A numeral is an optional sign and digits of a radix, read from left to right into a bounded range.
At each position a character that is no digit is reported before a value that is too large, so the
first position with a fault decides. A sign alone is an invalid digit.
-/

set_option autoImplicit false

namespace BusMap.Text

/-- Reasons for which a text is not a numeral. -/
inductive NumeralError where
  | empty
  | invalidDigit
  | tooLarge
  | tooSmall
deriving DecidableEq, Repr

/-- Wording of each reason. -/
def NumeralError.message : NumeralError → String
  | .empty => "cannot parse integer from empty string"
  | .invalidDigit => "invalid digit found in string"
  | .tooLarge => "number too large to fit in target type"
  | .tooSmall => "number too small to fit in target type"

/-- Value of an ASCII letter or digit as a digit, in any radix up to 36. -/
def digitValue? (c : Char) : Option Nat :=
  if '0' ≤ c ∧ c ≤ '9' then some (c.toNat - '0'.toNat)
  else if 'a' ≤ c ∧ c ≤ 'z' then some (c.toNat - 'a'.toNat + 10)
  else if 'A' ≤ c ∧ c ≤ 'Z' then some (c.toNat - 'A'.toNat + 10)
  else none

/-- Value of a digit of the given radix. -/
def digit? (radix : Nat) (c : Char) : Option Nat :=
  (digitValue? c).filter (· < radix)

/-- Reads digits onto `value`; each intermediate value must stay within `bound`, else the numeral
is reported as `beyond`. -/
def readDigits (radix bound : Nat) (beyond : NumeralError) (value : Nat) :
    List Char → Except NumeralError Nat
  | [] => .ok value
  | c :: cs =>
    match digit? radix c with
    | none => .error .invalidDigit
    | some d =>
      let next := value * radix + d
      if next ≤ bound then readDigits radix bound beyond next cs else .error beyond

/-- Reads a natural number up to `bound`, with at most one leading plus. -/
def readNat (radix bound : Nat) : List Char → Except NumeralError Nat
  | [] => .error .empty
  | ['+'] => .error .invalidDigit
  | '+' :: cs => readDigits radix bound .tooLarge 0 cs
  | cs => readDigits radix bound .tooLarge 0 cs

/-- Reads an integer from `-2 ^ bits` to `2 ^ bits - 1`, with at most one leading sign. -/
def readInt (radix bits : Nat) : List Char → Except NumeralError Int
  | [] => .error .empty
  | ['+'] => .error .invalidDigit
  | ['-'] => .error .invalidDigit
  | '+' :: cs => (readDigits radix ((1 <<< bits) - 1) .tooLarge 0 cs).map Int.ofNat
  | '-' :: cs => (readDigits radix (1 <<< bits) .tooSmall 0 cs).map fun n => -Int.ofNat n
  | cs => (readDigits radix ((1 <<< bits) - 1) .tooLarge 0 cs).map Int.ofNat

end BusMap.Text
