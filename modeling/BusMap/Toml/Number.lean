import BusMap.Machine
import BusMap.Toml.Text

/-!
# Numbers

Integers have 64 bits and a sign, and are written in four radixes. A number with a fraction or an
exponent must not be beyond the greatest double. Underscores may stand between digits.
-/

set_option autoImplicit false

namespace BusMap.Toml

open Reader

/-- Digits of a class with single underscores between them, which are dropped. -/
def digitRun (p : Char → Bool) : Reader (List Char) := do
  let first ← satisfy p
  let rest ← many (optional (char '_') *> satisfy p)
  return first :: rest

/-- A sign, if there is one; `true` for minus. -/
def sign : Reader Bool :=
  (fun _ => true) <$> char '-' <|> (fun _ => false) <$> char '+' <|> pure false

/-- Digits without a leading zero, or a single zero. -/
def plainDigits : Reader (List Char) := fun cs =>
  match cs with
  | '0' :: rest => some (['0'], rest)
  | _ => digitRun Char.isDigit cs

/-- Value of digits in a radix. -/
def valueOf (radix : Nat) (digits : List Char) : Nat :=
  digits.foldl (fun value c => value * radix + hexValue c) 0

/-- Least number that needs all bits of a machine word. -/
def signLimit : Nat := 1 <<< (wordBits - 1)

/-- A value that fits a machine word with a sign. -/
def fitting (value : Int) : Reader Int := do
  guard (-signLimit ≤ value ∧ value < signLimit)
  return value

/-- An integer after a mark such as `0x`. -/
def marked (mark : Char) (radix : Nat) (p : Char → Bool) : Reader Int := do
  chars ['0', mark]
  let digits ← digitRun p
  fitting (valueOf radix digits)

/-- A decimal integer. -/
def decimal : Reader Int := do
  let negative ← sign
  let digits ← plainDigits
  let value : Int := valueOf 10 digits
  fitting (if negative then -value else value)

/-- An integer in any form. -/
def integer : Reader Int :=
  marked 'x' 16 isHexDigit <|> marked 'o' 8 (fun c => '0' ≤ c && c ≤ '7') <|>
    marked 'b' 2 (fun c => c == '0' || c == '1') <|> decimal

/-- Least number that is rounded beyond the greatest double. -/
def doubleLimit : Nat := (1 <<< 1024) - (1 <<< 970)

/-- Decimal places before the point of `doubleLimit`. -/
def doublePlaces : Nat := 309

/-- The number `digits * 10 ^ exponent` is rounded beyond the greatest double. The limit is a
natural number, so only the digits before the point count. -/
def exceedsDouble (digits : List Char) (exponent : Int) : Bool :=
  let significant := digits.dropWhile (· == '0')
  let places := exponent + significant.length
  if significant.isEmpty || places < doublePlaces then false
  else if doublePlaces < places then true
  else
    let padded := significant ++ List.replicate exponent.toNat '0'
    doubleLimit ≤ valueOf 10 (padded.take doublePlaces)

/-- The digits after a point. -/
def fraction : Reader (List Char) := do
  char '.'
  digitRun Char.isDigit

/-- The power of ten after `e`. -/
def exponent : Reader Int := do
  skip (satisfy fun c => c == 'e' || c == 'E')
  let negative ← sign
  let digits ← digitRun Char.isDigit
  let value : Int := valueOf 10 digits
  return if negative then -value else value

/-- What makes a number one with a fraction or exponent. -/
def fractionOrExponent : Reader (List Char × Int) :=
  (fun e => ([], e)) <$> exponent <|>
    (fun digits e => (digits, e.getD 0)) <$> fraction <*> optional exponent

/-- A number with a fraction or an exponent. -/
def finiteFloat : Reader Unit := do
  let negative ← sign
  let whole ← plainDigits
  let (digits, e) ← fractionOrExponent
  guard (negative ∨ !exceedsDouble (whole ++ digits) (e - digits.length))

/-- Infinity, or the value that is no number. -/
def specialFloat : Reader Unit := do
  skip sign
  chars ['i', 'n', 'f'] <|> chars ['n', 'a', 'n']

/-- A number that is no integer, as its text. -/
def float : Reader String := textOf (finiteFloat <|> specialFloat)

end BusMap.Toml
