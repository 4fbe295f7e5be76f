import BusMap.Interval
import BusMap.Text.Blank
import BusMap.Text.Numeral

/-!
# Requested addresses

A register or slave asks for a fixed address or leaves the choice open. The text form is `auto` or
a hexadecimal number; reading takes surrounding blanks, any case of `auto` and underscores between
the digits.
-/

set_option autoImplicit false

namespace BusMap

/-- What a declaration asks for. -/
inductive Address where
  | auto
  | fixed (value : Nat)
deriving DecidableEq, Repr

namespace Address

/-- The address asked for, if one is. -/
def fixed? : Address → Option Nat
  | auto => none
  | fixed n => some n

/-- The choice is left open. -/
def isAuto : Address → Bool
  | auto => true
  | fixed _ => false

/-- Text form, with at least eight digits. -/
def text : Address → String
  | auto => "auto"
  | fixed n => Text.hex8 n

/-- Reasons for which a text is no address. -/
inductive TextError where
  | notAnAddress
  | numeral (cause : Text.NumeralError)
deriving DecidableEq, Repr

/-- Wording of each reason. -/
def TextError.message : TextError → String
  | .notAnAddress => "expected an integer or \"auto\""
  | .numeral cause => cause.message

/-- Reads the hexadecimal digits after `0x`. -/
def readHex (digits : List Char) : Except TextError Address :=
  match Text.readNat 16 (wordLimit - 1) (Text.dropUnderscores digits) with
  | .ok n => .ok (.fixed n)
  | .error cause => .error (.numeral cause)

/-- Reads an address from a text without surrounding blanks. -/
def readTrimmed (cs : List Char) : Except TextError Address :=
  if cs.map Char.toLower = ['a', 'u', 't', 'o'] then .ok .auto
  else
    match cs with
    | '0' :: 'x' :: digits => readHex digits
    | '0' :: 'X' :: digits => readHex digits
    | _ => .error .notAnAddress

/-- Reads an address from any text. -/
def read (cs : List Char) : Except TextError Address :=
  readTrimmed (Text.trim cs)

end Address

end BusMap
