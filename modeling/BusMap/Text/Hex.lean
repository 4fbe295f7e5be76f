/-!
# Hexadecimal text

Addresses, sizes and masks are written in upper-case hexadecimal after `0x`, addresses with at
least eight digits.
-/

set_option autoImplicit false

namespace BusMap.Text

/-- Upper-case hexadecimal digits of a number, `0` for zero. -/
def hexDigits (n : Nat) : List Char :=
  (Nat.toDigits 16 n).map Char.toUpper

/-- Hexadecimal text without leading zeros. -/
def hex (n : Nat) : String :=
  "0x" ++ String.ofList (hexDigits n)

/-- Hexadecimal text with at least eight digits. -/
def hex8 (n : Nat) : String :=
  let digits := hexDigits n
  "0x" ++ String.ofList (List.replicate (8 - digits.length) '0' ++ digits)

end BusMap.Text
