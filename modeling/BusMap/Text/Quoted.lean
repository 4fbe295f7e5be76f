import BusMap.Text.Hidden

/-!
# Quoted text

Names inside a message are quoted so that each stays on one line and its ends can be seen: a quote
or backslash follows a backslash, and a character that cannot be seen is written by its code.
-/

set_option autoImplicit false

namespace BusMap.Text

/-- Code of a character in lower-case hexadecimal between braces. -/
def codePointText (c : Char) : List Char :=
  ['\\', 'u', '\x7b'] ++ Nat.toDigits 16 c.toNat ++ ['\x7d']

/-- Quoted form of one character. -/
def quoteChar (c : Char) : List Char :=
  if c = '"' then ['\\', '"']
  else if c = '\\' then ['\\', '\\']
  else if c = '\t' then ['\\', 't']
  else if c = '\n' then ['\\', 'n']
  else if c = '\r' then ['\\', 'r']
  else if c.toNat = 0 then ['\\', '0']
  else if isHidden c then codePointText c
  else [c]

/-- Text between quotes. -/
def quote (s : String) : String :=
  "\"" ++ String.ofList (s.toList.flatMap quoteChar) ++ "\""

/-- Quoted texts between brackets. -/
def quoteList (names : List String) : String :=
  "[" ++ ", ".intercalate (names.map quote) ++ "]"

end BusMap.Text
