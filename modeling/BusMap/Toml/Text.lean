import BusMap.Toml.Reader

/-!
# Blanks, strings and keys

A string is written between double quotes with escapes, or between single quotes without; three
quotes on either side let it run over several lines. A key is a string on one line or a bare word,
and a dotted key is a path of keys.
-/

set_option autoImplicit false

namespace BusMap.Toml

open Reader

/-! ## Blanks and comments -/

/-- A space or tab. -/
def isGap (c : Char) : Bool := c == ' ' || c == '\t'

/-- A character beyond ASCII. -/
def isBeyondAscii (c : Char) : Bool := 0x80 ≤ c.toNat

/-- A character that may stand in a comment. -/
def isCommentChar (c : Char) : Bool :=
  c == '\t' || (0x20 ≤ c.toNat && c.toNat ≤ 0x7E) || isBeyondAscii c

/-- Spaces and tabs. -/
def gap : Reader Unit := skip (takeWhile isGap)

/-- The end of a line. -/
def newline : Reader Unit := char '\n' <|> chars ['\r', '\n']

/-- A comment, without the end of its line. -/
def comment : Reader Unit := char '#' *> skip (takeWhile isCommentChar)

/-- The end of a line, or of the text. -/
def lineEnd : Reader Unit := newline <|> atEnd

/-- What may follow on a line. -/
def restOfLine : Reader Unit := do
  gap
  skip (optional comment)
  lineEnd

/-- A piece of what may stand between the elements of an array. -/
def fillerPiece : Reader Unit :=
  skip (takeSome isGap) <|> newline <|> comment *> newline

/-- What may stand between the elements of an array. -/
def filler : Reader Unit := skip (many fillerPiece)

/-! ## Strings -/

/-- A hexadecimal digit. -/
def isHexDigit (c : Char) : Bool :=
  c.isDigit || ('a' ≤ c && c ≤ 'f') || ('A' ≤ c && c ≤ 'F')

/-- Value of a hexadecimal digit. -/
def hexValue (c : Char) : Nat :=
  if c.isDigit then c.toNat - '0'.toNat
  else if 'a' ≤ c then c.toNat - 'a'.toNat + 10
  else c.toNat - 'A'.toNat + 10

/-- A character given by `n` digits of its code point. -/
def codePoint (n : Nat) : Reader Char := do
  let digits ← takeExactly isHexDigit n
  let code := digits.foldl (fun code c => code * 16 + hexValue c) 0
  guard code.isValidChar
  return Char.ofNat code

/-- An escaped character. -/
def escape : Reader Char := do
  char '\\'
  match ← satisfy fun _ => true with
  | 'b' => return '\x08'
  | 't' => return '\t'
  | 'n' => return '\n'
  | 'f' => return '\x0c'
  | 'r' => return '\r'
  | '"' => return '"'
  | '\\' => return '\\'
  | 'u' => codePoint 4
  | 'U' => codePoint 8
  | _ => failure

/-- A character that stands for itself between double quotes. -/
def isBasicChar (c : Char) : Bool :=
  isGap c || (0x21 ≤ c.toNat && c.toNat ≤ 0x7E && c != '"' && c != '\\') || isBeyondAscii c

/-- A character that stands for itself between single quotes. -/
def isLiteralChar (c : Char) : Bool :=
  isGap c || (0x21 ≤ c.toNat && c.toNat ≤ 0x7E && c != '\'') || isBeyondAscii c

/-- A run of characters, or one escaped character. -/
def basicPiece : Reader (List Char) :=
  takeSome isBasicChar <|> (fun c => [c]) <$> escape

/-- A string between double quotes. -/
def basicString : Reader (List Char) := do
  char '"'
  let pieces ← many basicPiece
  char '"'
  return pieces.flatten

/-- A string between single quotes. -/
def literalString : Reader (List Char) := do
  char '\''
  let cs ← takeWhile isLiteralChar
  char '\''
  return cs

/-- A backslash at the end of a line, which takes all blanks that follow with it. -/
def lineJoin : Reader Unit := do
  char '\\'
  gap
  newline
  skip (many (skip (takeSome isGap) <|> newline))

/-- One or two quotes inside a string of several lines: something else follows them. -/
def innerQuotes (quote : Char) : Reader (List Char) := fun cs =>
  let run := cs.takeWhile (· == quote)
  let rest := cs.dropWhile (· == quote)
  if 1 ≤ run.length ∧ run.length ≤ 2 ∧ !rest.isEmpty then some (run, rest) else none

/-- Three quotes that end a string, with up to two before them that belong to it. -/
def closingQuotes (quote : Char) : Reader (List Char) := do
  let run ← optional (chars [quote, quote, quote, quote, quote])
  if run.isSome then return [quote, quote]
  let run ← optional (chars [quote, quote, quote, quote])
  if run.isSome then return [quote]
  chars [quote, quote, quote]
  return []

/-- A string of several lines, made of the given pieces. A line end right after the opening quotes
does not belong to it. -/
def multiLine (quote : Char) (piece : Reader (List Char)) : Reader (List Char) := do
  chars [quote, quote, quote]
  skip (optional newline)
  let pieces ← many (piece <|> innerQuotes quote)
  let last ← closingQuotes quote
  return pieces.flatten ++ last

/-- A line end inside a string. -/
def innerNewline : Reader (List Char) := do
  newline
  return ['\n']

/-- A piece of a string of several lines between double quotes. -/
def longBasicPiece : Reader (List Char) :=
  (fun _ => []) <$> lineJoin <|> basicPiece <|> innerNewline

/-- A piece of a string of several lines between single quotes. -/
def longLiteralPiece : Reader (List Char) :=
  takeSome isLiteralChar <|> innerNewline

/-- A string in any of the four forms. -/
def string : Reader String :=
  String.ofList <$> (multiLine '"' longBasicPiece <|> basicString <|>
    multiLine '\'' longLiteralPiece <|> literalString)

/-! ## Keys -/

/-- A character of a bare key. -/
def isBareChar (c : Char) : Bool := c.isAlphanum || c == '_' || c == '-'

/-- One key of a path. -/
def key : Reader String :=
  String.ofList <$> (basicString <|> literalString <|> takeSome isBareChar)

/-- Keys that a path may have at most, and levels that a value may nest. -/
def depthLimit : Nat := 79

/-- A path of keys, as the path of its table and the last key. -/
def dottedKey : Reader (List String × String) := do
  let keys ← separated (do gap; let k ← key; gap; return k) (char '.')
  guard (keys.length ≤ depthLimit)
  return (keys.dropLast, keys.getLast?.getD "")

end BusMap.Toml
