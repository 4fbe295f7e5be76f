import BusMap.Toml.Moment
import BusMap.Toml.Tree

/-!
# Documents

A document is a list of lines: pairs of a key and a value, and headers that say to which table the
pairs below them belong. `readDocument` reads the lines, groups them into sections and builds the
table that they denote.
-/

set_option autoImplicit false

namespace BusMap.Toml

open Reader

/-! ## Values -/

/-- A path of keys with a value. -/
abbrev Pair := List String × String × Value

/-- A pair, before what may follow it. -/
def pair (value : Reader Value) : Reader Pair := do
  let (path, last) ← dottedKey
  char '='
  gap
  let v ← value
  return (path, last, v)

/-- An array; a comma may follow the last element. -/
def array (value : Reader Value) : Reader Value := do
  char '['
  let elements ← optional do
    let elements ← separated (do filler; let v ← value; filler; return v) (char ',')
    skip (optional (char ','))
    return elements
  filler
  char ']'
  return .array (elements.getD [])

/-- A table on one line. -/
def inlineTable (value : Reader Value) : Reader Value := do
  char '\x7b'
  let pairs ← optional (separated (do let p ← pair value; gap; return p) (char ','))
  gap
  char '\x7d'
  match Nodes.assignAll (pairs.getD []) [] with
  | some entries => return .table (toEntries entries)
  | none => failure

/-- A value that holds no other. -/
def scalar : Reader Value :=
  .string <$> string <|> .moment <$> moment <|> .float <$> float <|> .integer <$> integer <|>
    (fun _ => .boolean true) <$> chars ['t', 'r', 'u', 'e'] <|>
    (fun _ => .boolean false) <$> chars ['f', 'a', 'l', 's', 'e']

/-- A value with at most `depth` levels of arrays and tables. -/
def value : Nat → Reader Value
  | 0 => scalar
  | depth + 1 => array (value depth) <|> inlineTable (value depth) <|> scalar

/-! ## Lines -/

/-- One line of a document. -/
inductive Line where
  | blank
  | pair (p : Pair)
  | table (path : List String) (key : String)
  | element (path : List String) (key : String)

/-- A header of a table. -/
def tableHeader : Reader Line := do
  char '['
  let (path, last) ← dottedKey
  char ']'
  return .table path last

/-- A header of the next table of a list. -/
def elementHeader : Reader Line := do
  chars ['[', '[']
  let (path, last) ← dottedKey
  chars [']', ']']
  return .element path last

/-- One line, after the blanks at its start. -/
def line : Reader Line := fun cs =>
  match cs with
  | '#' :: _ => (do comment; lineEnd; return .blank : Reader Line) cs
  | '[' :: '[' :: _ => (do let l ← elementHeader; restOfLine; return l : Reader Line) cs
  | '[' :: _ => (do let l ← tableHeader; restOfLine; return l : Reader Line) cs
  | '\n' :: _ => (do newline; return .blank : Reader Line) cs
  | '\r' :: _ => (do newline; return .blank : Reader Line) cs
  | _ => (do let p ← pair (value depthLimit); restOfLine; return .pair p : Reader Line) cs

/-- All lines of a text, which may start with a byte order mark. -/
def lines : Reader (List Line) := do
  skip (optional (char '\ufeff'))
  gap
  let ls ← many (do let l ← line; gap; return l)
  atEnd
  return ls

/-! ## Sections -/

/-- The pairs at the front of a list of lines, with the lines from the next header on. -/
def leadingPairs : List Line → List Pair × List Line
  | [] => ([], [])
  | .blank :: rest => leadingPairs rest
  | .pair p :: rest => let (pairs, rest) := leadingPairs rest; (p :: pairs, rest)
  | .table path key :: rest => ([], .table path key :: rest)
  | .element path key :: rest => ([], .element path key :: rest)

theorem leadingPairs_length_le (ls : List Line) : (leadingPairs ls).2.length ≤ ls.length := by
  induction ls with
  | nil => exact Nat.le_refl _
  | cons l ls ih =>
    cases l with
    | blank => exact Nat.le_succ_of_le ih
    | pair p => exact Nat.le_succ_of_le ih
    | table path key => exact Nat.le_refl _
    | element path key => exact Nat.le_refl _

/-- Adds the sections of the remaining lines, each with its header, to the document. -/
def addSections (ls : List Line) (root : Nodes) : Option Nodes :=
  match ls with
  | [] => some root
  | .table path key :: rest =>
    (root.openTable path key (leadingPairs rest).1).bind (addSections (leadingPairs rest).2)
  | .element path key :: rest =>
    (root.openElement path key (leadingPairs rest).1).bind (addSections (leadingPairs rest).2)
  | _ :: rest => addSections rest root
termination_by ls.length
decreasing_by
  · exact Nat.lt_succ_of_le (leadingPairs_length_le rest)
  · exact Nat.lt_succ_of_le (leadingPairs_length_le rest)
  · exact Nat.lt_succ_self _

/-- The table that the lines of a document denote. -/
def ofLines (ls : List Line) : Option Entries := do
  let (pairs, rest) := leadingPairs ls
  let root ← Nodes.assignAll pairs []
  let root ← addSections rest root
  return toEntries root

/-- Reads a document. -/
def readDocument (text : String) : Option Entries :=
  match lines text.toList with
  | some (ls, _) => ofLines ls
  | none => none

end BusMap.Toml
