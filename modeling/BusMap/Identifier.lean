import BusMap.Error

/-!
# Identifiers

Names in a declaration are free text such as `Config 1`; generated code needs identifiers. A name
is cut into words, of which only the ASCII letters and digits count, and the words are joined in one
of three spellings. A name with both cases and no separator is cut before each run of capitals;
any other name is cut at its separators.

`checkName` accepts a name whose identifier is usable in every target language, and
`checkSiblings` accepts names whose identifiers differ from one another.
-/

set_option autoImplicit false

namespace BusMap

/-- Spellings of an identifier. -/
inductive Spelling where
  /-- Written `config_1`. -/
  | snake
  /-- Written `CONFIG_1`. -/
  | constant
  /-- Written `Config1`. -/
  | pascal
deriving DecidableEq, Repr

namespace Identifier

/-- Stands between two words of a name. -/
def isSeparator (c : Char) : Bool := c = ' ' || c = '_' || c = '-'

/-- Cuts a name before each run of capitals; `wasUpper` tells whether the last character of the
current part is a capital. -/
def cutAtHumps (wasUpper : Bool) (current : List Char) : List Char → List (List Char)
  | [] => [current]
  | c :: cs =>
    if c.isUpper && !wasUpper && !current.isEmpty then current :: cutAtHumps true [c] cs
    else cutAtHumps c.isUpper (current ++ [c]) cs

/-- Cuts a name at its separators, which are dropped. -/
def cutAtSeparators (current : List Char) : List Char → List (List Char)
  | [] => [current]
  | c :: cs =>
    if isSeparator c then current :: cutAtSeparators [] cs else cutAtSeparators (current ++ [c]) cs

/-- The name has both cases and no separator. -/
def hasHumps (name : List Char) : Bool :=
  name.any Char.isLower && name.any Char.isUpper && !name.any isSeparator

/-- Parts of a name, before characters are dropped. -/
def parts (name : List Char) : List (List Char) :=
  if hasHumps name then cutAtHumps false [] name else cutAtSeparators [] name

/-- Letters and digits of a part, in lower case. -/
def wordOf (part : List Char) : List Char := (part.filter Char.isAlphanum).map Char.toLower

/-- Words of a name, none of them empty. -/
def words (name : List Char) : List (List Char) :=
  ((parts name).map wordOf).filter fun w => !w.isEmpty

/-- The word with a capital first letter. -/
def capitalize : List Char → List Char
  | [] => []
  | c :: cs => c.toUpper :: cs

/-- Words with an underscore between neighbours. -/
def joinWords (ws : List (List Char)) : List Char := ['_'].intercalate ws

/-- Words joined in a spelling. -/
def join : Spelling → List (List Char) → List Char
  | .snake, ws => joinWords ws
  | .constant, ws => (joinWords ws).map Char.toUpper
  | .pascal, ws => ws.flatMap capitalize

/-- Puts an underscore before a leading digit. -/
def guardDigit : List Char → List Char
  | [] => []
  | c :: cs => if c.isDigit then '_' :: c :: cs else c :: cs

/-- Characters of the identifier of a name. -/
def spell (spelling : Spelling) (name : List Char) : List Char :=
  guardDigit (join spelling (words name))

/-- The identifier of a name. -/
def ofName (spelling : Spelling) (name : String) : String :=
  String.ofList (spell spelling name.toList)

/-- Words that some target language keeps for itself, in lower case. -/
def reservedWords : List String :=
  ["auto", "break", "case", "char", "const", "continue", "default", "do", "double", "else",
    "enum", "extern", "float", "for", "goto", "if", "inline", "int", "long", "register",
    "restrict", "return", "short", "signed", "sizeof", "static", "struct", "switch", "typedef",
    "union", "unsigned", "void", "volatile", "while",
    "and", "as", "assert", "async", "await", "class", "def", "del", "elif", "except", "false",
    "finally", "from", "global", "import", "in", "is", "lambda", "none", "nonlocal", "not", "or",
    "pass", "raise", "true", "try", "with", "yield",
    "always", "always_comb", "always_ff", "assign", "begin", "bit", "byte", "end", "endmodule",
    "function", "initial", "input", "inout", "interface", "logic", "module", "output",
    "parameter", "reg", "task", "wire",
    "crate", "dyn", "fn", "impl", "let", "loop", "match", "mod", "move", "mut", "pub", "ref",
    "self", "super", "trait", "type", "unsafe", "use", "where"]

/-- The identifier is reserved, in any case. -/
def isReserved (identifier : String) : Bool :=
  reservedWords.contains (String.ofList (identifier.toList.map Char.toLower))

end Identifier

/-! ## Names of entities -/

/-- A space, or an ASCII character with a visible form. -/
def isPrintable (c : Char) : Bool := 0x20 ≤ c.toNat && c.toNat ≤ 0x7E

/-- First flaw of a name, if it has one. -/
def nameFlaw? (name : String) : Option NameFlaw :=
  match name.toList with
  | [] => some .empty
  | c :: cs =>
    if !c.isAlpha then some .noLetterFirst
    else if !(c :: cs).all isPrintable then some .notPrintable
    else if Identifier.isReserved (Identifier.ofName .snake name) then some .reserved
    else none

/-- Checks the name of the entity at a path. -/
def checkName (path : EntityPath) : Except StructuralError Unit :=
  match nameFlaw? path.name with
  | some flaw => .error (.invalidName path flaw)
  | none => .ok ()

/-- Checks names against those seen before them, each kept with its identifier. -/
def checkSiblingsFrom (parent : EntityPath) (kind : SiblingClass) (seen : List (String × String)) :
    List String → Except StructuralError Unit
  | [] => .ok ()
  | name :: names => do
    checkName (parent.child name)
    let identifier := Identifier.ofName .snake name
    match seen.find? fun entry => entry.2 = identifier with
    | some (first, _) =>
      if first = name then .error (.duplicateName parent kind name)
      else .error (.nameCollision parent kind first name identifier)
    | none => checkSiblingsFrom parent kind (seen ++ [(name, identifier)]) names

/-- Checks that each name is usable and that their identifiers differ from one another. -/
def checkSiblings (parent : EntityPath) (kind : SiblingClass) (names : List String) :
    Except StructuralError Unit :=
  checkSiblingsFrom parent kind [] names

end BusMap
