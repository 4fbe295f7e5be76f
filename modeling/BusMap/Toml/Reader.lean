/-!
# Readers

A reader takes a value off the front of a text, or fails and takes nothing. `many` repeats a reader
for as long as it takes something, so it always ends.
-/

set_option autoImplicit false

namespace BusMap.Toml

/-- Takes a value off the front of a text. -/
abbrev Reader := StateT (List Char) Option

namespace Reader

variable {α : Type}

/-- Takes one character of a class. -/
def satisfy (p : Char → Bool) : Reader Char := fun cs =>
  match cs with
  | [] => none
  | c :: rest => if p c then some (c, rest) else none

/-- Takes the given character. -/
def char (c : Char) : Reader Unit := do
  let _ ← satisfy (· == c)

/-- Takes the given characters. -/
def chars : List Char → Reader Unit
  | [] => pure ()
  | c :: cs => do
    char c
    chars cs

/-- Takes the longest run of characters of a class, which may be empty. -/
def takeWhile (p : Char → Bool) : Reader (List Char) := fun cs =>
  some (cs.takeWhile p, cs.dropWhile p)

/-- Takes the longest run of characters of a class, at least one. -/
def takeSome (p : Char → Bool) : Reader (List Char) := do
  let c ← satisfy p
  let cs ← takeWhile p
  return c :: cs

/-- Takes exactly `n` characters of a class. -/
def takeExactly (p : Char → Bool) : Nat → Reader (List Char)
  | 0 => pure []
  | n + 1 => do
    let c ← satisfy p
    let cs ← takeExactly p n
    return c :: cs

/-- Succeeds at the end of the text. -/
def atEnd : Reader Unit := fun cs => if cs.isEmpty then some ((), cs) else none

/-- Takes a value and drops it. -/
def skip (r : Reader α) : Reader Unit := do
  let _ ← r

/-- Takes values as long as there are some; the last may take nothing. -/
def many (r : Reader α) (cs : List Char) : Option (List α × List Char) :=
  match r cs with
  | none => some ([], cs)
  | some (a, rest) =>
    if rest.length < cs.length then
      (many r rest).map fun (as, rest) => (a :: as, rest)
    else some ([a], rest)
termination_by cs.length

/-- Takes one value and then those that each follow a separator. -/
def separated (r : Reader α) (separator : Reader Unit) : Reader (List α) := do
  let first ← r
  let rest ← many (do separator; r)
  return first :: rest

/-- Takes a value and gives the characters that make it up. -/
def textOf (r : Reader α) : Reader String := fun cs =>
  match r cs with
  | none => none
  | some (_, rest) => some (String.ofList (cs.take (cs.length - rest.length)), rest)

end Reader

end BusMap.Toml
