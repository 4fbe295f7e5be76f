import BusMap.Error
import BusMap.Toml.Document

/-!
# Decoding values

A value of a document becomes a value of a declaration by its type. A record is read from a table
key by key in the order in which the keys are written, so that the first unknown key or wrong value
is reported, and a missing key only after all that are present. A record may also be an array, which
lists its members in declaration order.
-/

set_option autoImplicit false

namespace BusMap.Toml

/-- Reads a value of a document as one of a declaration. -/
abbrev Decoder (α : Type) := Value → Except Failure α

/-- The value has another type than it should. -/
def malformed {α : Type} : Except Failure α := .error (.rejected .malformed)

namespace Decoder

variable {α : Type}

/-- A text. -/
def text : Decoder String
  | .string s => .ok s
  | _ => malformed

/-- A truth value. -/
def truth : Decoder Bool
  | .boolean b => .ok b
  | _ => malformed

/-- A count, which has 32 bits. -/
def count : Decoder Nat
  | .integer n => if 0 ≤ n ∧ n < countLimit then .ok n.toNat else malformed
  | _ => malformed

/-- An array of values of one type. -/
def list (element : Decoder α) : Decoder (List α)
  | .array vs => vs.mapM element
  | _ => malformed

/-- A value that may be left out, where it is present. -/
def present (inner : Decoder α) : Decoder (Option α) := fun v => some <$> inner v

/-- The member of a list that has a name. -/
def byName (all : List α) (nameOf : α → String) (name : String) : Except Failure α :=
  match all.find? fun a => nameOf a = name with
  | some a => .ok a
  | none => .error (.rejected (.unknownVariant name (all.map nameOf)))

/-- Holds nothing. -/
def isHollow : Value → Bool
  | .array [] => true
  | .table [] => true
  | _ => false

/-- One of a list of names, as a text or as the only key of a table with nothing below it. -/
def variant (all : List α) (nameOf : α → String) : Decoder α
  | .string name => byName all nameOf name
  | .table [(key, body)] => do
    let a ← byName all nameOf key
    if isHollow body then .ok a else malformed
  | _ => malformed

/-- The key under which a moment appears where a record is expected. -/
def momentKey : String := "$__toml_private_datetime"

/-- A record of type `α`, collected in a draft of type `δ`: `set` reads the value of a key into the
draft, and `finish` checks that nothing is missing. -/
def record {δ : Type} (members : List String) (blank : δ)
    (set : δ → String × Value → Except Failure δ) (finish : δ → Except Failure α) : Decoder α
  | .table entries => do
    let draft ← entries.foldlM (fun draft (name, v) =>
      if name ∈ members then set draft (name, v)
      else .error (.rejected (.unknownField name members))) blank
    finish draft
  | .array vs => do
    let draft ← (members.zip vs).foldlM set blank
    match finish draft with
    | .ok a => .ok a
    | .error _ => malformed
  | .moment _ => .error (.rejected (.unknownField momentKey members))
  | _ => malformed

/-- A member of a record that must be present. -/
def required (name : String) : Option α → Except Failure α
  | some a => .ok a
  | none => .error (.rejected (.missingField name))

/-- Reads a whole document with a decoder. -/
def document (decoder : Decoder α) (text : String) : Except Failure α :=
  match readDocument text with
  | some entries => decoder (.table entries)
  | none => malformed

end Decoder

end BusMap.Toml
