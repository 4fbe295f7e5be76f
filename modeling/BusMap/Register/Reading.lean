import BusMap.AddressReading
import BusMap.Register.Declaration

/-!
# Register sets in documents

Declarations of register sets, registers and fields are records of a document. A default beyond
the integers of documents is written as text: a number with underscores, in decimal or after `0x`,
with a sign.
-/

set_option autoImplicit false

namespace BusMap

open Toml

/-! ## Defaults -/

/-- Bits of a default without its sign. -/
def defaultBits : Nat := 127

/-- The least default. -/
def leastDefault : Int := -(1 <<< defaultBits : Nat)

/-- Reads the digits of a default, with the sign that they may carry themselves. -/
def readMagnitude : List Char → Except Text.NumeralError Int
  | '0' :: 'x' :: digits => Text.readInt 16 defaultBits digits
  | '0' :: 'X' :: digits => Text.readInt 16 defaultBits digits
  | digits => Text.readInt 10 defaultBits digits

/-- Reason for which a text gives no default. -/
inductive DefaultError where
  | numeral (cause : Text.NumeralError)
  | fault (cause : Fault)
deriving DecidableEq, Repr

/-- The value with the other sign, if the machine has it. -/
def negateDefault (value : Int) : Except DefaultError Int :=
  if value = leastDefault then .error (.fault .negationTooLarge) else .ok (-value)

/-- Reads a default. One minus sign is taken off before the number is read. -/
def readDefault (text : List Char) : Except DefaultError Int :=
  match Text.dropUnderscores (Text.trim text) with
  | '-' :: digits => do
    let value ← (readMagnitude digits).mapError DefaultError.numeral
    negateDefault value
  | digits => (readMagnitude digits).mapError DefaultError.numeral

/-- Reads a default from an integer or a text. -/
def defaultOfValue : Decoder Int
  | .integer n => .ok n
  | .string s =>
    match readDefault s.toList with
    | .ok n => .ok n
    | .error (.numeral cause) => .error (.rejected (.invalidDefault s cause.message))
    | .error (.fault cause) => .error (.fault cause)
  | _ => malformed

/-! ## Records -/

/-- Reads a bit range from a list of one or two positions. -/
def BitRange.ofValue : Decoder BitRange := fun v => do
  let bits ← Decoder.list Decoder.count v
  match BitRange.ofList? bits with
  | some b => .ok b
  | none => .error (.rejected (.bitCount bits.length))

/-- Reads a list of function names. -/
def FunctionSet.ofValue : Decoder FunctionSet := fun v => do
  let fs ← Decoder.list (Decoder.variant AccessFunction.all AccessFunction.name) v
  return .ofList fs

/-- Reads a list of changes. -/
def Trigger.ofValue : Decoder Trigger := fun v => do
  let changes ← Decoder.list (Decoder.variant Change.all Change.name) v
  return .ofList changes

/-- Members of a field read so far. -/
structure FieldDraft where
  name : Option String := none
  description : String := ""
  bits : Option BitRange := none
  datatype : Option Datatype := none
  functions : FunctionSet := .empty
  default : Int := 0
  comment : Option String := none
  trigger : Trigger := .none

namespace FieldDraft

/-- Names of the members of a field. -/
def members : List String :=
  ["name", "description", "bits", "datatype", "functions", "default", "comment", "trigger_on"]

/-- Reads one member. -/
def set (d : FieldDraft) : String × Value → Except Failure FieldDraft
  | ("name", v) => return { d with name := some (← Decoder.text v) }
  | ("description", v) => return { d with description := ← Decoder.text v }
  | ("bits", v) => return { d with bits := some (← BitRange.ofValue v) }
  | ("datatype", v) =>
    return { d with datatype := some (← Decoder.variant Datatype.all Datatype.name v) }
  | ("functions", v) => return { d with functions := ← FunctionSet.ofValue v }
  | ("default", v) => return { d with default := ← defaultOfValue v }
  | ("comment", v) => return { d with comment := ← Decoder.present Decoder.text v }
  | ("trigger_on", v) => return { d with trigger := ← Trigger.ofValue v }
  | _ => return d

/-- The field, if nothing is missing. -/
def finish (d : FieldDraft) : Except Failure FieldDecl := do
  let name ← Decoder.required "name" d.name
  let bits ← Decoder.required "bits" d.bits
  let datatype ← Decoder.required "datatype" d.datatype
  return {
    name, bits, datatype,
    description := d.description
    functions := d.functions
    default := d.default
    comment := d.comment
    trigger := d.trigger }

end FieldDraft

/-- Reads a field. -/
def FieldDecl.ofValue : Decoder FieldDecl :=
  Decoder.record FieldDraft.members {} FieldDraft.set FieldDraft.finish

/-- Members of a register read so far. -/
structure RegisterDraft where
  name : Option String := none
  description : String := ""
  address : Address := .auto
  kind : Option RegisterKind := none
  fields : List FieldDecl := []
  writeEvent : Option WriteEvent := none
  comment : Option String := none

namespace RegisterDraft

/-- Names of the members of a register. -/
def members : List String :=
  ["name", "description", "address", "regtype", "fields", "write_event", "comment"]

/-- Reads one member. -/
def set (d : RegisterDraft) : String × Value → Except Failure RegisterDraft
  | ("name", v) => return { d with name := some (← Decoder.text v) }
  | ("description", v) => return { d with description := ← Decoder.text v }
  | ("address", v) => return { d with address := ← Address.ofValue v }
  | ("regtype", v) =>
    return { d with kind := some (← Decoder.variant RegisterKind.all RegisterKind.name v) }
  | ("fields", v) => return { d with fields := ← Decoder.list FieldDecl.ofValue v }
  | ("write_event", v) =>
    return { d with
      writeEvent := ← Decoder.present (Decoder.variant WriteEvent.all WriteEvent.name) v }
  | ("comment", v) => return { d with comment := ← Decoder.present Decoder.text v }
  | _ => return d

/-- The register, if nothing is missing. -/
def finish (d : RegisterDraft) : Except Failure RegisterDecl := do
  let name ← Decoder.required "name" d.name
  let kind ← Decoder.required "regtype" d.kind
  return {
    name, kind,
    description := d.description
    address := d.address
    fields := d.fields
    writeEvent := d.writeEvent
    comment := d.comment }

end RegisterDraft

/-- Reads a register. -/
def RegisterDecl.ofValue : Decoder RegisterDecl :=
  Decoder.record RegisterDraft.members {} RegisterDraft.set RegisterDraft.finish

/-- Members of a register set read so far. -/
structure RegisterSetDraft where
  name : Option String := none
  baseAddress : Address := .auto
  portSize : Option Nat := none
  registers : List RegisterDecl := []

namespace RegisterSetDraft

/-- Names of the members of a register set. -/
def members : List String := ["name", "base_address", "port_size", "registers"]

/-- Reads one member. -/
def set (d : RegisterSetDraft) : String × Value → Except Failure RegisterSetDraft
  | ("name", v) => return { d with name := some (← Decoder.text v) }
  | ("base_address", v) => return { d with baseAddress := ← Address.ofValue v }
  | ("port_size", v) => return { d with portSize := some (← Decoder.count v) }
  | ("registers", v) => return { d with registers := ← Decoder.list RegisterDecl.ofValue v }
  | _ => return d

/-- The register set, if nothing is missing. -/
def finish (d : RegisterSetDraft) : Except Failure RegisterSetDecl := do
  let name ← Decoder.required "name" d.name
  let portSize ← Decoder.required "port_size" d.portSize
  return { name, portSize, baseAddress := d.baseAddress, registers := d.registers }

end RegisterSetDraft

/-- Reads a register set. -/
def RegisterSetDecl.ofValue : Decoder RegisterSetDecl :=
  Decoder.record RegisterSetDraft.members {} RegisterSetDraft.set RegisterSetDraft.finish

/-- Reads the register set that a document declares. -/
def RegisterSetDecl.read (text : String) : Except Failure RegisterSetDecl :=
  Decoder.document RegisterSetDecl.ofValue text

end BusMap
