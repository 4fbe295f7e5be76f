import BusMap.Interval
import BusMap.Register.BitRange
import BusMap.Register.Datatype
import BusMap.Register.Function
import BusMap.Warning

/-!
# Errors

Every error is a cause with the entity it is about; its wording is in one `message` function per
class. Three classes stop the construction of a model: the shape of a declaration
(`StructuralError`), a function that a register cannot serve (`Denial`) and addresses that do not
fit together (`Conflict`). A text that is no declaration is a `Rejection`.

A computation fails with an error of one of these classes, or with a fault of the machine.
-/

set_option autoImplicit false

namespace BusMap

/-! ## Shape of a declaration -/

/-- Classes of entities whose names must differ among siblings. -/
inductive SiblingClass where
  | register
  | field
  | master
  | slave
deriving DecidableEq, Repr

/-- Name in messages. -/
def SiblingClass.name : SiblingClass → String
  | .register => "Register"
  | .field => "Field"
  | .master => "Master"
  | .slave => "Slave"

/-- What can be wrong with a name by itself. -/
inductive NameFlaw where
  | empty
  | noLetterFirst
  | notPrintable
  | reserved
deriving DecidableEq, Repr

/-- Wording of each flaw. -/
def NameFlaw.message : NameFlaw → String
  | .empty => "name must not be empty"
  | .noLetterFirst => "name must start with a letter"
  | .notPrintable => "name may only contain printable ASCII characters"
  | .reserved => "name is a reserved word in a target language"

/-- Illegal shapes: names, bit ranges, port geometry, defaults. -/
inductive StructuralError where
  | duplicateName (path : EntityPath) (kind : SiblingClass) (name : String)
  | nameCollision (path : EntityPath) (kind : SiblingClass) (first second identifier : String)
  | invalidName (path : EntityPath) (flaw : NameFlaw)
  | invalidPortSize (path : EntityPath) (portSize : Nat)
  | invalidGranularity (path : EntityPath) (granularity : Nat)
  | invalidAddressSize (path : EntityPath) (addressSize : Nat)
  | granularityExceedsPortSize (path : EntityPath) (granularity portSize : Nat)
  | emptyBus (path : EntityPath) (masters slaves : Nat)
  | invertedBitRange (path : EntityPath) (hi lo : Nat)
  | bitRangeOutOfBounds (path : EntityPath) (hi portSize : Nat)
  | fieldOverlap (path : EntityPath) (first second : String) (overlap : Word)
  | invalidFlagWidth (path : EntityPath) (datatype : Datatype) (width : Nat)
  | fieldWiderThanDatatype (path : EntityPath) (width datatypeBits : Nat)
  | defaultOutOfRange (path : EntityPath) (default min max : Int)
  /-- A warning that the policy makes fatal. -/
  | warningPromoted (warning : Warning)
deriving DecidableEq, Repr

namespace StructuralError

/-- The entity that the error is about. -/
def path : StructuralError → EntityPath
  | duplicateName path _ _ => path
  | nameCollision path _ _ _ _ => path
  | invalidName path _ => path
  | invalidPortSize path _ => path
  | invalidGranularity path _ => path
  | invalidAddressSize path _ => path
  | granularityExceedsPortSize path _ _ => path
  | emptyBus path _ _ => path
  | invertedBitRange path _ _ => path
  | bitRangeOutOfBounds path _ _ => path
  | fieldOverlap path _ _ _ => path
  | invalidFlagWidth path _ _ => path
  | fieldWiderThanDatatype path _ _ => path
  | defaultOutOfRange path _ _ _ => path
  | warningPromoted warning => warning.path

/-- Wording of each error. -/
def message : StructuralError → String
  | duplicateName path kind name =>
    s!"{kind.name} names in {path.text} are not unique: \"{name}\" is used more than once"
  | nameCollision path kind first second identifier =>
    s!"{kind.name} names \"{first}\" and \"{second}\" in {path.text} both map to " ++
      s!"the identifier \"{identifier}\""
  | invalidName path flaw => s!"invalid name for {path.text}: {flaw.message}"
  | invalidPortSize path portSize =>
    s!"{path.text} has invalid port size {portSize} (must be 8, 16, 32 or 64)"
  | invalidGranularity path granularity =>
    s!"{path.text} has invalid granularity {granularity} (must be 8, 16, 32 or 64)"
  | invalidAddressSize path addressSize =>
    s!"{path.text} has invalid address size {addressSize} " ++
      "(must be at least 1, with byte addresses below 64 bits)"
  | granularityExceedsPortSize path granularity portSize =>
    s!"{path.text} has granularity {granularity} larger than its port size {portSize}"
  | emptyBus path masters slaves =>
    s!"bus {path.text} needs at least one master and one slave " ++
      s!"({masters} masters, {slaves} slaves)"
  | invertedBitRange path hi lo => s!"field {path.text} has an inverted bit range [{hi}:{lo}]"
  | bitRangeOutOfBounds path hi portSize =>
    s!"field {path.text} uses bit {hi}, but the register is only {portSize} bits wide"
  | fieldOverlap path first second overlap =>
    s!"fields {first} and {second} of {path.text} overlap (bits {Text.hex overlap.toNat})"
  | invalidFlagWidth path datatype width =>
    s!"field {path.text} of type {datatype.name} must be exactly 1 bit wide, not {width}"
  | fieldWiderThanDatatype path width datatypeBits =>
    s!"field {path.text} is {width} bits wide, which does not fit its {datatypeBits}-bit datatype"
  | defaultOutOfRange path default min max =>
    s!"default value {default} of field {path.text} is out of range [{min}, {max}]"
  | warningPromoted warning => warning.message ++ " (promoted to an error)"

end StructuralError

/-! ## Functions that a register cannot serve -/

/-- What a function needs of the register kind. -/
inductive Capability where
  | read
  | write
  | unstrobedWrite
  | readWrite
  | nonEvent
  | strobe
deriving DecidableEq, Repr

/-- Wording of each capability. -/
def Capability.message : Capability → String
  | .read => "read access"
  | .write => "write access"
  | .unstrobedWrite => "non-strobed write access"
  | .readWrite => "write+read access"
  | .nonEvent => "a non-event register type"
  | .strobe => "strobe access"

/-- A field requests a function that its register cannot serve. -/
structure Denial where
  path : EntityPath
  function : AccessFunction
  required : Capability
deriving DecidableEq, Repr

/-- Wording of the denial. -/
def Denial.message (d : Denial) : String :=
  s!"field {d.path.text} cannot use {d.function.name} (register needs {d.required.message})"

/-! ## Addresses that do not fit together -/

/-- Illegal addresses of registers and slaves. -/
inductive Conflict where
  | misaligned (path : EntityPath) (address alignment : Nat)
  | overlap (path : EntityPath) (range : Interval) (other : EntityPath) (otherRange : Interval)
  | overflow (path : EntityPath) (address size : Nat)
deriving DecidableEq, Repr

namespace Conflict

/-- The entity that the conflict is about. -/
def path : Conflict → EntityPath
  | misaligned path _ _ => path
  | overlap path _ _ _ => path
  | overflow path _ _ => path

/-- Wording of each conflict. -/
def message : Conflict → String
  | misaligned path address alignment =>
    s!"address {Text.hex8 address} of {path.text} is not aligned to {alignment} bytes"
  | overlap path range other otherRange =>
    s!"address range {range.text} of {path.text} overlaps with range {otherRange.text} " ++
      s!"of {other.text}"
  | overflow path address size =>
    s!"{path.text} does not fit in the address space " ++
      s!"(base {Text.hex address}, size {Text.hex size})"

end Conflict

/-! ## Texts that are no declaration -/

/-- Reasons for which a text is no declaration. -/
inductive Rejection where
  /-- The text has another form, or a value has another type. -/
  | malformed
  | invalidAddress (text reason : String)
  | invalidDefault (text reason : String)
  | bitCount (count : Nat)
  | unknownField (name : String) (expected : List String)
  | missingField (name : String)
  | unknownVariant (name : String) (expected : List String)
deriving DecidableEq, Repr

namespace Rejection

/-- The names that may stand in a place, each between backticks. -/
def expectation (names : List String) : String :=
  match names.map fun name => s!"`{name}`" with
  | [a] => s!"expected {a}"
  | [a, b] => s!"expected {a} or {b}"
  | several => "expected one of " ++ ", ".intercalate several

/-- Wording, where the reason has one of its own. -/
def message? : Rejection → Option String
  | malformed => none
  | invalidAddress text reason => some s!"invalid address \"{text}\": {reason}"
  | invalidDefault text reason => some s!"invalid default \"{text}\": {reason}"
  | bitCount count => some (BitRange.countMessage count)
  | unknownField name expected => some s!"unknown field `{name}`, {expectation expected}"
  | missingField name => some s!"missing field `{name}`"
  | unknownVariant name expected => some s!"unknown variant `{name}`, {expectation expected}"

end Rejection

/-! ## Errors and faults -/

/-- Errors of a declaration. -/
inductive Error where
  | structural (cause : StructuralError)
  | access (cause : Denial)
  | conflict (cause : Conflict)
  | description (cause : Rejection)
deriving DecidableEq, Repr

/-- The entity that the error is about; a text that is no declaration names none. -/
def Error.path? : Error → Option EntityPath
  | .structural cause => some cause.path
  | .access cause => some cause.path
  | .conflict cause => some cause.path
  | .description _ => none

/-- Ways in which a computation ends without its value. -/
inductive Failure where
  | error (cause : Error)
  | fault (cause : Fault)
deriving DecidableEq, Repr

namespace Failure

/-- A failure for a structural reason. -/
abbrev structural (cause : StructuralError) : Failure := error (.structural cause)

/-- A failure by a denied function. -/
abbrev access (cause : Denial) : Failure := error (.access cause)

/-- A failure by conflicting addresses. -/
abbrev conflict (cause : Conflict) : Failure := error (.conflict cause)

/-- A failure by a rejected text. -/
abbrev rejected (cause : Rejection) : Failure := error (.description cause)

end Failure

end BusMap
