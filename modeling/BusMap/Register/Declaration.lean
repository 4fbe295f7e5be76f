import BusMap.Address
import BusMap.EntityPath
import BusMap.Register.BitRange
import BusMap.Register.Datatype
import BusMap.Register.Function
import BusMap.Register.Kind

/-!
# Register set declarations

A register set is declared as a list of registers of one size, each with its fields. Nothing is
checked here.
-/

set_option autoImplicit false

namespace BusMap

/-- A field as declared. -/
structure FieldDecl where
  name : String
  description : String := ""
  bits : BitRange
  datatype : Datatype
  functions : FunctionSet := .empty
  /-- Value after a reset. -/
  default : Int := 0
  comment : Option String := none
  /-- Used by event registers only. -/
  trigger : Trigger := .none
deriving DecidableEq, Repr

/-- A register as declared. -/
structure RegisterDecl where
  name : String
  description : String := ""
  /-- Offset from the base of the set. -/
  address : Address := .auto
  kind : RegisterKind
  fields : List FieldDecl := []
  writeEvent : Option WriteEvent := none
  comment : Option String := none
deriving DecidableEq, Repr

/-- A register set as declared. -/
structure RegisterSetDecl where
  name : String
  /-- Address of the first byte, once the set is on a bus. -/
  baseAddress : Address := .auto
  /-- Bits of every register. -/
  portSize : Nat
  registers : List RegisterDecl := []
deriving DecidableEq, Repr

namespace RegisterSetDecl

/-- Path of the set. -/
def path (d : RegisterSetDecl) : EntityPath := .root d.name

/-- Path of a register of the set. -/
def registerPath (d : RegisterSetDecl) (r : RegisterDecl) : EntityPath := d.path.child r.name

/-- Base address that counts until the set is placed on a bus. -/
def base (d : RegisterSetDecl) : Nat := d.baseAddress.fixed?.getD 0

end RegisterSetDecl

end BusMap
