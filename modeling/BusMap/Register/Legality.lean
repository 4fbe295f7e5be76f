import BusMap.Identifier
import BusMap.PortSize
import BusMap.Register.Declaration

/-!
# Legal register sets

The shape of a declaration is checked before any address is given: names, the port size, and for
every field its bit range, its datatype and its default. No two fields of a register may share a
bit. The first violation in declaration order is the error.
-/

set_option autoImplicit false

namespace BusMap

/-- Checks that a field lies inside a register of `portSize` bits. -/
def FieldDecl.checkBits (path : EntityPath) (portSize : Nat) (f : FieldDecl) :
    Except StructuralError Unit :=
  if f.bits.hi < f.bits.lo then .error (.invertedBitRange path f.bits.hi f.bits.lo)
  else if portSize ≤ f.bits.hi then .error (.bitRangeOutOfBounds path f.bits.hi portSize)
  else .ok ()

/-- Checks the width of a field against its datatype. -/
def FieldDecl.checkWidth (path : EntityPath) (f : FieldDecl) (width : Nat) :
    Except StructuralError Unit :=
  if f.datatype.isFlag ∧ width ≠ 1 then .error (.invalidFlagWidth path f.datatype width)
  else if f.datatype.bits < width then
    .error (.fieldWiderThanDatatype path width f.datatype.bits)
  else .ok ()

/-- Checks the default of a field against its least and greatest value. -/
def FieldDecl.checkDefault (path : EntityPath) (f : FieldDecl) (range : Int × Int) :
    Except StructuralError Unit :=
  if f.default < range.1 ∨ range.2 < f.default then
    .error (.defaultOutOfRange path f.default range.1 range.2)
  else .ok ()

/-- Checks one field of a register of `portSize` bits. -/
def FieldDecl.check (path : EntityPath) (portSize : Nat) (f : FieldDecl) :
    Except Failure Unit := do
  (f.checkBits path portSize).mapError Failure.structural
  let width ← f.bits.checkedWidth.mapError Failure.fault
  (f.checkWidth path width).mapError Failure.structural
  let range ← (f.datatype.checkedValueRange width).mapError Failure.fault
  (f.checkDefault path range).mapError Failure.structural

/-- Bits that two fields share. -/
def FieldDecl.sharedBits (f g : FieldDecl) : Except Fault Word := do
  let first ← f.bits.checkedMask
  let second ← g.bits.checkedMask
  return first &&& second

/-- Checks that a field shares no bit with another one. -/
def FieldDecl.checkApart (path : EntityPath) (f g : FieldDecl) : Except Failure Unit := do
  let shared ← (f.sharedBits g).mapError Failure.fault
  if shared = 0 then .ok () else .error (.structural (.fieldOverlap path f.name g.name shared))

/-- Checks that no two fields share a bit. -/
def checkDisjoint (path : EntityPath) : List FieldDecl → Except Failure Unit
  | [] => .ok ()
  | f :: fs => do
    fs.forM (f.checkApart path)
    checkDisjoint path fs

/-- Checks one register of `portSize` bits. -/
def RegisterDecl.check (path : EntityPath) (portSize : Nat) (r : RegisterDecl) :
    Except Failure Unit := do
  (checkSiblings path .field (r.fields.map (·.name))).mapError Failure.structural
  r.fields.forM fun f => f.check (path.child f.name) portSize
  checkDisjoint path r.fields

/-- Checks that registers can have `portSize` bits. -/
def checkPortSize (path : EntityPath) (portSize : Nat) : Except StructuralError Unit :=
  if IsPortSize portSize then .ok () else .error (.invalidPortSize path portSize)

/-- Checks a register set. -/
def RegisterSetDecl.check (d : RegisterSetDecl) : Except Failure Unit := do
  (checkName d.path).mapError Failure.structural
  (checkPortSize d.path d.portSize).mapError Failure.structural
  (checkSiblings d.path .register (d.registers.map (·.name))).mapError Failure.structural
  d.registers.forM fun r => r.check (d.registerPath r) d.portSize

end BusMap
