import BusMap.Diagnosed
import BusMap.Register.Declaration

/-!
# Accessors

Each function that a field requests is checked against the kind of its register, in a fixed order
that reads before it writes. A function that the register cannot serve is denied (`missing?`), one
with a likely side effect raises a warning (`hazard?`), and each one served becomes an accessor.
-/

set_option autoImplicit false

namespace BusMap

/-- How a read-modify-write puts the new value into the word. -/
inductive Merge where
  /-- Sets or clears the single bit of the field. -/
  | setBit
  /-- Clears the bits of the field and adds the shifted value. -/
  | replaceBits
deriving DecidableEq, Repr

/-- Name in messages. -/
def Merge.name : Merge → String
  | .setBit => "Or"
  | .replaceBits => "ShiftMask"

/-- A function that the register serves, with what a code generator needs for it. -/
inductive Accessor where
  | read
  /-- Takes the field from the shadow copy, which may be reloaded first. -/
  | readShadow
  | overwrite
  | writeMasked (laneMask : Word)
  | readModifyWrite (merge : Merge)
  /-- Changes the shadow copy, which is written later. -/
  | writeShadow
  | strobe (handshake : Bool)
deriving DecidableEq, Repr

namespace Accessor

/-- The function that is served. -/
def function : Accessor → AccessFunction
  | read => .read
  | readShadow => .readShadow
  | overwrite => .overwrite
  | writeMasked _ => .writeMasked
  | readModifyWrite _ => .readModifyWrite
  | writeShadow => .writeShadow
  | strobe _ => .strobe

/-- Name of the function, with its parameters where it has some. -/
def text : Accessor → String
  | writeMasked laneMask => s!"WriteMasked({Text.hex laneMask.toNat})"
  | readModifyWrite merge => s!"ReadModifyWrite({merge.name})"
  | strobe true => "Strobe(handshake)"
  | other => other.function.name

end Accessor

/-- What a register kind lacks to serve a function. -/
def RegisterKind.missing? (k : RegisterKind) : AccessFunction → Option Capability
  | .read => if k.canRead then none else some .read
  | .readShadow => if k.canRead then none else some .read
  | .overwrite => if k.isWritable then none else some .write
  | .writeMasked => if k.isWritable && !k.isStrobed then none else some .unstrobedWrite
  | .readModifyWrite =>
    if k.isEvent then some .nonEvent
    else if k.isReadable && k.isWritable then none else some .readWrite
  | .writeShadow => if k.isWritable then none else some .write
  | .strobe => if k.isStrobed then none else some .strobe

namespace FieldDecl

/-- Functions that need an accessor, in planning order. A shadow read without a hardware read only
repeats what was written and needs none. -/
def planned (f : FieldDecl) : List AccessFunction :=
  AccessFunction.planningOrder.filter fun function =>
    function ∈ f.functions ∧ (function = .readShadow → .read ∈ f.functions)

/-- How a read-modify-write of the field merges its value. -/
def merge (f : FieldDecl) : Merge := if f.datatype = .boolean then .setBit else .replaceBits

/-- The accessor of a function that a register of the given kind serves. -/
def accessor (f : FieldDecl) (k : RegisterKind) : AccessFunction → Accessor
  | .read => .read
  | .readShadow => .readShadow
  | .overwrite => .overwrite
  | .writeMasked => .writeMasked f.bits.laneMask
  | .readModifyWrite => .readModifyWrite f.merge
  | .writeShadow => .writeShadow
  | .strobe => .strobe k.isHandshake

/-- The two fields touch a common byte lane. -/
def SharesLane (f g : FieldDecl) : Prop := g.bits.laneMask &&& f.bits.laneMask ≠ 0

instance (f g : FieldDecl) : Decidable (f.SharesLane g) :=
  inferInstanceAs (Decidable (_ ≠ _))

/-- Likely side effect of a function on the other fields of the register. -/
def hazard? (f : FieldDecl) (path : EntityPath) (others : List FieldDecl) :
    AccessFunction → Option Warning
  | .overwrite =>
    if others.isEmpty then none else some (.overwriteMultiField path (others.length + 1))
  | .writeMasked =>
    let sharedWith := (others.filter (f.SharesLane ·)).map (·.name)
    if sharedWith.isEmpty then none
    else some (.maskedWriteLaneShared path f.bits.laneMask sharedWith)
  | _ => none

/-- The side effect that a function may have is told of the field. -/
theorem path_of_hazard? {f : FieldDecl} {path : EntityPath} {others : List FieldDecl}
    {function : AccessFunction} {w : Warning} (h : f.hazard? path others function = some w) :
    w.path = path := by
  cases function with
  | overwrite =>
    obtain ⟨-, hw⟩ := Option.ite_none_left_eq_some.1 h
    cases hw
    rfl
  | writeMasked =>
    obtain ⟨-, hw⟩ := Option.ite_none_left_eq_some.1 h
    cases hw
    rfl
  | read | readShadow | readModifyWrite | writeShadow | strobe => cases h

/-- Checks that the lanes exist that a function looks at: for a masked write those of all fields. -/
def checkLanes (f : FieldDecl) (others : List FieldDecl) : AccessFunction → Except Fault Unit
  | .writeMasked => (f :: others).forM fun g => g.bits.checkedLaneMask.map fun _ => ⟨⟩
  | _ => .ok ()

/-- Plans one function of a field; `others` are the other fields of its register. -/
def planFunction (f : FieldDecl) (path : EntityPath) (k : RegisterKind) (others : List FieldDecl)
    (function : AccessFunction) : Diagnosed Accessor := do
  match k.missing? function with
  | some required => Diagnosed.fail (.access ⟨path, function, required⟩)
  | none =>
    Diagnosed.ofExcept ((f.checkLanes others function).mapError Failure.fault)
    match f.hazard? path others function with
    | some w => Diagnosed.warn w
    | none => pure ⟨⟩
    return f.accessor k function

/-- Plans all functions of a field. -/
def plan (f : FieldDecl) (path : EntityPath) (k : RegisterKind) (others : List FieldDecl) :
    Diagnosed (List Accessor) :=
  f.planned.mapM (f.planFunction path k others)

end FieldDecl

end BusMap
