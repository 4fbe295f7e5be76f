import BusMap.Bus.Declaration
import BusMap.Identifier
import BusMap.PortSize

/-!
# Legal buses

A bus needs a master and a slave. The names of the masters must differ, and so must those of the
slaves. Every port has sizes that exist and addresses of less than 64 bits.
-/

set_option autoImplicit false

namespace BusMap

/-- Byte address bits that a port may have at most. -/
def greatestAddressBits : Nat := 63

/-- Checks the shape of one port. -/
def Shape.check (path : EntityPath) (s : Shape) : Except Failure Unit :=
  if ¬ IsPortSize s.portSize then
    .error (.structural (.invalidPortSize path s.portSize))
  else if ¬ IsPortSize s.granularity then
    .error (.structural (.invalidGranularity path s.granularity))
  else if s.portSize < s.granularity then
    .error (.structural (.granularityExceedsPortSize path s.granularity s.portSize))
  else do
    let low ← s.addressLow.mapError Failure.fault
    if s.addressSize = 0 ∨ greatestAddressBits < s.addressSize + low then
      .error (.structural (.invalidAddressSize path s.addressSize))
    else .ok ()

/-- Checks that a bus has a master and a slave. -/
def BusDecl.checkInhabited (d : BusDecl) : Except StructuralError Unit :=
  if d.masters.isEmpty ∨ d.slaves.isEmpty then
    .error (.emptyBus d.path d.masters.length d.slaves.length)
  else .ok ()

/-- Checks a bus. -/
def BusDecl.check (d : BusDecl) : Except Failure Unit := do
  (checkName d.path).mapError Failure.structural
  d.checkInhabited.mapError Failure.structural
  (checkSiblings d.path .master (d.masters.map (·.name))).mapError Failure.structural
  (checkSiblings d.path .slave (d.slaves.map (·.name))).mapError Failure.structural
  d.nodes.forM fun (name, shape) => shape.check (d.path.child name)

end BusMap
