import BusMap.Bus.Declaration
import BusMap.Diagnosed

/-!
# Bus format

All nodes of a bus talk in one format: the widest port, the finest granularity and the longest
address among them. A node of another format joins through an adapter.
-/

set_option autoImplicit false

namespace BusMap

/-- Widest port, finest granularity and longest address of some ports. -/
def Shape.common (shapes : List Shape) : Shape where
  portSize := (shapes.map (·.portSize)).max?.getD 8
  granularity := (shapes.map (·.granularity)).min?.getD 8
  addressSize := (shapes.map (·.addressSize)).max?.getD 1

/-- Converter between a node and the bus. -/
structure Adapter where
  node : Shape
  bus : Shape
deriving DecidableEq, Repr

/-- The adapter that a node needs, if its format differs from that of the bus. -/
def Shape.adapter? (bus node : Shape) : Option Adapter :=
  if node.SameFormat bus then none else some ⟨node, bus⟩

/-- Bits by which the addresses of a narrower master are shifted on the bus. -/
def Shape.addressShift (bus master : Shape) : Except Fault Nat :=
  ceilLog2 <$> Machine.div bus.portSize master.portSize

namespace BusDecl

/-- Format of the bus. -/
def format (d : BusDecl) : Shape := Shape.common d.shapes

/-- Warning that the shortest master address does not reach every slave address. -/
def sizeMismatch? (d : BusDecl) : Option Warning :=
  match (d.masters.map (·.shape.addressSize)).min?, (d.slaves.map (·.shape.addressSize)).max? with
  | some smallest, some largest =>
    if smallest < largest then some (.addressSizeMismatch d.path smallest largest) else none
  | _, _ => none

end BusDecl

end BusMap
