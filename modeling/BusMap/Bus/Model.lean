import BusMap.Bus.Format
import BusMap.Bus.Interconnect
import BusMap.Register.Walk

/-!
# Resolved buses

A resolved bus knows its format, the window of every slave and the structure that joins its nodes.
-/

set_option autoImplicit false

namespace BusMap

/-- A master on a bus. -/
structure Master where
  path : EntityPath
  shape : Shape
  /-- Bits by which its addresses are shifted to form bus addresses. -/
  addressShift : Nat
deriving DecidableEq, Repr

/-- Name of the master. -/
def Master.name (m : Master) : String := m.path.name

/-- A slave on a bus. -/
structure Slave where
  path : EntityPath
  shape : Shape
  requested : Address
  /-- Bus addresses that select the slave. -/
  window : Interval
  registerSet : Option RegisterSet
deriving DecidableEq, Repr

namespace Slave

/-- Name of the slave. -/
def name (s : Slave) : String := s.path.name

/-- First address of the window. -/
def baseAddress (s : Slave) : Nat := s.window.first

/-- The decoder entry of the slave. -/
def route (s : Slave) : Route := ⟨s.name, s.window⟩

/-- Options for a walk of the slave's register set as a master sees it. -/
def walkOptions (s : Slave) (m : Master) : WalkOptions :=
  { addressShift := m.addressShift, base? := some s.baseAddress }

end Slave

/-- A bus with the windows of its slaves. -/
structure Bus where
  name : String
  topology : Topology
  format : Shape
  /-- Address bits of the format below its word address. -/
  addressLow : Nat
  masters : List Master
  slaves : List Slave
  interconnect : Interconnect
deriving DecidableEq, Repr

namespace Bus

/-- The master of a name. -/
def master? (b : Bus) (name : String) : Option Master := b.masters.find? fun m => m.name = name

/-- The slave of a name. -/
def slave? (b : Bus) (name : String) : Option Slave := b.slaves.find? fun s => s.name = name

/-- The adapter that a node of a shape needs. -/
def adapter? (b : Bus) (node : Shape) : Option Adapter := b.format.adapter? node

/-- The slave whose window holds a bus address. -/
def slaveAt? (b : Bus) (address : Nat) : Option Slave :=
  b.slaves.find? fun s => address ∈ s.window

end Bus

/-! ## Walking a bus -/

/-- One step of the walk of a bus. -/
inductive BusEvent where
  | beginBus (name : String) (topology : Topology) (format : Shape) (addressLow : Nat)
      (interconnect : Interconnect)
  | master (m : Master) (adapter : Option Adapter)
  | slave (s : Slave) (adapter : Option Adapter)
  | endBus
deriving DecidableEq, Repr

/-- What a code generator is told of a bus: masters, then slaves, each with the adapter it needs. -/
def Bus.walk (b : Bus) : List BusEvent :=
  .beginBus b.name b.topology b.format b.addressLow b.interconnect ::
    b.masters.map (fun m => .master m (b.adapter? m.shape)) ++
    b.slaves.map (fun s => .slave s (b.adapter? s.shape)) ++ [.endBus]

end BusMap
