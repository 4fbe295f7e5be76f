import BusMap.Bus.Shape
import BusMap.Register.Model

/-!
# Bus declarations

A bus joins masters, which drive addresses, with slaves, which answer to a window of them. A slave
may be made from a resolved register set.
-/

set_option autoImplicit false

namespace BusMap

/-- How masters share the slaves. -/
inductive Topology where
  /-- One transfer at a time. -/
  | sharedBus
  /-- Transfers to distinct slaves at the same time. -/
  | crossbar
deriving DecidableEq, Repr

namespace Topology

/-- All topologies in declaration order. -/
def all : List Topology := [sharedBus, crossbar]

/-- Name in declarations. -/
def name : Topology → String
  | sharedBus => "SharedBus"
  | crossbar => "Crossbar"

end Topology

/-- A master as declared. -/
structure MasterDecl where
  name : String
  shape : Shape
deriving DecidableEq, Repr

/-- A slave as declared. -/
structure SlaveDecl where
  name : String
  shape : Shape
  baseAddress : Address := .auto
  registerSet : Option RegisterSet := none
deriving DecidableEq, Repr

/-- A slave that holds a register set and reaches all of its registers. -/
def SlaveDecl.ofRegisterSet (s : RegisterSet) : SlaveDecl where
  name := s.name
  shape := ⟨s.portSize, registerGranularity, s.addressSize⟩
  baseAddress := s.baseAddress
  registerSet := some s

/-- A bus as declared. -/
structure BusDecl where
  name : String
  masters : List MasterDecl := []
  slaves : List SlaveDecl := []
  topology : Topology := .sharedBus
deriving DecidableEq, Repr

namespace BusDecl

/-- Path of the bus. -/
def path (d : BusDecl) : EntityPath := .root d.name

/-- Names and shapes of all nodes, masters first. -/
def nodes (d : BusDecl) : List (String × Shape) :=
  d.masters.map (fun m => (m.name, m.shape)) ++ d.slaves.map fun s => (s.name, s.shape)

/-- Shapes of all nodes, masters first. -/
def shapes (d : BusDecl) : List Shape := d.nodes.map (·.2)

end BusDecl

end BusMap
