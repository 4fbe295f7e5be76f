import BusMap.AddressReading
import BusMap.Bus.Declaration

/-!
# Buses in documents

Declarations of buses, masters and slaves are records of a document. A slave in a document holds no
register set.
-/

set_option autoImplicit false

namespace BusMap

open Toml

/-- Members of a node read so far. -/
structure NodeDraft where
  name : Option String := none
  portSize : Option Nat := none
  granularity : Option Nat := none
  addressSize : Option Nat := none
  baseAddress : Address := .auto

namespace NodeDraft

/-- Names of the members of a master. -/
def masterMembers : List String := ["name", "port_size", "granularity", "address_size"]

/-- Names of the members of a slave. -/
def slaveMembers : List String := masterMembers ++ ["base_address"]

/-- Reads one member. -/
def set (d : NodeDraft) : String × Value → Except Failure NodeDraft
  | ("name", v) => return { d with name := some (← Decoder.text v) }
  | ("port_size", v) => return { d with portSize := some (← Decoder.count v) }
  | ("granularity", v) => return { d with granularity := some (← Decoder.count v) }
  | ("address_size", v) => return { d with addressSize := some (← Decoder.count v) }
  | ("base_address", v) => return { d with baseAddress := ← Address.ofValue v }
  | _ => return d

/-- Name and shape of the node, if nothing is missing. -/
def finish (d : NodeDraft) : Except Failure (String × Shape) := do
  let name ← Decoder.required "name" d.name
  let portSize ← Decoder.required "port_size" d.portSize
  let granularity ← Decoder.required "granularity" d.granularity
  let addressSize ← Decoder.required "address_size" d.addressSize
  return (name, { portSize, granularity, addressSize })

/-- The master, if nothing is missing. -/
def finishMaster (d : NodeDraft) : Except Failure MasterDecl := do
  let (name, shape) ← d.finish
  return { name, shape }

/-- The slave, if nothing is missing. -/
def finishSlave (d : NodeDraft) : Except Failure SlaveDecl := do
  let (name, shape) ← d.finish
  return { name, shape, baseAddress := d.baseAddress }

end NodeDraft

/-- Reads a master. -/
def MasterDecl.ofValue : Decoder MasterDecl :=
  Decoder.record NodeDraft.masterMembers {} NodeDraft.set NodeDraft.finishMaster

/-- Reads a slave. -/
def SlaveDecl.ofValue : Decoder SlaveDecl :=
  Decoder.record NodeDraft.slaveMembers {} NodeDraft.set NodeDraft.finishSlave

/-- Members of a bus read so far. -/
structure BusDraft where
  name : Option String := none
  masters : List MasterDecl := []
  slaves : List SlaveDecl := []
  topology : Topology := .sharedBus

namespace BusDraft

/-- Names of the members of a bus. -/
def members : List String := ["name", "masters", "slaves", "topology"]

/-- Reads one member. -/
def set (d : BusDraft) : String × Value → Except Failure BusDraft
  | ("name", v) => return { d with name := some (← Decoder.text v) }
  | ("masters", v) => return { d with masters := ← Decoder.list MasterDecl.ofValue v }
  | ("slaves", v) => return { d with slaves := ← Decoder.list SlaveDecl.ofValue v }
  | ("topology", v) =>
    return { d with topology := ← Decoder.variant Topology.all Topology.name v }
  | _ => return d

/-- The bus, if nothing is missing. -/
def finish (d : BusDraft) : Except Failure BusDecl := do
  let name ← Decoder.required "name" d.name
  return { name, masters := d.masters, slaves := d.slaves, topology := d.topology }

end BusDraft

/-- Reads a bus. -/
def BusDecl.ofValue : Decoder BusDecl :=
  Decoder.record BusDraft.members {} BusDraft.set BusDraft.finish

/-- Reads the bus that a document declares. -/
def BusDecl.read (text : String) : Except Failure BusDecl := Decoder.document BusDecl.ofValue text

end BusMap
