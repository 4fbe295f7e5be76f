import BusMap.Bus.Declaration

/-!
# Interconnects

A shared bus takes the simplest structure for its number of nodes: with one master no arbiter, with
one slave no decoder. A crossbar gives each master a decoder of its own for the slaves that it can
reach.
-/

set_option autoImplicit false

namespace BusMap

/-- Bus addresses in the window select the slave. -/
structure Route where
  slave : String
  window : Interval
deriving DecidableEq, Repr

/-- One master's side of a crossbar. -/
structure MasterPort where
  master : String
  /-- Bus addresses that the master can drive. -/
  reach : Interval
  /-- Slaves whose windows the reach meets, in declaration order. -/
  routes : List Route
deriving DecidableEq, Repr

/-- Structure that joins the nodes of a bus. -/
inductive Interconnect where
  | direct (master : String) (route : Route)
  | decoder (master : String) (routes : List Route)
  | arbiter (masters : List String) (route : Route)
  /-- The master that wins the bus has its address decoded. -/
  | arbiterAndDecoder (masters : List String) (routes : List Route)
  /-- One row of `grants` per master and one column per slave. -/
  | crossbar (ports : List MasterPort) (slaves : List String) (grants : List (List Bool))
deriving DecidableEq, Repr

namespace MasterPort

/-- The port of a master with its reach on a bus with the given routes. -/
def ofReach (routes : List Route) (master : String) (reach : Interval) : MasterPort :=
  ⟨master, reach, routes.filter fun r => r.window.Overlaps reach⟩

/-- The port leads to the slave. -/
def grants (p : MasterPort) (slave : String) : Bool := p.routes.any fun r => r.slave = slave

end MasterPort

/-- Addresses that the address lines of a port can drive. -/
def Shape.reach (s : Shape) : Except Fault Interval := do
  let low ← s.addressLow
  let bits := s.addressSize + low
  return if bits < wordBits then .ofSize 0 (1 <<< bits) else .full

namespace Interconnect

/-- Structure of a shared bus. -/
def shared : List String → List Route → Interconnect
  | [master], [route] => direct master route
  | [master], routes => decoder master routes
  | masters, [route] => arbiter masters route
  | masters, routes => arbiterAndDecoder masters routes

/-- Structure of a crossbar, from its masters with their reaches. -/
def ofReaches (masters : List (String × Interval)) (routes : List Route) : Interconnect :=
  let ports := masters.map fun (master, reach) => MasterPort.ofReach routes master reach
  let slaves := routes.map (·.slave)
  crossbar ports slaves (ports.map fun p => slaves.map p.grants)

/-- Structure of a bus, from the shapes of its masters and the routes to its slaves. -/
def plan (topology : Topology) (masters : List (String × Shape)) (routes : List Route) :
    Except Fault Interconnect :=
  match topology with
  | .sharedBus => .ok (shared (masters.map (·.1)) routes)
  | .crossbar => do
    let reaches ← masters.mapM fun (master, shape) => (master, ·) <$> shape.reach
    return ofReaches reaches routes

/-- Routes of a master, none for one that is not connected. -/
def routes (i : Interconnect) (name : String) : List Route :=
  match i with
  | direct master route => if master = name then [route] else []
  | decoder master routes => if master = name then routes else []
  | arbiter masters route => if name ∈ masters then [route] else []
  | arbiterAndDecoder masters routes => if name ∈ masters then routes else []
  | crossbar ports _ _ =>
    match ports.find? fun p => p.master = name with
    | some p => p.routes
    | none => []

/-- The slave that a master reaches at a bus address. -/
def decode (i : Interconnect) (master : String) (address : Nat) : Option String :=
  ((i.routes master).find? fun r => address ∈ r.window).map (·.slave)

end Interconnect

end BusMap
