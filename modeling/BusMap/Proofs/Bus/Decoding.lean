import BusMap.Proofs.Bus.Window

/-!
# Address decoding

The interconnect of a bus looks addresses up in the routes of a master. A shared bus hands every
master the routes of all slaves, whichever of its four structures joins them
(`Interconnect.routes_shared`), so that each master sees an address as the bus does
(`BusDecl.resolveWith_decode`). The windows of the slaves do not meet, and the first route that holds
an address is thus the only one.
-/

set_option autoImplicit false

namespace BusMap

/-! ## Routes -/

/-- The route that holds an address leads to the slave whose window does. -/
theorem find?_map_route (slaves : List Slave) (address : Nat) :
    ((slaves.map Slave.route).find? fun r => address ∈ r.window).map (·.slave) =
      (slaves.find? fun s => address ∈ s.window).map Slave.name := by
  rw [List.find?_map, Option.map_map]
  rfl

namespace Interconnect

/-- Each structure of a shared bus gives all routes to its masters and none to others. -/
theorem routes_shared (masters : List String) (routes : List Route) (name : String) :
    (shared masters routes).routes name = if name ∈ masters then routes else [] := by
  unfold shared
  split
  case h_1 master route => simp only [Interconnect.routes, List.mem_singleton, eq_comm]
  case h_2 master routes _ => simp only [Interconnect.routes, List.mem_singleton, eq_comm]
  case h_3 masters route _ => rfl
  case h_4 masters routes _ _ _ => rfl

end Interconnect

namespace BusDecl

variable {policy : Policy} {d : BusDecl} {resolved : Resolved Bus}

/-! ## Shared buses -/

/-- The routes of a shared bus. -/
theorem routes_of_sharedBus (h : d.resolveWith policy = .ok resolved)
    (htopology : d.topology = .sharedBus) (name : String) :
    resolved.model.interconnect.routes name =
      if name ∈ resolved.model.masters.map Master.name then
        resolved.model.slaves.map Slave.route
      else [] := by
  obtain ⟨-, hconnect⟩ := resolveWith_spec h
  obtain ⟨-, -, -, hplan, -⟩ := connect_spec hconnect
  rw [htopology, Interconnect.plan, List.map_map] at hplan
  rw [← Except.ok.inj hplan, map_name_masters h]
  exact Interconnect.routes_shared _ _ name

/-- **A shared bus decodes every address as the bus does.** Each slave of an accepted bus has a window
that starts at a word of the bus, where the slave asks for it, with one word of the bus for each of
its word addresses, and no address lies in two windows. On a shared bus each master reaches at an
address the slave in whose window it is, and no one else reaches a slave. -/
theorem resolveWith_decode (policy : Policy) (d : BusDecl) (resolved : Resolved Bus)
    (h : d.resolveWith policy = .ok resolved) :
    let bus := resolved.model
    (bus.masters.map fun m => (m.name, m.shape)) = (d.masters.map fun m => (m.name, m.shape)) ∧
      bus.format.addressLow = .ok bus.addressLow ∧
      List.Forall₂ (fun (s : SlaveDecl) (slave : Slave) => slave.name = s.name ∧
          slave.shape = s.shape ∧ slave.requested = s.baseAddress ∧
            s.IsWindow bus.addressLow slave.window) d.slaves bus.slaves ∧
      (bus.slaves.Pairwise fun s t => ∀ address ∈ s.window, address ∉ t.window) ∧
      (∀ address slave,
        bus.slaveAt? address = some slave ↔ slave ∈ bus.slaves ∧ address ∈ slave.window) ∧
      (∀ address, bus.slaveAt? address = none ↔ ∀ slave ∈ bus.slaves, address ∉ slave.window) ∧
      (d.topology = .sharedBus →
        (∀ m ∈ bus.masters, ∀ address,
          bus.interconnect.decode m.name address = (bus.slaveAt? address).map Slave.name) ∧
        ∀ name, name ∉ bus.masters.map Master.name →
          bus.interconnect.routes name = [] ∧
            ∀ address, bus.interconnect.decode name address = none) := by
  intro bus
  obtain ⟨-, hconnect⟩ := resolveWith_spec h
  obtain ⟨hformat, hlow, hmasters, -, windows, hwindows, hslaves⟩ := connect_spec hconnect
  refine ⟨hmasters, ?_, ?_, pairwise_not_mem_window h, fun _ _ => slaveAt?_eq_some_iff h,
    fun _ => slaveAt?_eq_none_iff, ?_⟩
  · rw [hformat]
    exact hlow
  · rw [hslaves]
    exact (forall₂_resolveSlaves hwindows).imp fun _ _ hslave =>
      ⟨hslave.1, hslave.2.1, hslave.2.2.1, hslave.2.2.2.2⟩
  intro htopology
  have hroutes := routes_of_sharedBus h htopology
  refine ⟨fun m hm address => ?_, fun name hname => ?_⟩
  · rw [Interconnect.decode, hroutes, if_pos (List.mem_map_of_mem hm)]
    exact find?_map_route _ _
  · have hnone : bus.interconnect.routes name = [] := (hroutes name).trans (if_neg hname)
    refine ⟨hnone, fun address => ?_⟩
    rw [Interconnect.decode, hnone]
    rfl

/-- Two masters, and a slave that goes above one that asks for its address. -/
def desk : BusDecl where
  name := "desk"
  masters := [⟨"cpu", ⟨32, 8, 16⟩⟩, ⟨"dma", ⟨8, 8, 24⟩⟩]
  slaves := [
    { name := "uart", shape := ⟨8, 8, 3⟩ },
    { name := "ram", shape := ⟨32, 8, 6⟩, baseAddress := .fixed 256 }]

/-- Both masters reach the two slaves at the ends of their windows, and a port that is no master
reaches none. -/
theorem resolveWith_decode_desk :
    ∃ resolved, desk.resolveWith .lenient = .ok resolved ∧
      (∀ m ∈ resolved.model.masters,
        resolved.model.interconnect.decode m.name 511 = some "ram" ∧
          resolved.model.interconnect.decode m.name 512 = some "uart" ∧
            resolved.model.interconnect.decode m.name 544 = none) ∧
      resolved.model.interconnect.decode "gpu" 256 = none := by
  refine ⟨_, rfl, ?_⟩
  obtain ⟨-, -, -, -, -, -, hshared⟩ := resolveWith_decode .lenient desk _ rfl
  obtain ⟨hmasters, hothers⟩ := hshared rfl
  refine ⟨fun m hm => ⟨?_, ?_, ?_⟩, (hothers "gpu" (by decide)).2 256⟩
  · exact hmasters m hm 511
  · exact hmasters m hm 512
  · exact hmasters m hm 544

end BusDecl

end BusMap
