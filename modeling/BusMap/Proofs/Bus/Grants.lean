import BusMap.Proofs.Bus.Reach

/-!
# Grants of a crossbar

A crossbar tells three times which slaves a master reaches: by the routes of its port, by its row of the
table of grants, and by the addresses that the port decodes. A route is there when a window meets the
reach, a grant when some route has the name of the slave, and an address is decoded by the first route
that holds it.

The three agree for every master and every slave (`MasterPort.Agrees`), since the slaves have different
names and no two windows meet. The addresses have to be those of the reach: beyond it a port may decode
more than its master can drive (`BusDecl.resolveWith_crossbar_decode`).
-/

set_option autoImplicit false

namespace BusMap

/-- The elements that a list of flags marks are those with the property that the flags tell. -/
theorem map_fst_filter_zip {α : Type} (p : α → Bool) (xs : List α) :
    ((xs.zip (xs.map p)).filter (·.2)).map (·.1) = xs.filter p := by
  induction xs with
  | nil => rfl
  | cons x xs ih =>
    rw [List.map_cons, List.zip_cons_cons, List.filter_cons, List.filter_cons]
    cases p x with
    | true => exact congrArg (x :: ·) ih
    | false => exact ih

/-! ## One port -/

/-- The port that a master has on a crossbar: it is found by the name of the master, and has routes to
the slaves that the reach of the shape meets. -/
structure MasterPort.IsPortOf (p : MasterPort) (bus : Bus) (name : String) (shape : Shape) :
    Prop where
  master : p.master = name
  reach : shape.reach = .ok p.reach
  reach_first_le : p.reach.first ≤ p.reach.last
  routed : bus.interconnect.routes p.master = p.routes
  routes : p.routes = (bus.slaves.map Slave.route).filter fun r => r.window.Overlaps p.reach

/-- What a port, its routes and its row of grants tell of the slaves of a bus is the same. -/
structure MasterPort.Agrees (p : MasterPort) (bus : Bus) (m : Master) (row : List Bool) : Prop where
  master : p.master = m.name
  reach : m.shape.reach = .ok p.reach
  routed : bus.interconnect.routes m.name = p.routes
  /-- The row has a flag for each slave, which is set when the port has a route to the slave. -/
  granted_iff_route : List.Forall₂ (fun (slave : Slave) granted =>
    granted = true ↔ ∃ route ∈ p.routes, route.slave = slave.name) bus.slaves row
  granted_iff_decode : List.Forall₂ (fun (slave : Slave) granted =>
    granted = true ↔
      ∃ address ∈ p.reach, bus.interconnect.decode m.name address = some slave.name) bus.slaves row
  /-- The routes are those of the granted slaves in their order, with their windows. -/
  routes_eq : p.routes = ((bus.slaves.zip row).filter (·.2)).map fun entry => entry.1.route
  nodup : (p.routes.map (·.slave)).Nodup

namespace BusDecl

variable {policy : Policy} {d : BusDecl} {resolved : Resolved Bus} {p : MasterPort} {slave : Slave}
  {name : String} {shape : Shape}

/-- A route to the name of a slave is a route to its window. -/
theorem grants_iff_overlaps (h : d.resolveWith policy = .ok resolved)
    (hp : p.IsPortOf resolved.model name shape) (hslave : slave ∈ resolved.model.slaves) :
    p.grants slave.name = true ↔ slave.window.Overlaps p.reach := by
  rw [MasterPort.grants, List.any_eq_true, hp.routes]
  constructor
  · rintro ⟨route, hmem, hname⟩
    obtain ⟨hroute, hmeets⟩ := List.mem_filter.1 hmem
    obtain ⟨other, hother, rfl⟩ := List.mem_map.1 hroute
    -- No other slave has the name.
    obtain rfl := List.inj_on_of_nodup_map (nodup_slaveNames h) hother hslave
      (of_decide_eq_true hname)
    exact of_decide_eq_true hmeets
  · intro hmeets
    exact ⟨slave.route, List.mem_filter.2 ⟨List.mem_map_of_mem hslave, decide_eq_true hmeets⟩,
      decide_eq_true rfl⟩

/-- The window of a slave holds addresses. -/
theorem first_le_last_of_slave (h : d.resolveWith policy = .ok resolved)
    (hslave : slave ∈ resolved.model.slaves) : slave.window.first ≤ slave.window.last := by
  obtain ⟨-, hconnect⟩ := resolveWith_spec h
  obtain ⟨-, -, -, -, windows, hwindows, hslaves⟩ := connect_spec hconnect
  rw [hslaves] at hslave
  obtain ⟨s, -, -, -, -, -, hwindow⟩ := exists_mem_of_forall₂ (forall₂_resolveSlaves hwindows) hslave
  have hlast := hwindow.last_add_one
  have hpos := Nat.two_pow_pos (s.shape.addressSize + resolved.model.addressLow)
  omega

/-- In its reach a port decodes an address of a slave exactly when the window of the slave meets the
reach. -/
theorem exists_decode_iff_overlaps (h : d.resolveWith policy = .ok resolved)
    (hp : p.IsPortOf resolved.model name shape) (hslave : slave ∈ resolved.model.slaves) :
    (∃ address ∈ p.reach, resolved.model.interconnect.decode p.master address = some slave.name) ↔
      slave.window.Overlaps p.reach := by
  rw [Interval.overlaps_iff (first_le_last_of_slave h hslave) hp.reach_first_le]
  refine exists_congr fun address => and_comm.trans (and_congr_left fun haddress => ?_)
  rw [decode_of_mem_reach h (hp.routed.trans hp.routes) haddress, Option.map_eq_some_iff]
  constructor
  · rintro ⟨selected, hselected, hname⟩
    obtain ⟨hmem, hwindow⟩ := (slaveAt?_eq_some_iff h).1 hselected
    obtain rfl := List.inj_on_of_nodup_map (nodup_slaveNames h) hmem hslave hname
    exact hwindow
  · intro hwindow
    exact ⟨slave, (slaveAt?_eq_some_iff h).2 ⟨hslave, hwindow⟩, rfl⟩

/-- The routes of a port are those of the slaves that it grants. -/
theorem routes_eq_filter_grants (h : d.resolveWith policy = .ok resolved)
    (hp : p.IsPortOf resolved.model name shape) :
    p.routes =
      (resolved.model.slaves.filter fun slave => p.grants slave.name).map Slave.route := by
  rw [hp.routes, List.filter_map]
  refine congrArg (List.map Slave.route) (List.filter_congr fun slave hslave => ?_)
  rw [Bool.eq_iff_iff, grants_iff_overlaps h hp hslave]
  exact decide_eq_true_iff

theorem agrees_of_isPortOf (h : d.resolveWith policy = .ok resolved) {m : Master}
    (hp : p.IsPortOf resolved.model m.name m.shape) :
    p.Agrees resolved.model m ((resolved.model.slaves.map Slave.name).map p.grants) where
  master := hp.master
  reach := hp.reach
  routed := hp.master ▸ hp.routed
  granted_iff_route := by
    rw [List.map_map, List.forall₂_map_right_iff, List.forall₂_same]
    intro slave _
    simp [MasterPort.grants]
  granted_iff_decode := by
    rw [List.map_map, List.forall₂_map_right_iff, List.forall₂_same]
    intro slave hslave
    rw [← hp.master, exists_decode_iff_overlaps h hp hslave]
    exact grants_iff_overlaps h hp hslave
  routes_eq := by
    have hmarked := map_fst_filter_zip (fun slave : Slave => p.grants slave.name)
      resolved.model.slaves
    rw [routes_eq_filter_grants h hp, ← hmarked, List.map_map, List.map_map]
    rfl
  nodup := by
    rw [routes_eq_filter_grants h hp, List.map_map]
    exact (nodup_slaveNames h).sublist (List.filter_sublist.map _)

/-! ## All ports -/

/-- What holds of the declared masters by name and shape holds of the resolved ones. -/
theorem forall₂_masters (h : d.resolveWith policy = .ok resolved) {α : Type}
    {R : String × Shape → α → Prop} {xs : List α}
    (hdeclared : List.Forall₂ (fun (m : MasterDecl) x => R (m.name, m.shape) x) d.masters xs) :
    List.Forall₂ (fun (m : Master) x => R (m.name, m.shape) x) resolved.model.masters xs := by
  obtain ⟨-, hconnect⟩ := resolveWith_spec h
  obtain ⟨-, -, hports, -⟩ := connect_spec hconnect
  rw [← List.forall₂_map_left_iff (R := R), hports, List.forall₂_map_left_iff]
  exact hdeclared

/-- The ports of a crossbar and their rows of grants, one for each master. -/
theorem exists_isPortOf (h : d.resolveWith policy = .ok resolved)
    (htopology : d.topology = .crossbar) :
    ∃ ports, resolved.model.interconnect =
        .crossbar ports (resolved.model.slaves.map Slave.name)
          (ports.map fun p => (resolved.model.slaves.map Slave.name).map p.grants) ∧
      List.Forall₂ (fun (m : Master) (p : MasterPort) => p.IsPortOf resolved.model m.name m.shape)
        resolved.model.masters ports := by
  obtain ⟨hcheck, hconnect⟩ := resolveWith_spec h
  obtain ⟨ports, hinterconnect, hports⟩ := exists_ports_of_reach hcheck hconnect htopology
  refine ⟨ports, hinterconnect, ?_⟩
  have hnames : ports.map (·.master) = d.masters.map (·.name) :=
    map_eq_map_of_forall₂ (hports.imp fun _ _ hport => hport.2.1)
  have hrouted : ∀ p ∈ ports, resolved.model.interconnect.routes p.master = p.routes := fun _ hp =>
    routes_of_crossbar hcheck hinterconnect hnames hp
  apply forall₂_masters h
    (R := fun port p => MasterPort.IsPortOf p resolved.model port.1 port.2)
  apply ((List.forall₂_and_left _ _).2 ⟨hrouted, hports.flip⟩).flip.imp
  rintro m p ⟨hrouted, hshape, hmaster, hreach, hroutes⟩
  refine ⟨hmaster, ?_, ?_, hrouted, hroutes⟩
  · rw [(legal_of_check hcheck _ hshape).reach_eq, hreach]
  · rw [hreach]
    exact Nat.zero_le _

/-- **The tables of a crossbar agree.** A resolved crossbar has a port and a row of grants for each
master and a column for each slave, in declaration order. A master is granted a slave exactly when its
port has a route to the slave, and exactly when it drives an address at which the slave is decoded. The
routes of a port are those of the slaves that it is granted, each once, in declaration order and with
their windows. -/
theorem resolveWith_crossbar_grants (policy : Policy) (d : BusDecl) (resolved : Resolved Bus)
    (h : d.resolveWith policy = .ok resolved) (htopology : d.topology = .crossbar) :
    let bus := resolved.model
    bus.masters.map Master.name = d.masters.map (·.name) ∧
      bus.slaves.map Slave.name = d.slaves.map (·.name) ∧
      ∃ table : List (MasterPort × List Bool),
        bus.interconnect =
          .crossbar (table.map (·.1)) (bus.slaves.map Slave.name) (table.map (·.2)) ∧
        List.Forall₂ (fun m entry => MasterPort.Agrees entry.1 bus m entry.2) bus.masters table := by
  intro bus
  obtain ⟨ports, hinterconnect, hports⟩ := exists_isPortOf h htopology
  refine ⟨map_name_masters h, map_name_slaves h,
    ports.map fun p => (p, (bus.slaves.map Slave.name).map p.grants), ?_, ?_⟩
  · rw [hinterconnect, List.map_map, List.map_map]
    congr 1
    exact (List.map_id' ports).symm
  · rw [List.forall₂_map_right_iff]
    exact hports.imp fun m p hp => agrees_of_isPortOf h hp

/-- The first master drives 64 bytes, which hold the first slave and a half of the second one. -/
def stepped : BusDecl where
  name := "bus"
  topology := .crossbar
  masters := [⟨"cpu", ⟨32, 8, 4⟩⟩, ⟨"dma", ⟨32, 8, 10⟩⟩]
  slaves := [
    { name := "rom", shape := ⟨32, 8, 3⟩, baseAddress := .fixed 0 },
    { name := "ram", shape := ⟨32, 8, 3⟩, baseAddress := .fixed 48 },
    { name := "uart", shape := ⟨32, 8, 2⟩ }]

/-- The first master is granted all slaves but the one that it drives no address of. -/
theorem resolveWith_crossbar_grants_stepped :
    ∃ resolved, stepped.resolveWith .lenient = .ok resolved ∧ stepped.topology = .crossbar ∧
      ∃ cpu dma,
        resolved.model.interconnect = .crossbar [cpu, dma] ["rom", "ram", "uart"]
          [[true, true, false], [true, true, true]] ∧
        (∃ address ∈ cpu.reach, resolved.model.interconnect.decode "cpu" address = some "ram") ∧
        ¬ ∃ address ∈ cpu.reach,
          resolved.model.interconnect.decode "cpu" address = some "uart" := by
  refine ⟨_, rfl, rfl, _, _, rfl, ?_⟩
  obtain ⟨-, -, table, hinterconnect, hagrees⟩ :=
    resolveWith_crossbar_grants .lenient stepped _ rfl rfl
  -- The first entry of the table is the port and the row of the first master.
  injection hinterconnect with hports _ hrows
  cases hagrees with
  | @cons _ entry _ _ hcpu _ =>
    obtain ⟨port, row⟩ := entry
    obtain rfl : _ = port := (List.cons.inj hports).1
    obtain rfl : _ = row := (List.cons.inj hrows).1
    rcases hcpu.granted_iff_decode with _ | ⟨-, _ | ⟨hram, _ | ⟨huart, -⟩⟩⟩
    exact ⟨hram.1 rfl, fun hdecodes => Bool.false_ne_true (huart.2 hdecodes)⟩

end BusDecl

end BusMap
