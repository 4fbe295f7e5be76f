import BusMap.Proofs.Bus.Decoding

/-!
# Crossbars

Each master of a crossbar has a port with routes to the slaves whose windows its reach meets. A route
is a whole window, so that a port decodes an address when the window that holds it meets the reach
(`BusDecl.decode_of_crossbar`). Inside the reach this is what the bus decodes.

A window that the reach meets only in part is decoded beyond the reach as well. A port decodes
nothing beyond its reach exactly when no window is cut by it (`BusDecl.resolveWith_crossbar_decode`),
and `BusDecl.crossbar_decodes_beyond_reach` has a window that is.
-/

set_option autoImplicit false

namespace BusMap

/-- Where at most one element has a property, the first that has it and another one is this element,
if it has the other one too. -/
theorem find?_and_of_pairwise {α : Type} {p q : α → Bool} {xs : List α}
    (h : xs.Pairwise fun x y => ¬ (q x = true ∧ q y = true)) :
    (xs.find? fun x => p x && q x) = (xs.find? q).filter p := by
  induction xs with
  | nil => rfl
  | cons y ys ih =>
    obtain ⟨hy, hys⟩ := List.pairwise_cons.1 h
    -- An element with the property `q` decides the search, since no later one has it.
    cases hq : q y with
    | false =>
      rw [List.find?_cons_of_neg (by simp [hq]), List.find?_cons_of_neg (by simp [hq]), ih hys]
    | true =>
      have hrest : (ys.find? fun x => p x && q x) = none := by
        rw [List.find?_eq_none]
        intro x hx hboth
        exact hy x hx ⟨hq, (Bool.and_eq_true_iff.1 hboth).2⟩
      rw [List.find?_cons_of_pos hq, List.find?_cons, hq, Bool.and_true, hrest]
      cases hp : p y <;> simp [Option.filter, hp]

namespace BusDecl

variable {policy : Policy} {d : BusDecl} {resolved : Resolved Bus} {bus : Bus}

/-! ## Ports -/

/-- Every master has a port with its reach, in declaration order. -/
theorem exists_ports_of_crossbar (h : d.connect = .ok bus) (htopology : d.topology = .crossbar) :
    ∃ ports grants, bus.interconnect = .crossbar ports (bus.slaves.map Slave.name) grants ∧
      List.Forall₂ (fun (m : MasterDecl) (p : MasterPort) => p.master = m.name ∧
          m.shape.reach = .ok p.reach ∧
            p.routes = (bus.slaves.map Slave.route).filter fun r => r.window.Overlaps p.reach)
        d.masters ports := by
  obtain ⟨-, -, -, hplan, -⟩ := connect_spec h
  rw [htopology, Interconnect.plan, bind_eq_ok_iff] at hplan
  obtain ⟨reaches, hreaches, hplan⟩ := hplan
  rw [List.mapM_map, mapM_eq_ok_iff] at hreaches
  have hinterconnect : bus.interconnect =
      Interconnect.ofReaches reaches (bus.slaves.map Slave.route) := (Except.ok.inj hplan).symm
  rw [Interconnect.ofReaches, List.map_map] at hinterconnect
  refine ⟨_, _, hinterconnect, List.forall₂_map_right_iff.2 ?_⟩
  refine hreaches.imp fun m entry hentry => ?_
  obtain ⟨reach, hreach, rfl⟩ := map_eq_ok_iff.1 hentry
  exact ⟨rfl, hreach, rfl⟩

/-- A port is found by the name of its master. -/
theorem routes_of_crossbar (h : d.check = .ok ()) {ports : List MasterPort} {slaves : List String}
    {grants : List (List Bool)} (hinterconnect : bus.interconnect = .crossbar ports slaves grants)
    (hnames : ports.map (·.master) = d.masters.map (·.name)) {p : MasterPort} (hp : p ∈ ports) :
    bus.interconnect.routes p.master = p.routes := by
  obtain ⟨-, -, hsiblings, -⟩ := check_eq_ok_iff.1 h
  have hnodup := nodup_of_checkSiblings hsiblings
  rw [← hnames] at hnodup
  have hfind : (ports.find? fun q => q.master = p.master) = some p :=
    (find?_name_eq_some_iff hnodup).2 ⟨hp, rfl⟩
  rw [hinterconnect, Interconnect.routes, hfind]

/-! ## Decoding -/

/-- The first of the routes to the slaves whose windows meet an interval leads to the slave that the
address selects on the bus, if its window meets the interval. -/
theorem find?_filter_route (h : d.resolveWith policy = .ok resolved) (reach : Interval)
    (address : Nat) :
    (((resolved.model.slaves.map Slave.route).filter fun r => r.window.Overlaps reach).find? fun r =>
        address ∈ r.window).map (·.slave) =
      ((resolved.model.slaveAt? address).filter fun s => s.window.Overlaps reach).map Slave.name := by
  rw [Bus.slaveAt?, ← find?_and_of_pairwise (pairwise_not_selected h address), List.find?_filter,
    List.find?_map, Option.map_map]
  simp only [Bool.decide_and, Bool.decide_eq_true]
  rfl

/-- A port decodes the addresses of every window that its reach meets, and no others. -/
theorem decode_of_crossbar (h : d.resolveWith policy = .ok resolved) {p : MasterPort}
    (hroutes : resolved.model.interconnect.routes p.master =
      (resolved.model.slaves.map Slave.route).filter fun r => r.window.Overlaps p.reach)
    (address : Nat) :
    resolved.model.interconnect.decode p.master address =
      ((resolved.model.slaveAt? address).filter fun s => s.window.Overlaps p.reach).map
        Slave.name := by
  rw [Interconnect.decode, hroutes]
  exact find?_filter_route h p.reach address

/-- Beyond its reach too a port decodes the addresses of the windows that its reach meets. -/
theorem decode_eq_some_iff_of_crossbar (h : d.resolveWith policy = .ok resolved) {p : MasterPort}
    (hroutes : resolved.model.interconnect.routes p.master =
      (resolved.model.slaves.map Slave.route).filter fun r => r.window.Overlaps p.reach)
    (address : Nat) (name : String) :
    resolved.model.interconnect.decode p.master address = some name ↔
      ∃ slave ∈ resolved.model.slaves, slave.name = name ∧ address ∈ slave.window ∧
        slave.window.Overlaps p.reach := by
  rw [decode_of_crossbar h hroutes, Option.map_eq_some_iff]
  constructor
  · rintro ⟨slave, hslave, hname⟩
    obtain ⟨hselected, hmeets⟩ := Option.filter_eq_some_iff.1 hslave
    obtain ⟨hmem, hwindow⟩ := (slaveAt?_eq_some_iff h).1 hselected
    exact ⟨slave, hmem, hname, hwindow, of_decide_eq_true hmeets⟩
  · rintro ⟨slave, hmem, hname, hwindow, hmeets⟩
    refine ⟨slave, Option.filter_eq_some_iff.2 ⟨?_, decide_eq_true hmeets⟩, hname⟩
    exact (slaveAt?_eq_some_iff h).2 ⟨hmem, hwindow⟩

/-- In its reach a port decodes what the bus does, since a window that holds an address of the reach
meets the reach. -/
theorem decode_of_mem_reach (h : d.resolveWith policy = .ok resolved) {p : MasterPort}
    (hroutes : resolved.model.interconnect.routes p.master =
      (resolved.model.slaves.map Slave.route).filter fun r => r.window.Overlaps p.reach)
    {address : Nat} (haddress : address ∈ p.reach) :
    resolved.model.interconnect.decode p.master address =
      (resolved.model.slaveAt? address).map Slave.name := by
  rw [decode_of_crossbar h hroutes]
  cases hselected : resolved.model.slaveAt? address with
  | none => rfl
  | some slave =>
    have hwindow := ((slaveAt?_eq_some_iff h).1 hselected).2
    have hmeets := Interval.overlaps_of_mem hwindow haddress
    simp only [Option.filter, decide_eq_true hmeets, if_true]

/-- A port decodes nothing beyond its reach exactly when the reach cuts no window. -/
theorem decode_eq_none_beyond_reach_iff (h : d.resolveWith policy = .ok resolved) {p : MasterPort}
    (hroutes : resolved.model.interconnect.routes p.master =
      (resolved.model.slaves.map Slave.route).filter fun r => r.window.Overlaps p.reach) :
    (∀ address, address ∉ p.reach → resolved.model.interconnect.decode p.master address = none) ↔
      ∀ slave ∈ resolved.model.slaves, slave.window.Overlaps p.reach →
        ∀ address ∈ slave.window, address ∈ p.reach := by
  constructor
  -- An address of a cut window outside the reach would be decoded.
  · intro hnone slave hmem hmeets address hwindow
    by_contra hbeyond
    have hsome := (decode_eq_some_iff_of_crossbar h hroutes address slave.name).2
      ⟨slave, hmem, rfl, hwindow, hmeets⟩
    rw [hnone address hbeyond] at hsome
    cases hsome
  · intro hinside address hbeyond
    rw [Option.eq_none_iff_forall_ne_some]
    intro name hsome
    obtain ⟨slave, hmem, -, hwindow, hmeets⟩ :=
      (decode_eq_some_iff_of_crossbar h hroutes address name).1 hsome
    exact hbeyond (hinside slave hmem hmeets address hwindow)

/-- **What a crossbar decodes.** Each master of a crossbar has a port with the reach of its address
lines. At an address in its reach the port decodes the slave that the bus has there. At any other
address it decodes this slave when the window of the slave meets the reach. A port thus decodes
nothing beyond its reach exactly when every window that the reach meets lies inside it. -/
theorem resolveWith_crossbar_decode (policy : Policy) (d : BusDecl) (resolved : Resolved Bus)
    (h : d.resolveWith policy = .ok resolved) (htopology : d.topology = .crossbar) :
    let bus := resolved.model
    ∃ ports grants, bus.interconnect = .crossbar ports (bus.slaves.map Slave.name) grants ∧
      List.Forall₂ (fun (m : MasterDecl) (p : MasterPort) =>
        p.master = m.name ∧ m.shape.reach = .ok p.reach) d.masters ports ∧
      ∀ p ∈ ports,
        (∀ address ∈ p.reach,
          bus.interconnect.decode p.master address = (bus.slaveAt? address).map Slave.name) ∧
        (∀ address, address ∉ p.reach → ∀ name,
          bus.interconnect.decode p.master address = some name ↔
            ∃ slave ∈ bus.slaves, slave.name = name ∧ address ∈ slave.window ∧
              slave.window.Overlaps p.reach) ∧
        ((∀ address, address ∉ p.reach → bus.interconnect.decode p.master address = none) ↔
          ∀ slave ∈ bus.slaves, slave.window.Overlaps p.reach →
            ∀ address ∈ slave.window, address ∈ p.reach) := by
  intro bus
  obtain ⟨hcheck, hconnect⟩ := resolveWith_spec h
  obtain ⟨ports, grants, hinterconnect, hports⟩ := exists_ports_of_crossbar hconnect htopology
  refine ⟨ports, grants, hinterconnect, hports.imp fun _ _ hport => ⟨hport.1, hport.2.1⟩, ?_⟩
  intro p hp
  have hnames : ports.map (·.master) = d.masters.map (·.name) :=
    map_eq_map_of_forall₂ (hports.imp fun _ _ hport => hport.1)
  -- The port belongs to some master, which says what its routes are.
  obtain ⟨i, hi⟩ := List.mem_iff_getElem?.1 hp
  obtain ⟨m, -, -, -, hroutes⟩ := exists_getElem?_of_forall₂ hports.flip hi
  have hroutes := (routes_of_crossbar hcheck hinterconnect hnames hp).trans hroutes
  exact ⟨fun _ haddress => decode_of_mem_reach h hroutes haddress,
    fun address _ name => decode_eq_some_iff_of_crossbar h hroutes address name,
    decode_eq_none_beyond_reach_iff h hroutes⟩

/-- A master that drives the first 64 bytes, and one that drives all of them. The window of the
second slave lies across the end of the reach of the first master. -/
def straddled : BusDecl where
  name := "bus"
  topology := .crossbar
  masters := [⟨"cpu", ⟨32, 8, 4⟩⟩, ⟨"dma", ⟨32, 8, 10⟩⟩]
  slaves := [
    { name := "rom", shape := ⟨32, 8, 3⟩ },
    { name := "ram", shape := ⟨32, 8, 3⟩, baseAddress := .fixed 48 }]

/-- Both masters reach the slave in whose window the last address of the shorter reach is. -/
theorem resolveWith_crossbar_decode_straddled :
    ∃ resolved, straddled.resolveWith .lenient = .ok resolved ∧
      straddled.topology = .crossbar ∧
      ∃ ports grants,
        resolved.model.interconnect = .crossbar ports ["rom", "ram"] grants ∧
          ∀ p ∈ ports, 63 ∈ p.reach →
            resolved.model.interconnect.decode p.master 63 = some "ram" := by
  refine ⟨_, rfl, rfl, ?_⟩
  obtain ⟨ports, grants, hinterconnect, -, hports⟩ :=
    resolveWith_crossbar_decode .lenient straddled _ rfl rfl
  refine ⟨ports, grants, hinterconnect, fun p hp hreach => ?_⟩
  exact (hports p hp).1 63 hreach

/-- The window of a slave is decoded whole, although the master drives only the first half of it. -/
theorem crossbar_decodes_beyond_reach :
    ∃ resolved, straddled.resolveWith .lenient = .ok resolved ∧
      straddled.topology = .crossbar ∧
      ∃ m ∈ resolved.model.masters, ∃ reach, m.shape.reach = .ok reach ∧ 64 ∉ reach ∧
        resolved.model.interconnect.decode m.name 64 = some "ram" :=
  ⟨_, rfl, rfl, _, List.mem_cons_self, ⟨0, 63⟩, rfl, by decide, rfl⟩

end BusDecl

end BusMap
