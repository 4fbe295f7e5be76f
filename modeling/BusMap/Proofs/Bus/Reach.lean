import BusMap.Proofs.Bus.Crossbar
import BusMap.Proofs.Bus.Format

/-!
# Reach of a master

The address lines of a master select words of its own width, and its reach counts the granules of
these words (`Shape.Legal.reach_eq`), where the granules are those of the master. Windows count words
of the bus in granules of the bus, the finest of all ports (`BusDecl.window_eq_ofSize`).

The reach of a master is the granules of the bus in its words exactly when its granularity is that of
the bus, and two masters with the same words have one reach exactly when they have one granularity
(`BusDecl.resolveWith_crossbar_reach`). `BusDecl.crossbar_reach_of_coarse_granules` has two masters
with the same words, of which one is granted a slave less.
-/

set_option autoImplicit false

namespace BusMap

/-! ## Reach -/

/-- Two intervals of one start are the same when they have one size. -/
theorem Interval.ofSize_inj {start size size' : Nat} (h : 1 ≤ size) (h' : 1 ≤ size') :
    ofSize start size = ofSize start size' ↔ size = size' := by
  constructor
  · intro heq
    rw [← size_ofSize h start, heq, size_ofSize h' start]
  · rintro rfl
    rfl

namespace Shape

variable {s : Shape} {g : Nat}

/-- Number of granules of `g` bits in all words that the address lines of the port select. -/
def span (s : Shape) (g : Nat) : Nat := 2 ^ s.addressSize * (s.portSize / g)

theorem span_pos (hg : IsPortSize g) (hle : g ≤ s.portSize) : 1 ≤ s.span g :=
  Nat.mul_pos (Nat.two_pow_pos _) (Nat.div_pos hle hg.pos)

/-- The address lines of a legal port drive a granule for each of those in its words. -/
theorem Legal.reach_eq (h : s.Legal) : s.reach = .ok (.ofSize 0 (s.span s.granularity)) := by
  have hbits : s.addressSize + ceilLog2 (s.portSize / s.granularity) < wordBits :=
    Nat.lt_of_le_of_lt h.addressBits_le (by decide)
  rw [reach, addressLow_of_pos h.isGranularity.pos, ok_bind]
  dsimp only
  rw [if_pos hbits, Nat.one_shiftLeft, Nat.pow_add, ← Nat.one_shiftLeft (ceilLog2 _),
    h.isPortSize.shiftLeft_granules h.isGranularity h.granularity_le, span]
  rfl

/-- The same address lines drive as many granules of another size only when it is no other one. -/
theorem Legal.reach_eq_iff (h : s.Legal) (hg : IsPortSize g) (hle : g ≤ s.portSize) :
    Interval.ofSize 0 (s.span s.granularity) = .ofSize 0 (s.span g) ↔ s.granularity = g := by
  rw [Interval.ofSize_inj (span_pos h.isGranularity h.granularity_le) (span_pos hg hle), span, span,
    Nat.mul_right_inj (Nat.ne_of_gt (Nat.two_pow_pos _))]
  exact h.isPortSize.granules_inj h.isGranularity hg h.granularity_le hle

/-- Ports with the same words have one reach exactly when these have the same granules. -/
theorem Legal.reach_eq_reach_iff (hs : s.Legal) {t : Shape} (ht : t.Legal)
    (hport : s.portSize = t.portSize) (haddress : s.addressSize = t.addressSize) :
    Interval.ofSize 0 (s.span s.granularity) = .ofSize 0 (t.span t.granularity) ↔
      s.granularity = t.granularity := by
  have hspan : t.span t.granularity = s.span t.granularity := by
    rw [span, span, hport, haddress]
  have hle : t.granularity ≤ s.portSize := by
    rw [hport]
    exact ht.granularity_le
  rw [hspan]
  exact hs.reach_eq_iff ht.isGranularity hle

end Shape

/-! ## Grants -/

/-- The rows of a planned crossbar say what its ports lead to. -/
theorem Interconnect.grants_of_plan {topology : Topology} {masters : List (String × Shape)}
    {routes : List Route} {ports : List MasterPort} {slaves : List String}
    {grants : List (List Bool)}
    (h : plan topology masters routes = .ok (.crossbar ports slaves grants)) :
    grants = ports.map fun p => slaves.map p.grants := by
  cases topology with
  | sharedBus =>
    -- A shared bus has one of four other structures.
    have hshared := Except.ok.inj h
    unfold shared at hshared
    split at hshared <;> cases hshared
  | crossbar =>
    rw [plan, bind_eq_ok_iff] at h
    rcases h with ⟨reaches, -, h⟩
    cases h
    rfl

namespace BusDecl

variable {policy : Policy} {d : BusDecl} {resolved : Resolved Bus} {bus : Bus}

/-- The ports of a crossbar, each with the reach of its master and the routes that meet it. -/
theorem exists_ports_of_reach (hcheck : d.check = .ok ()) (h : d.connect = .ok bus)
    (htopology : d.topology = .crossbar) :
    ∃ ports, bus.interconnect = .crossbar ports (bus.slaves.map Slave.name)
        (ports.map fun p => (bus.slaves.map Slave.name).map p.grants) ∧
      List.Forall₂ (fun (m : MasterDecl) (p : MasterPort) => m.shape ∈ d.shapes ∧
          p.master = m.name ∧ p.reach = .ofSize 0 (m.shape.span m.shape.granularity) ∧
            p.routes = (bus.slaves.map Slave.route).filter fun r => r.window.Overlaps p.reach)
        d.masters ports := by
  rcases connect_spec h with ⟨-, -, -, hplan, -⟩
  rcases exists_ports_of_crossbar h htopology with ⟨ports, grants, hinterconnect, hports⟩
  rw [hinterconnect] at hplan
  rw [Interconnect.grants_of_plan hplan] at hinterconnect
  refine ⟨ports, hinterconnect, ?_⟩
  have hlegal := legal_of_check hcheck
  have hmem : ∀ m ∈ d.masters, m.shape ∈ d.shapes := fun _ => master_shape_mem_shapes
  apply ((List.forall₂_and_left _ _).2 ⟨hmem, hports⟩).imp
  rintro m p ⟨hshape, hname, hreach, hroutes⟩
  rw [(hlegal _ hshape).reach_eq] at hreach
  exact ⟨hshape, hname, (Except.ok.inj hreach).symm, hroutes⟩

/-- **Reach and windows.** The port of a master reaches from the first address over as many as its
words have granules of its own. These are the granules of the bus in its words exactly when its
granularity is that of the bus. A window does count granules of the bus. Of two masters with words of
one width and one number of address bits, the ports have one reach exactly when the masters have one
granularity, and then they have the same routes and the same row of grants. -/
theorem resolveWith_crossbar_reach (policy : Policy) (d : BusDecl) (resolved : Resolved Bus)
    (h : d.resolveWith policy = .ok resolved) (htopology : d.topology = .crossbar) :
    let bus := resolved.model
    ∃ ports grants, bus.interconnect = .crossbar ports (bus.slaves.map Slave.name) grants ∧
      List.Forall₂
        (fun (m : MasterDecl) (p : MasterPort) =>
          p.master = m.name ∧ p.reach = .ofSize 0 (m.shape.span m.shape.granularity) ∧
            (p.reach = .ofSize 0 (m.shape.span bus.format.granularity) ↔
              m.shape.granularity = bus.format.granularity))
        d.masters ports ∧
      List.Forall₂
        (fun (s : SlaveDecl) (slave : Slave) =>
          slave.window = .ofSize slave.window.first
            (2 ^ s.shape.addressSize * (bus.format.portSize / bus.format.granularity)))
        d.slaves bus.slaves ∧
      ∀ (i j : Nat) (m n : MasterDecl) (p q : MasterPort),
        d.masters[i]? = some m → d.masters[j]? = some n → ports[i]? = some p → ports[j]? = some q →
          m.shape.portSize = n.shape.portSize → m.shape.addressSize = n.shape.addressSize →
            (p.reach = q.reach ↔ m.shape.granularity = n.shape.granularity) ∧
              (m.shape.granularity = n.shape.granularity →
                p.routes = q.routes ∧ grants[i]? = grants[j]?) := by
  intro bus
  rcases resolveWith_spec h with ⟨hcheck, hconnect⟩
  rcases connect_spec hconnect with ⟨hformat, hlow, -, -, windows, hwindows, hslaves⟩
  rcases exists_ports_of_reach hcheck hconnect htopology with ⟨ports, hinterconnect, hports⟩
  rcases check_eq_ok_iff.1 hcheck with ⟨-, -, -, -, hlegal⟩
  refine ⟨ports, _, hinterconnect, ?_, ?_, ?_⟩
  · apply hports.imp
    rintro m p ⟨hshape, hname, hreach, -⟩
    have hm := hlegal _ hshape
    refine ⟨hname, hreach, ?_⟩
    rw [hreach, hformat]
    apply hm.reach_eq_iff (Shape.isGranularity_common hlegal)
    exact Nat.le_trans (Shape.common_granularity_le hshape) hm.granularity_le
  · rw [hslaves]
    apply (forall₂_resolveSlaves hwindows).imp
    rintro s slave ⟨-, -, -, -, hwindow⟩
    rw [hformat]
    exact window_eq_ofSize hcheck hlow hwindow
  · intro i j m n p q hi hj hp hq hport haddress
    rcases exists_getElem?_of_forall₂ hports hi with ⟨p', hp', hm, -, hreach, hroutes⟩
    rcases exists_getElem?_of_forall₂ hports hj with ⟨q', hq', hn, -, hreach', hroutes'⟩
    cases hp.symm.trans hp'
    cases hq.symm.trans hq'
    have hiff : p.reach = q.reach ↔ m.shape.granularity = n.shape.granularity := by
      rw [hreach, hreach']
      exact (hlegal _ hm).reach_eq_reach_iff (hlegal _ hn) hport haddress
    refine ⟨hiff, ?_⟩
    intro hgranularity
    have hsame : p.routes = q.routes := by
      rw [hroutes, hroutes', hiff.2 hgranularity]
    refine ⟨hsame, ?_⟩
    have hgrants : p.grants = q.grants := by
      funext slave
      rw [MasterPort.grants, MasterPort.grants, hsame]
    rw [List.getElem?_map, List.getElem?_map, hp, hq, Option.map_some, Option.map_some, hgrants]

/-- Two masters with words of 32 bits and four address bits, of which the first has granules of the
given size. -/
def twoMasters (granularity : Nat) : BusDecl where
  name := "bus"
  topology := .crossbar
  masters := [⟨"cpu", ⟨32, granularity, 4⟩⟩, ⟨"dma", ⟨32, 8, 4⟩⟩]
  slaves := [
    { name := "rom", shape := ⟨32, 8, 3⟩, baseAddress := .fixed 0 },
    { name := "ram", shape := ⟨32, 8, 3⟩, baseAddress := .fixed 32 }]

/-- Masters of one granularity have the same row of grants. -/
theorem resolveWith_crossbar_reach_twoMasters :
    ∃ resolved, (twoMasters 8).resolveWith .lenient = .ok resolved ∧
      (twoMasters 8).topology = .crossbar ∧
      ∃ ports grants, resolved.model.interconnect = .crossbar ports ["rom", "ram"] grants ∧
        ∀ p q, ports[0]? = some p → ports[1]? = some q →
          p.reach = q.reach ∧ grants[0]? = grants[1]? := by
  refine ⟨_, rfl, rfl, ?_⟩
  rcases resolveWith_crossbar_reach .lenient (twoMasters 8) _ rfl rfl with
    ⟨ports, grants, hinterconnect, -, -, hsame⟩
  refine ⟨ports, grants, hinterconnect, ?_⟩
  intro p q hp hq
  rcases hsame 0 1 _ _ p q rfl rfl hp hq rfl rfl with ⟨hreach, hgrants⟩
  exact ⟨hreach.2 rfl, (hgrants rfl).2⟩

/-- With coarser granules the first master reaches a quarter of the bytes of its 16 words, and one
slave less than the second master. -/
theorem crossbar_reach_of_coarse_granules :
    ∃ resolved, (twoMasters 32).resolveWith .lenient = .ok resolved ∧
      (twoMasters 32).topology = .crossbar ∧
      resolved.model.format.granularity = 8 ∧
      ∃ cpu dma, resolved.model.interconnect =
          .crossbar [cpu, dma] ["rom", "ram"] [[true, false], [true, true]] ∧
        cpu.reach = .ofSize 0 16 ∧ dma.reach = .ofSize 0 64 ∧ Shape.span ⟨32, 32, 4⟩ 8 = 64 :=
  ⟨_, rfl, rfl, rfl, _, _, rfl, rfl, rfl, rfl⟩

end BusDecl

end BusMap
