import BusMap.Proofs.Bus.Window
import BusMap.Proofs.Policy.Strictness

/-!
# Which buses are accepted

A bus is accepted when it is legal by itself and its slaves can be given windows. What a bus has to
be by itself is said of names and numbers only (`BusDecl.Legal`). A port that is legal by itself may
have too many address bits in the format of a wider bus, so that the windows come with a condition
of their own (`BusDecl.Placeable`).

Resolution divides by a granularity and by a port size, and shifts by the bits that tell the
granules of a word apart. It does so only for ports that have passed the check, so that it never
faults (`BusDecl.neverFaults_resolve`).
-/

set_option autoImplicit false

namespace BusMap

/-! ## Granules -/

namespace IsPortSize

variable {bits g : Nat}

/-- The granules of a word are a power of two. -/
theorem ceilLog2_granules (hbits : IsPortSize bits) (hg : IsPortSize g) (hle : g ≤ bits) :
    ceilLog2 (bits / g) = (bits / g).log2 := by
  have hpow := hbits.shiftLeft_granules hg hle
  rw [Nat.one_shiftLeft] at hpow
  calc ceilLog2 (bits / g)
      = (2 ^ ceilLog2 (bits / g)).log2 := Nat.log2_two_pow.symm
    _ = (bits / g).log2 := congrArg Nat.log2 hpow

/-- A word has eight granules at most. -/
theorem ceilLog2_granules_le (hbits : IsPortSize bits) (hg : IsPortSize g) :
    ceilLog2 (bits / g) ≤ 3 := by
  rw [ceilLog2_le_iff]
  exact Nat.div_le_div hbits.le_word hg.byte_le (by decide)

end IsPortSize

/-! ## Ports -/

namespace Shape

variable {s : Shape} {path : EntityPath}

theorem legal_iff :
    s.Legal ↔ IsPortSize s.portSize ∧ IsPortSize s.granularity ∧ s.granularity ≤ s.portSize ∧
      1 ≤ s.addressSize ∧ s.addressSize + (s.portSize / s.granularity).log2 < 64 := by
  constructor
  · intro h
    have hbits := h.addressBits_le
    rw [h.isPortSize.ceilLog2_granules h.isGranularity h.granularity_le] at hbits
    exact ⟨h.isPortSize, h.isGranularity, h.granularity_le, h.addressSize_pos,
      Nat.lt_succ_of_le hbits⟩
  · rintro ⟨hport, hgranularity, hle, hpos, hbits⟩
    refine ⟨hport, hgranularity, hle, hpos, ?_⟩
    rw [hport.ceilLog2_granules hgranularity hle]
    exact Nat.le_of_lt_succ hbits

/-- The check of a port divides by the granularity only once it is known to be positive. -/
theorem neverFaults_check : NeverFaults (s.check path) := by
  rw [check]
  split
  · exact neverFaults_error _
  split
  · exact neverFaults_error _
  rename_i hgranularity
  split
  · exact neverFaults_error _
  rw [addressLow_of_pos (not_not.1 hgranularity).pos, mapError_ok, ok_bind]
  split
  · exact neverFaults_error _
  · exact neverFaults_ok _

theorem Legal.exists_reach (h : s.Legal) : ∃ reach, s.reach = .ok reach := by
  rw [reach, addressLow_of_pos h.isGranularity.pos]
  exact ⟨_, rfl⟩

theorem Legal.exists_addressShift (h : s.Legal) (format : Shape) :
    ∃ shift, format.addressShift s = .ok shift := by
  rw [addressShift, Machine.div_of_pos h.isPortSize.pos]
  exact ⟨_, rfl⟩

end Shape

/-- The interconnect of masters with legal ports can be planned. -/
theorem Interconnect.exists_plan (topology : Topology) {masters : List (String × Shape)}
    (h : ∀ m ∈ masters, m.2.Legal) (routes : List Route) :
    ∃ interconnect, plan topology masters routes = .ok interconnect := by
  cases topology with
  | sharedBus => exact ⟨_, rfl⟩
  | crossbar =>
    have hreaches : ∀ m ∈ masters, ∃ entry, (m.1, ·) <$> m.2.reach = .ok entry := by
      intro m hm
      obtain ⟨reach, hreach⟩ := (h m hm).exists_reach
      exact ⟨(m.1, reach), by rw [hreach]; rfl⟩
    obtain ⟨reaches, hreaches⟩ := exists_mapM_eq_ok hreaches
    exact ⟨ofReaches reaches routes, bind_eq_ok_iff.2 ⟨reaches, hreaches, rfl⟩⟩

/-! ## Legal buses -/

/-- A bus that can be declared. -/
structure BusDecl.Legal (d : BusDecl) : Prop where
  name_usable : nameFlaw? d.name = none
  has_master : d.masters ≠ []
  has_slave : d.slaves ≠ []
  master_names : SiblingNames (d.masters.map (·.name))
  slave_names : SiblingNames (d.slaves.map (·.name))
  port_size : ∀ s ∈ d.shapes,
    s.portSize = 8 ∨ s.portSize = 16 ∨ s.portSize = 32 ∨ s.portSize = 64
  granularity : ∀ s ∈ d.shapes,
    s.granularity = 8 ∨ s.granularity = 16 ∨ s.granularity = 32 ∨ s.granularity = 64
  granularity_le : ∀ s ∈ d.shapes, s.granularity ≤ s.portSize
  address_size : ∀ s ∈ d.shapes, 1 ≤ s.addressSize
  address_bits : ∀ s ∈ d.shapes, s.addressSize + (s.portSize / s.granularity).log2 < 64

/-- The slaves can be given windows in the format of the bus: each window can be addressed, and they
can be placed at words of the bus. -/
def BusDecl.Placeable (d : BusDecl) : Prop :=
  ∃ low windows, d.format.addressLow = .ok low ∧
    (∀ s ∈ d.slaves, s.shape.addressSize + low ≤ 63) ∧
      place low (d.slaves.map (SlaveDecl.windowRequest d.path low)) = .ok windows

namespace BusDecl

variable {d : BusDecl}

theorem check_iff_legal : d.check = .ok () ↔ d.Legal := by
  rw [check_eq_ok_iff, checkName_eq_ok_iff, checkSiblings_eq_ok_iff_siblingNames,
    checkSiblings_eq_ok_iff_siblingNames]
  simp only [Shape.legal_iff, isPortSize_iff, forall_and]
  constructor
  · rintro ⟨hname, ⟨hmaster, hslave⟩, hmasters, hslaves, hport, hgranularity, hle, hpos, hbits⟩
    exact ⟨hname, hmaster, hslave, hmasters, hslaves, hport, hgranularity, hle, hpos, hbits⟩
  · intro h
    exact ⟨h.name_usable, ⟨h.has_master, h.has_slave⟩, h.master_names, h.slave_names, h.port_size,
      h.granularity, h.granularity_le, h.address_size, h.address_bits⟩

theorem neverFaults_check : NeverFaults d.check := by
  rw [check]
  apply (neverFaults_structural _).bind
  intro _ _
  apply (neverFaults_structural _).bind
  intro _ _
  apply (neverFaults_structural _).bind
  intro _ _
  apply (neverFaults_structural _).bind
  intro _ _
  apply NeverFaults.forM
  intro node _
  exact Shape.neverFaults_check

/-! ## Connecting the nodes -/

/-- The words of a bus with legal ports can be told apart by the bits of a machine word. -/
theorem exists_low_of_legal (h : ∀ s ∈ d.shapes, s.Legal) :
    ∃ low < wordBits, d.format.addressLow = .ok low := by
  have hgranularity := Shape.isGranularity_common h
  have hle := (Shape.isPortSize_common h).ceilLog2_granules_le hgranularity
  exact ⟨_, Nat.lt_of_le_of_lt hle (by decide), Shape.addressLow_of_pos hgranularity.pos⟩

/-- What is left once the windows are placed always exists. -/
theorem exists_masters_interconnect (h : ∀ s ∈ d.shapes, s.Legal) (format : Shape)
    (routes : List Route) :
    ∃ masters interconnect, d.resolveMasters format = .ok masters ∧
      Interconnect.plan d.topology (masters.map fun m => (m.name, m.shape)) routes =
        .ok interconnect := by
  have hmasters : ∃ masters, d.resolveMasters format = .ok masters := by
    apply exists_mapM_eq_ok
    intro m hm
    obtain ⟨shift, hshift⟩ := (h m.shape (master_shape_mem_shapes hm)).exists_addressShift format
    rw [hshift]
    exact ⟨_, rfl⟩
  obtain ⟨masters, hmasters⟩ := hmasters
  have hports : ∀ m ∈ masters.map fun m => (m.name, m.shape), m.2.Legal := by
    rw [map_port_resolveMasters hmasters, List.forall_mem_map]
    intro m hm
    exact h m.shape (master_shape_mem_shapes hm)
  obtain ⟨interconnect, hplan⟩ := Interconnect.exists_plan d.topology hports routes
  exact ⟨masters, interconnect, hmasters, hplan⟩

theorem neverFaults_windows {low : Nat} (hlow : low < wordBits) : NeverFaults (d.windows low) := by
  rw [BusDecl.windows, Machine.shiftAmount_of_lt hlow]
  apply (neverFaults_conflict _).bind
  intro requests _
  exact neverFaults_conflict _

/-- A bus whose windows are placed can be connected. -/
theorem exists_connect_of_windows (h : ∀ s ∈ d.shapes, s.Legal) {low : Nat}
    (hlow : d.format.addressLow = .ok low) {windows : List Interval}
    (hwindows : d.windows low = .ok windows) : ∃ bus, d.connect = .ok bus := by
  obtain ⟨masters, interconnect, hmasters, hplan⟩ := exists_masters_interconnect h d.format
    ((d.resolveSlaves windows).map Slave.route)
  rw [connect, hlow, mapError_ok, ok_bind, hwindows, ok_bind, hmasters, ok_bind]
  dsimp only
  rw [hplan]
  exact ⟨_, rfl⟩

theorem neverFaults_connect (h : ∀ s ∈ d.shapes, s.Legal) : NeverFaults d.connect := by
  obtain ⟨low, hle, hlow⟩ := exists_low_of_legal h
  cases hwindows : d.windows low with
  | ok windows =>
    obtain ⟨bus, hbus⟩ := exists_connect_of_windows h hlow hwindows
    rw [hbus]
    exact neverFaults_ok bus
  | error failure =>
    intro cause hfault
    rw [connect, hlow, mapError_ok, ok_bind, hwindows] at hfault
    cases hfault
    exact neverFaults_windows hle cause hwindows

/-- Resolving a bus never faults. -/
theorem neverFaults_resolve : NeverFaults d.resolve.outcome := by
  rw [outcome_resolve]
  apply neverFaults_check.bind
  intro _ hcheck
  exact neverFaults_connect (legal_of_check hcheck)

/-- The nodes of a legal bus can be connected exactly when its slaves can be given windows. -/
theorem exists_connect_iff (h : ∀ s ∈ d.shapes, s.Legal) :
    (∃ bus, d.connect = .ok bus) ↔ d.Placeable := by
  obtain ⟨low, hword, hlow⟩ := exists_low_of_legal h
  constructor
  · rintro ⟨bus, hconnect⟩
    obtain ⟨-, haddressLow, -, -, windows, hwindows, -⟩ := connect_spec hconnect
    rw [hlow, Except.ok.injEq] at haddressLow
    rw [← haddressLow] at hwindows
    obtain ⟨hbits, hplace⟩ := (windows_eq_ok_iff hword).1 hwindows
    exact ⟨low, windows, hlow, fun s hs => Nat.le_of_lt_succ (hbits s hs), hplace⟩
  · rintro ⟨low', windows, haddressLow, hbits, hplace⟩
    rw [hlow, Except.ok.injEq] at haddressLow
    rw [← haddressLow] at hbits hplace
    have hlt : ∀ s ∈ d.slaves, s.shape.addressSize + low < wordBits :=
      fun s hs => Nat.lt_succ_of_le (hbits s hs)
    exact exists_connect_of_windows h hlow ((windows_eq_ok_iff hword).2 ⟨hlt, hplace⟩)

/-- **Exactly the legal buses are accepted.** Whatever a bus is declared with and whatever the
policy, resolving it ends with a model or with an error. The lenient policy accepts it exactly when
it is legal and its slaves can be given windows. -/
theorem resolveWith_accepts_iff_legal (d : BusDecl) :
    (∀ policy, NeverFaults (d.resolveWith policy)) ∧
      ((∃ resolved, d.resolveWith .lenient = .ok resolved) ↔ d.Legal ∧ d.Placeable) := by
  refine ⟨fun policy => neverFaults_resolve.enforce policy, ?_⟩
  have hlenient : (∃ resolved, d.resolveWith .lenient = .ok resolved) ↔
      d.check = .ok () ∧ ∃ bus, d.connect = .ok bus := by
    constructor
    · rintro ⟨resolved, hresolved⟩
      obtain ⟨hcheck, hconnect⟩ := resolveWith_spec hresolved
      exact ⟨hcheck, resolved.model, hconnect⟩
    · rintro ⟨hcheck, bus, hconnect⟩
      refine ⟨⟨bus, d.resolve.warnings⟩, ?_⟩
      rw [resolveWith, Diagnosed.enforce_lenient, outcome_resolve, hcheck, ok_bind, hconnect]
      rfl
  rw [hlenient]
  constructor
  · rintro ⟨hcheck, hconnect⟩
    exact ⟨check_iff_legal.1 hcheck, (exists_connect_iff (legal_of_check hcheck)).1 hconnect⟩
  · rintro ⟨hlegal, hplaceable⟩
    have hcheck := check_iff_legal.2 hlegal
    exact ⟨hcheck, (exists_connect_iff (legal_of_check hcheck)).2 hplaceable⟩

/-- A slave of 62 address bits is legal, but not beside a master whose words take three more. -/
example :
    let d : BusDecl := {
      name := "bus"
      masters := [{ name := "core", shape := ⟨64, 8, 60⟩ }]
      slaves := [{ name := "memory", shape := ⟨8, 8, 62⟩ }] }
    d.check = .ok () ∧ d.resolveWith .lenient =
      .error (.conflict (.overflow ((EntityPath.root "bus").child "memory") 0 (wordLimit - 1))) :=
  ⟨rfl, rfl⟩

end BusDecl

end BusMap
