import Mathlib.Algebra.Group.Nat.Defs
import BusMap.Bus.Resolve
import BusMap.Proofs.Bus.Legality
import BusMap.Proofs.Placement.Layout

/-!
# Windows of the slaves

Each declared slave of an accepted bus has a window that has one word of the bus for each of its word
addresses and that lies in the address space (`SlaveDecl.IsWindow`). No two windows meet
and no two names are equal, so that a slave is found by its name and by every address in its window
(`BusDecl.slave?_eq_some_iff`, `BusDecl.slaveAt?_eq_some_iff`).

A word of the bus is as wide as the widest port, in granules of the finest port
(`Shape.portSize_le_common`, `Shape.common_granularity_le`).
-/

set_option autoImplicit false

namespace BusMap

/-! ## Format -/

section Extremes

variable {xs : List Nat} {n x : Nat}

theorem le_max?_getD (h : x ∈ xs) : x ≤ xs.max?.getD n := by
  cases hmax : xs.max? with
  | none =>
    rw [List.max?_eq_none_iff] at hmax
    rw [hmax] at h
    cases h
  | some m => exact (List.max?_eq_some_iff.1 hmax).2 x h

theorem min?_getD_le (h : x ∈ xs) : xs.min?.getD n ≤ x := by
  cases hmin : xs.min? with
  | none =>
    rw [List.min?_eq_none_iff] at hmin
    rw [hmin] at h
    cases h
  | some m => exact (List.min?_eq_some_iff.1 hmin).2 x h

/-- What holds of all numbers and of the default holds of the least one. -/
theorem min?_getD_of_forall {p : Nat → Prop} (hn : p n) (h : ∀ x ∈ xs, p x) :
    p (xs.min?.getD n) := by
  cases hmin : xs.min? with
  | none => exact hn
  | some m => exact h m (List.min?_eq_some_iff.1 hmin).1

/-- What holds of all numbers and of the default holds of the greatest one. -/
theorem max?_getD_of_forall {p : Nat → Prop} (hn : p n) (h : ∀ x ∈ xs, p x) :
    p (xs.max?.getD n) := by
  cases hmax : xs.max? with
  | none => exact hn
  | some m => exact h m (List.max?_eq_some_iff.1 hmax).1

end Extremes

namespace Shape

variable {shapes : List Shape} {s : Shape}

theorem portSize_le_common (h : s ∈ shapes) : s.portSize ≤ (common shapes).portSize :=
  le_max?_getD (List.mem_map_of_mem h)

theorem common_granularity_le (h : s ∈ shapes) : (common shapes).granularity ≤ s.granularity :=
  min?_getD_le (List.mem_map_of_mem h)

theorem isPortSize_common (h : ∀ s ∈ shapes, s.Legal) : IsPortSize (common shapes).portSize :=
  max?_getD_of_forall (by decide) (List.forall_mem_map.2 fun s hs => (h s hs).isPortSize)

theorem isGranularity_common (h : ∀ s ∈ shapes, s.Legal) :
    IsPortSize (common shapes).granularity :=
  min?_getD_of_forall (by decide) (List.forall_mem_map.2 fun s hs => (h s hs).isGranularity)

end Shape

/-! ## Requests -/

/-- What a slave asks for on a bus whose words take `low` address bits, if its window exists. -/
def SlaveDecl.windowRequest (path : EntityPath) (low : Nat) (s : SlaveDecl) : Request :=
  ⟨path.child s.name, s.baseAddress, 1 <<< (s.shape.addressSize + low)⟩

theorem SlaveDecl.request_eq_ok_iff {path : EntityPath} {low : Nat} {s : SlaveDecl} {r : Request} :
    s.request path low = .ok r ↔
      s.shape.addressSize + low < wordBits ∧ r = s.windowRequest path low := by
  rw [request, windowSize?]
  by_cases h : s.shape.addressSize + low < wordBits
  · rw [if_pos h]
    dsimp only
    rw [Except.ok.injEq, eq_comm]
    exact (and_iff_right h).symm
  · rw [if_neg h]
    simp [h]

/-- What the window of a slave has to be on a bus whose words take `low` address bits. -/
structure SlaveDecl.IsWindow (low : Nat) (s : SlaveDecl) (window : Interval) : Prop where
  aligned : 2 ^ low ∣ window.first
  /-- One word of the bus for each word address of the slave. -/
  mem_iff : ∀ address, address ∈ window ↔
    window.first ≤ address ∧ address < window.first + 2 ^ (s.shape.addressSize + low)
  end_le : window.first + 2 ^ (s.shape.addressSize + low) ≤ wordLimit
  fixed : ∀ address, s.baseAddress = .fixed address → window.first = address

theorem SlaveDecl.IsWindow.last_add_one {low : Nat} {s : SlaveDecl} {window : Interval}
    (h : s.IsWindow low window) :
    window.last + 1 = window.first + 2 ^ (s.shape.addressSize + low) := by
  have hpos := Nat.two_pow_pos (s.shape.addressSize + low)
  have hfirst := (h.mem_iff window.first).2 ⟨Nat.le_refl _, by omega⟩
  have hlast := (h.mem_iff window.last).1 ⟨hfirst.2, Nat.le_refl _⟩
  have hend := (h.mem_iff (window.first + 2 ^ (s.shape.addressSize + low) - 1)).2
    ⟨by omega, by omega⟩
  rw [Interval.mem_def] at hend
  omega

namespace BusDecl

variable {policy : Policy} {d : BusDecl} {resolved : Resolved Bus} {low : Nat}
  {windows : List Interval}

/-- There are windows when those of all slaves exist and can be placed at words of the bus. -/
theorem windows_eq_ok_iff (hlow : low < wordBits) :
    d.windows low = .ok windows ↔
      (∀ s ∈ d.slaves, s.shape.addressSize + low < wordBits) ∧
        place low (d.slaves.map (SlaveDecl.windowRequest d.path low)) = .ok windows := by
  rw [BusDecl.windows, bind_eq_ok_iff, Machine.shiftAmount_of_lt hlow, mapError_ok]
  constructor
  · rintro ⟨requests, hrequests, hplace⟩
    rw [mapError_eq_ok_iff, mapM_eq_ok_iff_of_forall fun _ _ _ => SlaveDecl.request_eq_ok_iff]
      at hrequests
    obtain ⟨hbits, rfl⟩ := hrequests
    exact ⟨hbits, mapError_eq_ok_iff.1 hplace⟩
  · rintro ⟨hbits, hplace⟩
    refine ⟨d.slaves.map (SlaveDecl.windowRequest d.path low), ?_, mapError_eq_ok_iff.2 hplace⟩
    rw [mapError_eq_ok_iff, mapM_eq_ok_iff_of_forall fun _ _ _ => SlaveDecl.request_eq_ok_iff]
    exact ⟨hbits, rfl⟩

/-- The words of a bus whose windows are placed can be told apart by the bits of a machine word. -/
theorem low_lt_of_windows (h : d.windows low = .ok windows) : low < wordBits := by
  obtain ⟨requests, -, h⟩ := bind_eq_ok_iff.1 h
  obtain ⟨alignmentBits, hshift, -⟩ := bind_eq_ok_iff.1 h
  exact (Machine.shiftAmount_eq_ok_iff.1 (mapError_eq_ok_iff.1 hshift)).1

/-- The windows are the two passes over what the slaves ask for. -/
theorem exists_twoPass_of_windows (h : d.windows low = .ok windows) :
    ∃ marks, TwoPass (1 <<< low) (d.slaves.map (SlaveDecl.windowRequest d.path low)) marks
      windows :=
  exists_twoPass ((windows_eq_ok_iff (low_lt_of_windows h)).1 h).2

/-- Every slave has its window, in declaration order. -/
theorem forall₂_windows (h : d.windows low = .ok windows) :
    List.Forall₂ (SlaveDecl.IsWindow low) d.slaves windows := by
  obtain ⟨marks, hpasses⟩ := exists_twoPass_of_windows h
  have hlength : d.slaves.length = windows.length := by
    rw [hpasses.length_eq, List.length_map]
  refine List.forall₂_iff_get.2 ⟨hlength, fun i hi hi' => ?_⟩
  have hrequest : (d.slaves.map (SlaveDecl.windowRequest d.path low))[i]? =
      some ((d.slaves.get ⟨i, hi⟩).windowRequest d.path low) := by
    rw [List.getElem?_map, List.getElem?_eq_getElem hi]
    rfl
  have hwindow : windows[i]? = some (windows.get ⟨i, hi'⟩) := List.getElem?_eq_getElem hi'
  generalize d.slaves.get ⟨i, hi⟩ = s at hrequest
  generalize windows.get ⟨i, hi'⟩ = window at hwindow
  obtain ⟨haligned, hpos, hfits, hsize⟩ := hpasses.eq_ofSize hrequest hwindow
  have hwords : (s.windowRequest d.path low).size = 2 ^ (s.shape.addressSize + low) :=
    Nat.one_shiftLeft _
  rw [Nat.one_shiftLeft] at haligned
  rw [hwords] at hpos hfits hsize
  refine ⟨haligned, fun address => ?_, hfits, fun address haddress => ?_⟩
  · have hlast : window.last = window.first + (2 ^ (s.shape.addressSize + low) - 1) :=
      congrArg Interval.last hsize
    rw [Interval.mem_def]
    omega
  · obtain ⟨address', haddress', -, -, -, rfl⟩ := hpasses.isMark_of_fixed hrequest haddress hwindow
    cases haddress.symm.trans haddress'
    rfl

/-! ## Slaves -/

/-- A bus is checked and then connected; the warning between the two, where there is one, does not
change the outcome. -/
theorem outcome_resolve : d.resolve.outcome = d.check >>= fun _ => d.connect := by
  rw [resolve, Diagnosed.outcome_bind, Diagnosed.outcome_ofExcept]
  cases d.sizeMismatch? with
  | some w => rfl
  | none => rfl

/-- A policy accepts only buses that are legal and can be connected. -/
theorem resolveWith_spec (h : d.resolveWith policy = .ok resolved) :
    d.check = .ok () ∧ d.connect = .ok resolved.model := by
  rw [resolveWith, Diagnosed.enforce_eq_ok_iff] at h
  obtain ⟨h, -⟩ := h
  rwa [outcome_resolve, then_eq_ok_iff] at h

/-- A master keeps the declared name and shape; the format gives it a shift only. -/
theorem map_port_resolveMasters {format : Shape} {masters : List Master}
    (h : d.resolveMasters format = .ok masters) :
    (masters.map fun m => (m.name, m.shape)) = d.masters.map fun m => (m.name, m.shape) := by
  refine map_eq_map_of_forall₂ ((mapM_eq_ok_iff.1 h).imp fun m master hmaster => ?_)
  obtain ⟨shift, -, hmaster⟩ := bind_eq_ok_iff.1 hmaster
  cases hmaster
  exact congrArg (·, m.shape) (EntityPath.name_child _ _)

/-- A bus has the format of its ports, the declared masters and slaves, the slaves with their windows,
and the interconnect that is planned for them. -/
theorem connect_spec {bus : Bus} (h : d.connect = .ok bus) :
    bus.format = d.format ∧ d.format.addressLow = .ok bus.addressLow ∧
      (bus.masters.map fun m => (m.name, m.shape)) = (d.masters.map fun m => (m.name, m.shape)) ∧
      Interconnect.plan d.topology (d.masters.map fun m => (m.name, m.shape))
        (bus.slaves.map Slave.route) = .ok bus.interconnect ∧
      ∃ windows, d.windows bus.addressLow = .ok windows ∧ bus.slaves = d.resolveSlaves windows := by
  rw [connect, bind_eq_ok_iff] at h
  obtain ⟨low, hlow, h⟩ := h
  obtain ⟨windows, hwindows, h⟩ := bind_eq_ok_iff.1 h
  obtain ⟨masters, hmasters, h⟩ := bind_eq_ok_iff.1 h
  obtain ⟨interconnect, hplan, h⟩ := bind_eq_ok_iff.1 h
  cases h
  have hports := map_port_resolveMasters hmasters
  rw [hports] at hplan
  exact ⟨rfl, mapError_eq_ok_iff.1 hlow, hports, mapError_eq_ok_iff.1 hplan, windows, hwindows, rfl⟩

/-- The slaves are the declared ones with their windows, in declaration order. -/
theorem forall₂_resolveSlaves (h : d.windows low = .ok windows) :
    List.Forall₂ (fun (s : SlaveDecl) (slave : Slave) => slave.name = s.name ∧
        slave.shape = s.shape ∧ slave.requested = s.baseAddress ∧
          slave.registerSet = s.registerSet ∧ s.IsWindow low slave.window)
      d.slaves (d.resolveSlaves windows) := by
  have hwindows := forall₂_windows h
  rw [resolveSlaves]
  generalize d.slaves = slaves at hwindows
  clear h
  induction hwindows with
  | nil => exact .nil
  | cons hwindow _ ih => exact .cons ⟨EntityPath.name_child _ _, rfl, rfl, rfl, hwindow⟩ ih

/-- Every declared slave is there. Its window starts at a word of the bus, has one for each of its word
addresses and lies in the address space. -/
theorem exists_slave_of_windows (h : d.windows low = .ok windows) {s : SlaveDecl}
    (hs : s ∈ d.slaves) :
    ∃ window, (⟨d.path.child s.name, s.shape, s.baseAddress, window, s.registerSet⟩ : Slave) ∈
        d.resolveSlaves windows ∧
      1 <<< low ∣ window.first ∧ window.last < wordLimit ∧
      window.last + 1 = window.first + 1 <<< (s.shape.addressSize + low) := by
  obtain ⟨i, hi⟩ := List.mem_iff_getElem?.1 hs
  obtain ⟨window, hwindow, hspec⟩ := exists_getElem?_of_forall₂ (forall₂_windows h) hi
  have hentry : (s, window) ∈ d.slaves.zip windows :=
    List.mem_of_getElem? (List.getElem?_zip_eq_some.2 ⟨hi, hwindow⟩)
  have hlast := hspec.last_add_one
  have hend := hspec.end_le
  rw [Nat.one_shiftLeft, Nat.one_shiftLeft]
  exact ⟨window, List.mem_map.2 ⟨(s, window), hentry, rfl⟩, hspec.aligned, by omega, hlast⟩

/-- No two windows meet. -/
theorem apart_of_windows (h : d.windows low = .ok windows) :
    (d.resolveSlaves windows).Pairwise fun s t => ¬ s.window.Overlaps t.window := by
  obtain ⟨marks, hpasses⟩ := exists_twoPass_of_windows h
  have hlength : windows.length ≤ d.slaves.length := by
    rw [hpasses.length_eq, List.length_map]
  have hmap : (d.resolveSlaves windows).map (·.window) = windows := by
    rw [resolveSlaves, List.map_map]
    exact List.map_snd_zip hlength
  have hapart : windows.Pairwise fun r s => ¬ r.Overlaps s := by
    rw [List.pairwise_iff_getElem]
    intro i j hi hj hij
    exact hpasses.not_overlaps hij (List.getElem?_eq_getElem hi) (List.getElem?_eq_getElem hj)
  rw [← hmap] at hapart
  exact List.pairwise_map.1 hapart

/-- The slaves have the declared names. -/
theorem map_name_resolveSlaves (h : d.windows low = .ok windows) :
    (d.resolveSlaves windows).map Slave.name = d.slaves.map (·.name) :=
  map_eq_map_of_forall₂ ((forall₂_resolveSlaves h).imp fun _ _ hslave => hslave.1)

/-! ## Look-up -/

section Unique

variable {α : Type} {xs : List α} {x : α}

/-- An element is found by a property that it shares with no other one. -/
theorem find?_eq_some_iff_of_pairwise {p : α → Bool}
    (h : xs.Pairwise fun x y => ¬ (p x = true ∧ p y = true)) :
    xs.find? p = some x ↔ x ∈ xs ∧ p x = true := by
  constructor
  · intro hfind
    exact ⟨List.mem_of_find?_eq_some hfind, List.find?_some hfind⟩
  · rintro ⟨hmem, hx⟩
    -- Nothing before the element has the property, or the two would share it.
    induction xs with
    | nil => cases hmem
    | cons y ys ih =>
      obtain ⟨hy, hys⟩ := List.pairwise_cons.1 h
      rcases List.mem_cons.1 hmem with rfl | hmem
      · exact List.find?_cons_of_pos hx
      · rw [List.find?_cons_of_neg fun hyp => hy x hmem ⟨hyp, hx⟩]
        exact ih hys hmem

/-- An element is found by its name when no two names are the same. -/
theorem find?_name_eq_some_iff {f : α → String} (h : (xs.map f).Nodup) {name : String} :
    (xs.find? fun x => f x = name) = some x ↔ x ∈ xs ∧ f x = name := by
  rw [find?_eq_some_iff_of_pairwise, decide_eq_true_iff]
  apply (List.pairwise_map.1 h).imp
  intro x y hne hboth
  exact hne ((of_decide_eq_true hboth.1).trans (of_decide_eq_true hboth.2).symm)

end Unique

/-- No address lies in two windows. -/
theorem pairwise_not_mem_window (h : d.resolveWith policy = .ok resolved) :
    resolved.model.slaves.Pairwise fun s t => ∀ address ∈ s.window, address ∉ t.window := by
  obtain ⟨-, hconnect⟩ := resolveWith_spec h
  obtain ⟨-, -, -, -, windows, hwindows, hslaves⟩ := connect_spec hconnect
  rw [hslaves]
  apply (apart_of_windows hwindows).imp
  intro s t hapart address hs ht
  exact hapart (Interval.overlaps_of_mem hs ht)

/-- One address does not select two slaves. -/
theorem pairwise_not_selected (h : d.resolveWith policy = .ok resolved) (address : Nat) :
    resolved.model.slaves.Pairwise fun s t =>
      ¬ (decide (address ∈ s.window) = true ∧ decide (address ∈ t.window) = true) := by
  apply (pairwise_not_mem_window h).imp
  intro s t hapart hboth
  exact hapart address (of_decide_eq_true hboth.1) (of_decide_eq_true hboth.2)

/-- An address selects the slave in whose window it is. -/
theorem slaveAt?_eq_some_iff (h : d.resolveWith policy = .ok resolved) {address : Nat}
    {slave : Slave} :
    resolved.model.slaveAt? address = some slave ↔
      slave ∈ resolved.model.slaves ∧ address ∈ slave.window := by
  rw [Bus.slaveAt?, find?_eq_some_iff_of_pairwise (pairwise_not_selected h address),
    decide_eq_true_iff]

theorem slaveAt?_eq_none_iff {bus : Bus} {address : Nat} :
    bus.slaveAt? address = none ↔ ∀ slave ∈ bus.slaves, address ∉ slave.window := by
  simp [Bus.slaveAt?]

/-- The slaves have the declared names. -/
theorem map_name_slaves (h : d.resolveWith policy = .ok resolved) :
    resolved.model.slaves.map Slave.name = d.slaves.map (·.name) := by
  obtain ⟨-, hconnect⟩ := resolveWith_spec h
  obtain ⟨-, -, -, -, windows, hwindows, hslaves⟩ := connect_spec hconnect
  rw [hslaves]
  exact map_name_resolveSlaves hwindows

theorem nodup_slaveNames (h : d.resolveWith policy = .ok resolved) :
    (resolved.model.slaves.map Slave.name).Nodup := by
  obtain ⟨-, -, -, hsiblings, -⟩ := check_eq_ok_iff.1 (resolveWith_spec h).1
  rw [map_name_slaves h]
  exact nodup_of_checkSiblings hsiblings

/-- A name belongs to one slave. -/
theorem slave?_eq_some_iff (h : d.resolveWith policy = .ok resolved) {name : String}
    {slave : Slave} :
    resolved.model.slave? name = some slave ↔
      slave ∈ resolved.model.slaves ∧ slave.name = name :=
  find?_name_eq_some_iff (nodup_slaveNames h)

/-- The masters have the declared names. -/
theorem map_name_masters (h : d.resolveWith policy = .ok resolved) :
    resolved.model.masters.map Master.name = d.masters.map (·.name) := by
  obtain ⟨-, hconnect⟩ := resolveWith_spec h
  obtain ⟨-, -, hports, -⟩ := connect_spec hconnect
  have hnames := congrArg (List.map Prod.fst) hports
  rwa [List.map_map, List.map_map] at hnames

end BusDecl

end BusMap
