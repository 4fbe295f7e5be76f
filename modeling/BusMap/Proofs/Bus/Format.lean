import Mathlib.Order.Bounds.Basic
import BusMap.Proofs.Bus.Window

/-!
# The format of a bus

The format of a bus is made of three extremes over its ports, so that one port may give the width of
its words, another one its granules and a third one its addresses (`Shape.IsCommon`). What has these
extremes is determined by which ports there are, and the order in which they are declared has no
part in it (`Shape.IsCommon.unique`).

All sizes are powers of two, from 8 to 64 bits. A narrower master thus addresses a whole number of
parts of a bus word, which its shift counts (`Shape.portSize_mul_two_pow`), and a word of the bus
has at least the granules of each slave (`BusDecl.resolveWith_format_dominates`).
-/

set_option autoImplicit false

namespace BusMap

/-! ## Extremes -/

section Extremes

variable {ι : Type} {xs : List ι} {f : ι → Nat} {n : Nat}

theorem isGreatest_max?_getD (h : xs ≠ []) :
    IsGreatest {x | ∃ i ∈ xs, f i = x} ((xs.map f).max?.getD n) := by
  constructor
  · cases hmax : (xs.map f).max? with
    | none => exact absurd (List.map_eq_nil_iff.1 (List.max?_eq_none_iff.1 hmax)) h
    | some m => exact List.mem_map.1 (List.max?_eq_some_iff.1 hmax).1
  · rintro _ ⟨i, hi, rfl⟩
    exact le_max?_getD (List.mem_map_of_mem hi)

theorem isLeast_min?_getD (h : xs ≠ []) :
    IsLeast {x | ∃ i ∈ xs, f i = x} ((xs.map f).min?.getD n) := by
  constructor
  · cases hmin : (xs.map f).min? with
    | none => exact absurd (List.map_eq_nil_iff.1 (List.min?_eq_none_iff.1 hmin)) h
    | some m => exact List.mem_map.1 (List.min?_eq_some_iff.1 hmin).1
  · rintro _ ⟨i, hi, rfl⟩
    exact min?_getD_le (List.mem_map_of_mem hi)

end Extremes

namespace Shape

/-- The widest port, the finest granularity and the longest address among some ports, each of which
is that of some port. -/
structure IsCommon (format : Shape) (shapes : List Shape) : Prop where
  portSize : IsGreatest {n | ∃ s ∈ shapes, s.portSize = n} format.portSize
  granularity : IsLeast {n | ∃ s ∈ shapes, s.granularity = n} format.granularity
  addressSize : IsGreatest {n | ∃ s ∈ shapes, s.addressSize = n} format.addressSize

variable {shapes shapes' : List Shape} {format format' s : Shape}

theorem isCommon_common (h : shapes ≠ []) : (common shapes).IsCommon shapes where
  portSize := isGreatest_max?_getD h
  granularity := isLeast_min?_getD h
  addressSize := isGreatest_max?_getD h

/-- The same ports have one common format. -/
theorem IsCommon.unique (h : format.IsCommon shapes) (h' : format'.IsCommon shapes')
    (hshapes : ∀ s, s ∈ shapes ↔ s ∈ shapes') : format = format' := by
  obtain ⟨hport, hgranularity, haddress⟩ := h
  simp only [hshapes] at hport hgranularity haddress
  have hport := hport.unique h'.portSize
  have hgranularity := hgranularity.unique h'.granularity
  have haddress := haddress.unique h'.addressSize
  cases format
  cases format'
  rw [Shape.mk.injEq]
  exact ⟨hport, hgranularity, haddress⟩

/-- The bits of the shift count the parts of a bus word that the master addresses. -/
theorem portSize_mul_two_pow (hformat : IsPortSize format.portSize) (hs : IsPortSize s.portSize)
    (hle : s.portSize ≤ format.portSize) {shift : Nat} (h : format.addressShift s = .ok shift) :
    s.portSize * 2 ^ shift = format.portSize := by
  rw [addressShift, Machine.div_of_pos hs.pos] at h
  cases h
  calc s.portSize * 2 ^ ceilLog2 (format.portSize / s.portSize)
      = s.portSize * (format.portSize / s.portSize) := by
        rw [← Nat.one_shiftLeft, hformat.shiftLeft_granules hs hle]
    _ = format.portSize := Nat.mul_div_cancel' (hs.dvd_of_le hformat hle)

theorem adapter?_eq_none_iff :
    format.adapter? s = none ↔
      s.portSize = format.portSize ∧ s.granularity = format.granularity := by
  rw [adapter?]
  split
  · exact iff_of_true rfl ‹_›
  · exact iff_of_false (Option.some_ne_none _) ‹_›

end Shape

/-! ## Nodes of a bus -/

namespace Bus

/-- Shapes of all nodes, masters first. -/
def shapes (b : Bus) : List Shape := b.masters.map (·.shape) ++ b.slaves.map (·.shape)

/-- Each master with the adapter that it needs. -/
def masterAdapters (b : Bus) : List (String × Option Adapter) :=
  b.masters.map fun m => (m.name, b.adapter? m.shape)

/-- Each slave with the adapter that it needs. -/
def slaveAdapters (b : Bus) : List (String × Option Adapter) :=
  b.slaves.map fun s => (s.name, b.adapter? s.shape)

end Bus

/-- The two buses are declared with the same masters and the same slaves, each in some order. -/
structure BusDecl.SameNodes (d d' : BusDecl) : Prop where
  masters : d.masters.Perm d'.masters
  slaves : d.slaves.Perm d'.slaves

namespace BusDecl

variable {policy : Policy} {d d' : BusDecl} {resolved : Resolved Bus} {bus : Bus}

theorem SameNodes.shapes (h : d.SameNodes d') : d.shapes.Perm d'.shapes :=
  ((h.masters.map _).append (h.slaves.map _)).map _

theorem shapes_ne_nil (h : d.masters ≠ []) : d.shapes ≠ [] := by
  obtain ⟨m, hm⟩ := List.exists_mem_of_ne_nil _ h
  exact List.ne_nil_of_mem (master_shape_mem_shapes hm)

/-- The order of the nodes has no part in the format. -/
theorem SameNodes.format_eq (h : d.SameNodes d') (hne : d.shapes ≠ []) : d'.format = d.format := by
  have hne' : d'.shapes ≠ [] := by
    intro hnil
    have hshapes := h.shapes
    rw [hnil] at hshapes
    exact hne hshapes.eq_nil
  exact (Shape.isCommon_common hne').unique (Shape.isCommon_common hne) fun _ =>
    h.shapes.mem_iff.symm

/-- Each master keeps its port, and has the shift that the format gives it. -/
theorem forall₂_masters_of_connect (h : d.connect = .ok bus) :
    List.Forall₂ (fun (m : MasterDecl) (master : Master) => master.name = m.name ∧
        master.shape = m.shape ∧ d.format.addressShift m.shape = .ok master.addressShift)
      d.masters bus.masters := by
  rw [connect] at h
  obtain ⟨low, -, h⟩ := bind_eq_ok_iff.1 h
  obtain ⟨windows, -, h⟩ := bind_eq_ok_iff.1 h
  obtain ⟨masters, hmasters, h⟩ := bind_eq_ok_iff.1 h
  obtain ⟨interconnect, -, h⟩ := bind_eq_ok_iff.1 h
  cases h
  refine (mapM_eq_ok_iff.1 hmasters).imp fun m master hmaster => ?_
  obtain ⟨shift, hshift, hmaster⟩ := bind_eq_ok_iff.1 hmaster
  cases hmaster
  exact ⟨EntityPath.name_child _ _, rfl, mapError_eq_ok_iff.1 hshift⟩

/-- The nodes of a bus have the declared ports. -/
theorem shapes_of_connect (h : d.connect = .ok bus) : bus.shapes = d.shapes := by
  obtain ⟨-, -, -, -, windows, hwindows, hslaves⟩ := connect_spec h
  have hmasters : bus.masters.map (·.shape) = d.masters.map (·.shape) :=
    map_eq_map_of_forall₂ ((forall₂_masters_of_connect h).imp fun _ _ hmaster => hmaster.2.1)
  have hports : bus.slaves.map (·.shape) = d.slaves.map (·.shape) := by
    rw [hslaves]
    exact map_eq_map_of_forall₂ ((forall₂_resolveSlaves hwindows).imp fun _ _ hslave => hslave.2.1)
  rw [Bus.shapes, hmasters, hports, BusDecl.shapes, nodes, List.map_append, List.map_map,
    List.map_map]
  rfl

/-- The adapters of a bus are those of the declared nodes in its format. -/
theorem adapters_of_connect (h : d.connect = .ok bus) :
    bus.masterAdapters = (d.masters.map fun m => (m.name, d.format.adapter? m.shape)) ∧
      bus.slaveAdapters = d.slaves.map fun s => (s.name, d.format.adapter? s.shape) := by
  obtain ⟨hformat, -, -, -, windows, hwindows, hslaves⟩ := connect_spec h
  constructor
  · refine map_eq_map_of_forall₂ ((forall₂_masters_of_connect h).imp fun m master hmaster => ?_)
    rw [hmaster.1, hmaster.2.1, Bus.adapter?, hformat]
  · rw [Bus.slaveAdapters, hslaves]
    refine map_eq_map_of_forall₂ ((forall₂_resolveSlaves hwindows).imp fun s slave hslave => ?_)
    rw [hslave.1, hslave.2.1, Bus.adapter?, hformat]

/-- Buses of the same nodes have one format, in which each node has one adapter. -/
theorem SameNodes.adapters_perm (h : d.SameNodes d') (hne : d.shapes ≠ []) {bus' : Bus}
    (hconnect : d.connect = .ok bus) (hconnect' : d'.connect = .ok bus') :
    bus'.format = bus.format ∧ bus.masterAdapters.Perm bus'.masterAdapters ∧
      bus.slaveAdapters.Perm bus'.slaveAdapters := by
  obtain ⟨hformat, -⟩ := connect_spec hconnect
  obtain ⟨hformat', -⟩ := connect_spec hconnect'
  obtain ⟨hmasters, hslaves⟩ := adapters_of_connect hconnect
  obtain ⟨hmasters', hslaves'⟩ := adapters_of_connect hconnect'
  rw [hmasters, hmasters', hslaves, hslaves', hformat', hformat, h.format_eq hne]
  exact ⟨rfl, h.masters.map _, h.slaves.map _⟩

/-! ## Words of the masters -/

/-- The words of a master times two to its shift are the words of the bus. -/
theorem portSize_mul_two_pow_of_connect (hcheck : d.check = .ok ()) (h : d.connect = .ok bus)
    {master : Master} (hmaster : master ∈ bus.masters) :
    master.shape.portSize * 2 ^ master.addressShift = bus.format.portSize := by
  have hlegal := legal_of_check hcheck
  obtain ⟨hformat, -⟩ := connect_spec h
  obtain ⟨m, hm, -, hshape, hshift⟩ :=
    exists_mem_of_forall₂ (forall₂_masters_of_connect h) hmaster
  have hmem := master_shape_mem_shapes hm
  rw [hshape, hformat]
  exact Shape.portSize_mul_two_pow (Shape.isPortSize_common hlegal) (hlegal _ hmem).isPortSize
    (Shape.portSize_le_common hmem) hshift

/-! ## Windows in the format of the bus -/

/-- The common format of a legal bus has words of whole granules. -/
theorem format_granularity_le (h : d.check = .ok ()) :
    IsPortSize d.format.portSize ∧ IsPortSize d.format.granularity ∧
      d.format.granularity ≤ d.format.portSize := by
  rcases check_eq_ok_iff.1 h with ⟨-, ⟨hmasters, -⟩, -, -, hlegal⟩
  refine ⟨Shape.isPortSize_common hlegal, Shape.isGranularity_common hlegal, ?_⟩
  rcases List.exists_mem_of_ne_nil _ hmasters with ⟨m, hm⟩
  have hmem := master_shape_mem_shapes hm
  calc d.format.granularity ≤ m.shape.granularity := Shape.common_granularity_le hmem
    _ ≤ m.shape.portSize := (hlegal _ hmem).granularity_le
    _ ≤ d.format.portSize := Shape.portSize_le_common hmem

/-- A window has a word of the bus for each word address of its slave. -/
theorem window_eq_ofSize (h : d.check = .ok ()) {low : Nat} (hlow : d.format.addressLow = .ok low)
    {s : SlaveDecl} {window : Interval} (hwindow : s.IsWindow low window) :
    window = .ofSize window.first
      (2 ^ s.shape.addressSize * (d.format.portSize / d.format.granularity)) := by
  rcases format_granularity_le h with ⟨hport, hgranularity, hle⟩
  rw [Shape.addressLow_of_pos hgranularity.pos] at hlow
  cases hlow
  have hlast := hwindow.last_add_one
  have hpos : 0 < 2 ^ s.shape.addressSize * (d.format.portSize / d.format.granularity) :=
    Nat.mul_pos (Nat.two_pow_pos _) (Nat.div_pos hle hgranularity.pos)
  rw [Nat.pow_add, ← Nat.one_shiftLeft (ceilLog2 _), hport.shiftLeft_granules hgranularity hle]
    at hlast
  rcases window with ⟨first, last⟩
  have hend : last + 1 =
      first + 2 ^ s.shape.addressSize * (d.format.portSize / d.format.granularity) := hlast
  simp only [Interval.ofSize, Interval.mk.injEq, true_and]
  omega

/-- The window of a slave has an address for each granule of the slave itself. -/
theorem exists_selectLines_of_window (h : d.check = .ok ()) {low : Nat}
    (hlow : d.format.addressLow = .ok low) {s : SlaveDecl} (hs : s ∈ d.slaves) {window : Interval}
    (hwindow : s.IsWindow low window) :
    ∃ lines, s.shape.selectLines = .ok lines ∧
      ∀ offset < 2 ^ s.shape.addressSize * lines, window.first + offset ∈ window := by
  have hmem := shape_mem_shapes hs
  have hlegal := legal_of_check h _ hmem
  obtain ⟨-, hgranularity, -⟩ := format_granularity_le h
  have hlines : s.shape.portSize / s.shape.granularity ≤
      d.format.portSize / d.format.granularity :=
    Nat.div_le_div (Shape.portSize_le_common hmem) (Shape.common_granularity_le hmem)
      (Nat.ne_of_gt hgranularity.pos)
  have hsize := Nat.mul_le_mul_left (2 ^ s.shape.addressSize) hlines
  refine ⟨_, Machine.div_of_pos hlegal.isGranularity.pos, fun offset hoffset => ?_⟩
  rw [window_eq_ofSize h hlow hwindow, Interval.mem_def, Interval.first_ofSize,
    Interval.last_ofSize]
  omega

/-- **The format of a bus dominates its nodes.** The format of an accepted bus has the widest port,
the finest granularity and the longest address of all nodes, its sizes are port sizes, and its
granules fit its words. It is the format of the same nodes in every order, in which each node has
the same adapter, and a node has none exactly when it has the sizes of the format. The words of a
master times two to its shift are the words of the bus. The window of a slave holds an address for
each granule in all words of the slave. -/
theorem resolveWith_format_dominates (policy : Policy) (d : BusDecl) (resolved : Resolved Bus)
    (h : d.resolveWith policy = .ok resolved) :
    let bus := resolved.model
    (IsPortSize bus.format.portSize ∧ IsPortSize bus.format.granularity ∧
        bus.format.granularity ≤ bus.format.portSize) ∧
      bus.format.IsCommon bus.shapes ∧
      (∀ d', d.SameNodes d' → d'.format = bus.format ∧
        ∀ policy' resolved', d'.resolveWith policy' = .ok resolved' →
          resolved'.model.format = bus.format ∧
            bus.masterAdapters.Perm resolved'.model.masterAdapters ∧
              bus.slaveAdapters.Perm resolved'.model.slaveAdapters) ∧
      (∀ m ∈ bus.masters, m.shape.portSize * 2 ^ m.addressShift = bus.format.portSize) ∧
      (∀ node, bus.adapter? node = none ↔
        node.portSize = bus.format.portSize ∧ node.granularity = bus.format.granularity) ∧
      ∀ s ∈ bus.slaves, ∃ lines, s.shape.selectLines = .ok lines ∧
        ∀ offset < 2 ^ s.shape.addressSize * lines, s.window.first + offset ∈ s.window := by
  intro bus
  obtain ⟨hcheck, hconnect⟩ := resolveWith_spec h
  obtain ⟨-, ⟨hmasters, -⟩, -⟩ := check_eq_ok_iff.1 hcheck
  obtain ⟨hformat, hlow, -, -, windows, hwindows, hslaves⟩ := connect_spec hconnect
  have hne := shapes_ne_nil hmasters
  refine ⟨?_, ?_, ?_, fun _ => portSize_mul_two_pow_of_connect hcheck hconnect,
    fun _ => Shape.adapter?_eq_none_iff, ?_⟩
  · rw [hformat]
    exact format_granularity_le hcheck
  · rw [hformat, shapes_of_connect hconnect]
    exact Shape.isCommon_common hne
  · intro d' hnodes
    refine ⟨(hnodes.format_eq hne).trans hformat.symm, fun policy' resolved' h' => ?_⟩
    obtain ⟨-, hconnect'⟩ := resolveWith_spec h'
    exact hnodes.adapters_perm hne hconnect hconnect'
  · intro slave hslave
    rw [hslaves] at hslave
    obtain ⟨s, hs, -, hshape, -, -, hwindow⟩ :=
      exists_mem_of_forall₂ (forall₂_resolveSlaves hwindows) hslave
    rw [hshape]
    exact exists_selectLines_of_window hcheck hlow hs hwindow

/-- Nodes of which none has the format of the bus: one has its words, two its granules, and one its
address bits. -/
def attic : BusDecl where
  name := "attic"
  masters := [⟨"cpu", ⟨32, 8, 16⟩⟩, ⟨"dma", ⟨8, 8, 24⟩⟩]
  slaves := [
    { name := "wide", shape := ⟨64, 16, 3⟩ },
    { name := "uart", shape := ⟨16, 16, 5⟩, baseAddress := .fixed 256 }]

/-- The same nodes the other way around. -/
def atticReversed : BusDecl :=
  { attic with masters := attic.masters.reverse, slaves := attic.slaves.reverse }

theorem resolveWith_format_dominates_attic :
    ∃ resolved resolved', attic.resolveWith .lenient = .ok resolved ∧
      attic.SameNodes atticReversed ∧ atticReversed.resolveWith .lenient = .ok resolved' ∧
      resolved.model.format = ⟨64, 8, 24⟩ ∧ resolved'.model.format = resolved.model.format ∧
      resolved.model.slaveAdapters.Perm resolved'.model.slaveAdapters ∧
      (∀ m ∈ resolved.model.masters, m.shape.portSize * 2 ^ m.addressShift = 64) ∧
      resolved.model.adapter? ⟨64, 8, 3⟩ = none := by
  have hnodes : attic.SameNodes atticReversed :=
    ⟨(List.reverse_perm _).symm, (List.reverse_perm _).symm⟩
  obtain ⟨-, -, horder, hshift, hadapter, -⟩ :=
    resolveWith_format_dominates .lenient attic _ rfl
  obtain ⟨hformat, -, hslaves⟩ := (horder atticReversed hnodes).2 .lenient _ rfl
  exact ⟨_, _, rfl, hnodes, rfl, rfl, hformat, hslaves, hshift, (hadapter _).2 ⟨rfl, rfl⟩⟩

end BusDecl

end BusMap
