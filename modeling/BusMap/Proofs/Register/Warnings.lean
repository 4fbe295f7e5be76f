import BusMap.Proofs.Register.MaskedWrite

/-!
# The warnings of a register set

Which warnings are due follows from the declaration alone (`RegisterDecl.dueWarnings`): one for a field
that is written as a whole word next to other fields, and one for a field that is written by lanes when
another field has a bit in a lane that it touches. Lanes are told by bit positions here, and not by
masks (`BitRange.MeetsLane`).

An accepted register set has exactly the warnings that are due, register after register and field after
field, and none of them twice (`RegisterSetDecl.resolveWith_warnings`).
-/

set_option autoImplicit false

namespace BusMap

/-- Parts that can be told apart by a key of their elements have no element twice when joined. -/
theorem nodup_flatMap_of_key {α β κ : Type} {xs : List α} {part : α → List β} (key : β → κ)
    (place : α → κ) (hplaces : (xs.map place).Nodup)
    (hkey : ∀ x ∈ xs, ∀ b ∈ part x, key b = place x) (hparts : ∀ x ∈ xs, (part x).Nodup) :
    (xs.flatMap part).Nodup := by
  refine List.nodup_flatMap.2 ⟨hparts, ?_⟩
  refine (List.pairwise_map.1 hplaces).imp_of_mem fun {x y} hx hy hne b hbx hby => hne ?_
  exact (hkey x hx b hbx).symm.trans (hkey y hy b hby)

/-! ## Lanes by bit positions -/

namespace BitRange

variable {b c : BitRange}

/-- Some byte lane of the word holds bits of both ranges. -/
def MeetsLane (b c : BitRange) : Prop := ∃ i j, b.Covers i ∧ c.Covers j ∧ i / 8 = j / 8

theorem meetsLane_iff_lanes (hb : b.lo ≤ b.hi) :
    b.MeetsLane c ↔ ∃ j, c.Covers j ∧ b.lanes.Covers (j / 8) := by
  constructor
  · rintro ⟨i, j, hi, hj, hlane⟩
    exact ⟨j, hj, hlane ▸ covers_lanes hi⟩
  · rintro ⟨j, hj, hlane⟩
    obtain ⟨i, hi, hsame⟩ := exists_covers_of_lanes hb hlane
    exact ⟨i, j, hi, hj, hsame⟩

/-- Ranges that have bits meet in a lane exactly when their first and last lanes reach over each
other. -/
theorem meetsLane_iff :
    b.MeetsLane c ↔
      (b.lo ≤ b.hi ∧ c.lo ≤ c.hi) ∧ b.lo / 8 ≤ c.hi / 8 ∧ c.lo / 8 ≤ b.hi / 8 := by
  constructor
  · rintro ⟨i, j, ⟨hi, hi'⟩, ⟨hj, hj'⟩, hlane⟩
    omega
  · rintro ⟨⟨hb, hc⟩, hbc, hcb⟩
    rw [meetsLane_iff_lanes hb]
    -- The higher of the two first lanes holds bits of both.
    have hcovers : c.lanes.Covers (max (b.lo / 8) (c.lo / 8)) :=
      ⟨Nat.le_max_right _ _, Nat.max_le.2 ⟨hbc, Nat.div_le_div_right hc⟩⟩
    obtain ⟨j, hj, hlane⟩ := exists_covers_of_lanes hc hcovers
    refine ⟨j, hj, ?_⟩
    rw [hlane]
    exact ⟨Nat.le_max_left _ _, Nat.max_le.2 ⟨Nat.div_le_div_right hb, hcb⟩⟩

instance (b c : BitRange) : Decidable (b.MeetsLane c) := decidable_of_iff _ meetsLane_iff.symm

end BitRange

/-! ## Warnings that are due -/

/-- Names of the other fields with a bit in a byte lane that the field at position `i` touches. -/
def RegisterDecl.laneNeighbours (r : RegisterDecl) (f : FieldDecl) (i : Nat) : List String :=
  ((r.fields.eraseIdx i).filter fun g => f.bits.MeetsLane g.bits).map (·.name)

/-- Warnings that are due for the field at position `i`, which has the given path. -/
def RegisterDecl.dueWarnings (r : RegisterDecl) (path : EntityPath) (f : FieldDecl) (i : Nat) :
    List Warning :=
  (if .overwrite ∈ f.functions ∧ 1 < r.fields.length then
    [.overwriteMultiField path r.fields.length] else []) ++
  if .writeMasked ∈ f.functions ∧ ∃ g ∈ r.fields.eraseIdx i, f.bits.MeetsLane g.bits then
    [.maskedWriteLaneShared path f.bits.laneMask (r.laneNeighbours f i)] else []

namespace FieldDecl

variable {f : FieldDecl} {path : EntityPath} {others : List FieldDecl}

theorem hazard?_eq_none {function : AccessFunction} (hoverwrite : function ≠ .overwrite)
    (hmasked : function ≠ .writeMasked) : f.hazard? path others function = none := by
  cases function with
  | overwrite => exact absurd rfl hoverwrite
  | writeMasked => exact absurd rfl hmasked
  | read | readShadow | readModifyWrite | writeShadow | strobe => rfl

/-- Only two of the functions may have a side effect, and the one that is planned first comes
first. -/
theorem hazards_eq :
    f.hazards path others =
      (if .overwrite ∈ f.functions then (f.hazard? path others .overwrite).toList else []) ++
        if .writeMasked ∈ f.functions then (f.hazard? path others .writeMasked).toList else [] := by
  have hoverwrite : f.Wants .overwrite ↔ .overwrite ∈ f.functions := wants_iff_of_ne (by decide)
  have hmasked : f.Wants .writeMasked ↔ .writeMasked ∈ f.functions := wants_iff_of_ne (by decide)
  rw [hazards, planned_eq, List.filterMap_filter, List.filterMap_eq_flatMap_toList,
    AccessFunction.planningOrder]
  simp [hazard?_eq_none, hoverwrite, hmasked, apply_ite Option.toList]

/-- Fields inside the word share a lane exactly when some lane holds bits of both. -/
theorem sharesLane_iff_meetsLane {g : FieldDecl} (hf : f.bits.lo ≤ f.bits.hi ∧ f.bits.hi < 64)
    (hg : g.bits.lo ≤ g.bits.hi ∧ g.bits.hi < 64) :
    f.SharesLane g ↔ f.bits.MeetsLane g.bits := by
  rw [sharesLane_iff hf.2 hg, BitRange.meetsLane_iff_lanes hf.1]

end FieldDecl

namespace RegisterDecl

variable {r : RegisterDecl} {path : EntityPath} {f : FieldDecl} {i : Nat}

theorem toList_hazard?_overwrite (hf : r.fields[i]? = some f) :
    (f.hazard? path (r.fields.eraseIdx i) .overwrite).toList =
      if 1 < r.fields.length then [.overwriteMultiField path r.fields.length] else [] := by
  obtain ⟨hi, -⟩ := List.getElem?_eq_some_iff.1 hf
  have hlength : (r.fields.eraseIdx i).length + 1 = r.fields.length :=
    List.length_eraseIdx_add_one hi
  rw [FieldDecl.hazard?, hlength]
  by_cases hone : 1 < r.fields.length
  · have hsome : r.fields.eraseIdx i ≠ [] := List.ne_nil_of_length_pos (by omega)
    rw [if_pos hone, if_neg (mt List.isEmpty_iff.1 hsome)]
    rfl
  · have hnone : r.fields.eraseIdx i = [] := List.eq_nil_of_length_eq_zero (by omega)
    rw [if_neg hone, if_pos (List.isEmpty_iff.2 hnone)]
    rfl

/-- Among fields that lie in the word, those in the lanes of a field are found by their masks. -/
theorem map_name_filter_sharesLane
    (hword : ∀ g ∈ r.fields, g.bits.lo ≤ g.bits.hi ∧ g.bits.hi < 64) (hf : r.fields[i]? = some f) :
    ((r.fields.eraseIdx i).filter (f.SharesLane ·)).map (·.name) = r.laneNeighbours f i := by
  refine congrArg (List.map _) (List.filter_congr fun g hg => decide_eq_decide.2 ?_)
  exact FieldDecl.sharesLane_iff_meetsLane (hword f (List.mem_of_getElem? hf))
    (hword g (List.mem_of_mem_eraseIdx hg))

theorem laneNeighbours_eq_nil_iff :
    r.laneNeighbours f i = [] ↔ ¬ ∃ g ∈ r.fields.eraseIdx i, f.bits.MeetsLane g.bits := by
  rw [laneNeighbours, List.map_eq_nil_iff, List.filter_eq_nil_iff]
  simp

theorem toList_hazard?_writeMasked
    (hword : ∀ g ∈ r.fields, g.bits.lo ≤ g.bits.hi ∧ g.bits.hi < 64) (hf : r.fields[i]? = some f) :
    (f.hazard? path (r.fields.eraseIdx i) .writeMasked).toList =
      if ∃ g ∈ r.fields.eraseIdx i, f.bits.MeetsLane g.bits then
        [.maskedWriteLaneShared path f.bits.laneMask (r.laneNeighbours f i)] else [] := by
  rw [FieldDecl.hazard?, map_name_filter_sharesLane hword hf]
  by_cases hmeets : ∃ g ∈ r.fields.eraseIdx i, f.bits.MeetsLane g.bits
  · have hsome : r.laneNeighbours f i ≠ [] := fun h => laneNeighbours_eq_nil_iff.1 h hmeets
    rw [if_pos hmeets, if_neg (mt List.isEmpty_iff.1 hsome)]
    rfl
  · rw [if_neg hmeets, if_pos (List.isEmpty_iff.2 (laneNeighbours_eq_nil_iff.2 hmeets))]
    rfl

/-- In a register whose fields lie in the word, the warnings that are due for a field are the hazards
of its functions. -/
theorem hazards_eq_dueWarnings
    (hword : ∀ g ∈ r.fields, g.bits.lo ≤ g.bits.hi ∧ g.bits.hi < 64) (hf : r.fields[i]? = some f) :
    f.hazards path (r.fields.eraseIdx i) = r.dueWarnings path f i := by
  rw [FieldDecl.hazards_eq, toList_hazard?_overwrite hf, toList_hazard?_writeMasked hword hf,
    dueWarnings, ite_and, ite_and]

theorem hazards_eq_flatMap (hword : ∀ g ∈ r.fields, g.bits.lo ≤ g.bits.hi ∧ g.bits.hi < 64) :
    r.hazards path =
      r.fields.zipIdx.flatMap fun (f, i) => r.dueWarnings (path.child f.name) f i := by
  refine List.flatMap_congr fun entry hentry => ?_
  exact hazards_eq_dueWarnings hword (List.mk_mem_zipIdx_iff_getElem?.1 hentry)

theorem path_of_mem_dueWarnings {w : Warning} (h : w ∈ r.dueWarnings path f i) : w.path = path := by
  rw [dueWarnings, List.mem_append] at h
  rcases h with h | h
  · obtain ⟨-, hw⟩ := (List.mem_ite_nil_right).1 h
    rw [List.mem_singleton.1 hw]
    rfl
  · obtain ⟨-, hw⟩ := (List.mem_ite_nil_right).1 h
    rw [List.mem_singleton.1 hw]
    rfl

theorem nodup_dueWarnings : (r.dueWarnings path f i).Nodup := by
  rw [dueWarnings]
  split_ifs <;> simp

/-- No warning is due twice for the fields of a register, which have different names and so different
paths. -/
theorem nodup_flatMap_dueWarnings (hnames : (r.fields.map (·.name)).Nodup) :
    (r.fields.zipIdx.flatMap fun (f, i) => r.dueWarnings (path.child f.name) f i).Nodup := by
  refine nodup_flatMap_of_key Warning.path (fun entry => path.child entry.1.name) ?_ ?_ ?_
  · have hpaths : r.fields.zipIdx.map (fun entry => path.child entry.1.name) =
        (r.fields.map (·.name)).map path.child := by
      conv_rhs => rw [← List.zipIdx_map_fst 0 r.fields, List.map_map, List.map_map]
      rfl
    rw [hpaths]
    exact hnames.map fun _ _ => EntityPath.child_inj.1
  · intro entry _ w hw
    exact path_of_mem_dueWarnings hw
  · intro entry _
    exact nodup_dueWarnings

end RegisterDecl

/-! ## Register sets -/

namespace RegisterSetDecl

variable {d : RegisterSetDecl}

/-- **The warnings of a register set are those that are due.** A policy that accepts a register set
gives, for each register and each of its fields in declaration order, the warning about other fields of
the register if the field is written as a whole word and there are some, and then the warning about
shared lanes if it is written by lanes and another field has a bit in one of them. This warning names
all such fields in declaration order. No warning is given twice. -/
theorem resolveWith_warnings (policy : Policy) (d : RegisterSetDecl) (resolved : Resolved RegisterSet)
    (h : d.resolveWith policy = .ok resolved) :
    (resolved.warnings = d.registers.flatMap fun r => r.fields.zipIdx.flatMap fun (f, i) =>
        r.dueWarnings ((d.registerPath r).child f.name) f i) ∧
      resolved.warnings.Nodup := by
  have hcheck := (resolveWith_spec h).1
  have hwarnings : resolved.warnings =
      d.registers.flatMap fun r => r.fields.zipIdx.flatMap fun (f, i) =>
        r.dueWarnings ((d.registerPath r).child f.name) f i := by
    rw [warnings_of_resolveWith h]
    refine List.flatMap_congr fun r hr => ?_
    exact RegisterDecl.hazards_eq_flatMap (inside_word_of_check hcheck hr)
  refine ⟨hwarnings, ?_⟩
  rw [hwarnings]
  -- The path of a field goes through its register, so that registers have no warning in common.
  refine nodup_flatMap_of_key (fun w => w.path.segments.dropLast)
    (fun r => (d.registerPath r).segments) ?_ ?_ ?_
  · have hpaths : d.registers.map (fun r => (d.registerPath r).segments) =
        (d.registers.map (·.name)).map fun name => [d.name, name] := by
      rw [List.map_map]
      rfl
    rw [hpaths]
    refine (nodup_registerNames hcheck).map fun _ _ hsame => ?_
    exact (List.cons.inj (List.cons.inj hsame).2).1
  · intro r _ w hw
    obtain ⟨entry, -, hw⟩ := List.mem_flatMap.1 hw
    show w.path.segments.dropLast = (d.registerPath r).segments
    rw [RegisterDecl.path_of_mem_dueWarnings hw]
    exact List.dropLast_concat
  · intro r hr
    exact RegisterDecl.nodup_flatMap_dueWarnings (nodup_fieldNames hcheck hr)

/-- In the second register the first field is in two lanes and asks for both risky writes. The second
field has a bit in its upper lane, the third one is in a lane of its own. -/
def mixer : RegisterSetDecl where
  name := "mixer"
  portSize := 32
  registers := [
    { name := "mute", kind := .write, fields := [
      { name := "all", bits := .bit 0, datatype := .boolean,
        functions := .ofList [.writeMasked, .overwrite] }] },
    { name := "level", kind := .writeRead, fields := [
      { name := "gain", bits := ⟨9, 0⟩, datatype := .signed .bits16,
        functions := .ofList [.writeMasked, .overwrite] },
      { name := "solo", bits := .bit 15, datatype := .boolean },
      { name := "pan", bits := ⟨23, 16⟩, datatype := .unsigned .bits8,
        functions := .singleton .writeMasked }] }]

/-- A field alone in its register is written without a warning, and so is one alone in its lanes. -/
theorem resolveWith_warnings_mixer :
    ∃ resolved, mixer.resolveWith .lenient = .ok resolved ∧
      resolved.warnings =
        [.overwriteMultiField ⟨["mixer", "level", "gain"]⟩ 3,
          .maskedWriteLaneShared ⟨["mixer", "level", "gain"]⟩ 0x3 ["solo"]] := by
  refine ⟨_, rfl, ?_⟩
  obtain ⟨hwarnings, -⟩ := resolveWith_warnings .lenient mixer _ rfl
  rw [hwarnings]
  decide

end RegisterSetDecl

end BusMap
