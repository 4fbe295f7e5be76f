import BusMap.Proofs.Naming.Siblings
import BusMap.Proofs.Register.FieldIsolation
import BusMap.Proofs.Register.Planning

/-!
# Masked writes

A masked write of a field replaces whole byte lanes of a word: every bit of a lane that the field
touches is taken from the encoded value, which has zeros outside the field. The field then reads the
value (`Field.decode_maskedWrite_self`). Another field keeps its value in every word exactly when it
touches none of these lanes (`Field.decode_maskedWrite_iff`).

These are the fields that the warning about shared lanes leaves out
(`RegisterSetDecl.exists_maskedWriteLaneShared_iff`), so that the warning names exactly the fields
that a masked write can change (`RegisterSetDecl.resolveWith_maskedWrite`).
-/

set_option autoImplicit false

namespace BusMap

/-! ## Lanes and their bits -/

/-- The word with ones in the given byte lanes and zeros elsewhere. -/
def laneWord (lanes : Word) : Word :=
  ((List.range 8).filter lanes.getLsbD).foldl
    (fun word lane => word ||| 0xff#64 <<< (8 * lane)) 0

/-- A byte of ones at a lane. -/
theorem getLsbD_byte (lane : Nat) {i : Nat} (hi : i < 64) :
    (0xff#64 <<< (8 * lane)).getLsbD i = decide (i / 8 = lane) := by
  have hbyte : 0xff#64 = BitVec.allOnes 64 >>> 56 := by decide
  rw [hbyte, Bool.eq_iff_iff]
  simp only [BitVec.getLsbD_shiftLeft, BitVec.getLsbD_ushiftRight, BitVec.getLsbD_allOnes,
    Bool.and_eq_true, Bool.not_eq_true', decide_eq_true_eq, decide_eq_false_iff_not]
  omega

theorem getLsbD_laneWord (lanes : Word) {i : Nat} (hi : i < 64) :
    (laneWord lanes).getLsbD i = lanes.getLsbD (i / 8) := by
  have hlane : i / 8 < 8 := by omega
  rw [laneWord, getLsbD_foldl_or, Bool.eq_iff_iff]
  simp [getLsbD_byte _ hi, hlane]

namespace BitRange

theorem covers_lanes {b : BitRange} {i : Nat} (h : b.Covers i) : b.lanes.Covers (i / 8) :=
  ⟨Nat.div_le_div_right h.1, Nat.div_le_div_right h.2⟩

/-- Every lane of a range holds one of its bits. -/
theorem exists_covers_of_lanes {b : BitRange} {lane : Nat} (hle : b.lo ≤ b.hi)
    (h : b.lanes.Covers lane) : ∃ i, b.Covers i ∧ i / 8 = lane := by
  obtain ⟨hlo, hhi⟩ := h
  change b.lo / 8 ≤ lane at hlo
  change lane ≤ b.hi / 8 at hhi
  refine ⟨max b.lo (8 * lane), ⟨by omega, by omega⟩, by omega⟩

theorem getLsbD_laneMask {b : BitRange} (h : b.hi < 64) (lane : Nat) :
    b.laneMask.getLsbD lane = decide (b.lanes.Covers lane) := by
  apply getLsbD_mask
  show b.hi / 8 < 64
  omega

end BitRange

/-- Two fields share a lane exactly when one has a bit in a lane that the other touches. -/
theorem FieldDecl.sharesLane_iff {f g : FieldDecl} (hf : f.bits.hi < 64)
    (hg : g.bits.lo ≤ g.bits.hi ∧ g.bits.hi < 64) :
    f.SharesLane g ↔ ∃ i, g.bits.Covers i ∧ f.bits.lanes.Covers (i / 8) := by
  have hflanes : f.bits.lanes.hi < 64 := Nat.lt_of_le_of_lt (Nat.div_le_self _ 8) hf
  have hglanes : g.bits.lanes.hi < 64 := Nat.lt_of_le_of_lt (Nat.div_le_self _ 8) hg.2
  rw [SharesLane, BitRange.laneMask, BitRange.laneMask, ne_eq,
    BitRange.mask_and_mask_eq_zero_iff hglanes hflanes]
  constructor
  · intro h
    obtain ⟨lane, hlane⟩ := not_forall.1 h
    obtain ⟨hglane, hflane⟩ := Classical.not_imp.1 hlane
    obtain ⟨i, hi, rfl⟩ := BitRange.exists_covers_of_lanes hg.1 hglane
    exact ⟨i, hi, not_not.1 hflane⟩
  · rintro ⟨i, hi, hlane⟩ h
    exact h (i / 8) (BitRange.covers_lanes hi) hlane

/-! ## One masked write -/

namespace Field

variable {f g : Field} {value : Int} {word : Word}

/-- The word with the encoded value in some byte lanes and all other lanes as before. -/
def maskedWrite (f : Field) (lanes word : Word) (value : Int) : Word :=
  (word &&& ~~~laneWord lanes) ||| (f.encode value &&& laneWord lanes)

theorem getLsbD_maskedWrite (lanes : Word) {i : Nat} (hi : i < 64) :
    (f.maskedWrite lanes word value).getLsbD i =
      if lanes.getLsbD (i / 8) then (f.encode value).getLsbD i else word.getLsbD i := by
  rw [maskedWrite, BitVec.getLsbD_or, BitVec.getLsbD_and, BitVec.getLsbD_and, BitVec.getLsbD_not,
    getLsbD_laneWord lanes hi]
  cases lanes.getLsbD (i / 8) with
  | true => simp
  | false => simp [hi]

/-- A field reads the value that was just written to its lanes. -/
theorem decode_maskedWrite_self (h : f.InWord) (hvalue : f.Holds value) :
    f.decode (f.maskedWrite f.laneMask word value) = value := by
  have hbits : f.decode (f.maskedWrite f.laneMask word value) = f.decode (f.encode value) := by
    apply decode_congr h
    intro i hi
    have hword : i < 64 := Nat.lt_of_le_of_lt hi.2 h.2
    have hlane : f.laneMask.getLsbD (i / 8) = true := by
      rw [laneMask, BitRange.getLsbD_laneMask h.2, decide_eq_true (BitRange.covers_lanes hi)]
    rw [getLsbD_maskedWrite _ hword, if_pos hlane]
  rw [hbits, decode_encode h hvalue]

/-- A masked write keeps another field in every word exactly when the two share no lane. Of a shared
lane it clears the bits of the other field, as a word of ones shows. -/
theorem decode_maskedWrite_iff (hf : f.InWord) (hg : g.InWord) (hapart : f.decl.Apart g.decl) :
    (∃ word value, f.Holds value ∧
        g.decode (f.maskedWrite f.laneMask word value) ≠ g.decode word) ↔
      f.decl.SharesLane g.decl := by
  have hlane : ∀ i, f.laneMask.getLsbD (i / 8) = true ↔ f.decl.bits.lanes.Covers (i / 8) := by
    intro i
    rw [laneMask, BitRange.getLsbD_laneMask hf.2, decide_eq_true_eq]
  rw [FieldDecl.sharesLane_iff hf.2 hg]
  constructor
  · rintro ⟨word, value, -, hne⟩
    by_contra hnone
    apply hne
    apply decode_congr hg
    intro i hi
    have hword : i < 64 := Nat.lt_of_le_of_lt hi.2 hg.2
    rw [getLsbD_maskedWrite _ hword, if_neg]
    intro hmask
    exact hnone ⟨i, hi, (hlane i).1 hmask⟩
  · rintro ⟨i, hi, hcovers⟩
    have hword : i < 64 := Nat.lt_of_le_of_lt hi.2 hg.2
    -- Any value of the field will do, and decoding gives one.
    refine ⟨BitVec.allOnes 64, f.decode 0, holds_decode hf 0, ?_⟩
    intro heq
    have hbit := (decode_eq_iff hg).1 heq i hi
    rw [getLsbD_maskedWrite _ hword, if_pos ((hlane i).2 hcovers), getLsbD_encode hf] at hbit
    have hnot : ¬ f.decl.bits.Covers i := fun hfi => hapart i hfi hi
    rw [BitVec.getLsbD_allOnes] at hbit
    simp [hnot, hword] at hbit

end Field

/-! ## The warning about shared lanes -/

namespace FieldDecl

variable {f : FieldDecl} {path : EntityPath} {others : List FieldDecl}

/-- The accessor of a masked write has the lanes of the field, and is there when it is requested. -/
theorem writeMasked_mem_accessors_iff {k : RegisterKind} {lanes : Word} :
    .writeMasked lanes ∈ (f.resolved path k).accessors ↔
      .writeMasked ∈ f.functions ∧ lanes = f.bits.laneMask := by
  have hne : AccessFunction.writeMasked ≠ .readShadow := by decide
  rw [resolved, mem_accessors_iff]
  apply and_congr (wants_iff_of_ne hne)
  constructor
  · intro h
    exact Accessor.writeMasked.inj h
  · rintro rfl
    rfl

/-- A field that requests a masked write has a warning that names the others in its lanes, unless
there are none. -/
theorem maskedWriteLaneShared_mem_hazards_iff {lanes : Word} {shared : List String}
    (h : .writeMasked ∈ f.functions) :
    .maskedWriteLaneShared path lanes shared ∈ f.hazards path others ↔
      lanes = f.bits.laneMask ∧ shared = (others.filter (f.SharesLane ·)).map (·.name) ∧
        shared ≠ [] := by
  rw [hazards, List.mem_filterMap]
  constructor
  · rintro ⟨function, -, hhazard⟩
    cases function with
    | overwrite =>
      obtain ⟨-, hw⟩ := Option.ite_none_left_eq_some.1 hhazard
      cases hw
    | writeMasked =>
      obtain ⟨hsome, hw⟩ := Option.ite_none_left_eq_some.1 hhazard
      cases hw
      exact ⟨rfl, rfl, by simpa using hsome⟩
    | read | readShadow | readModifyWrite | writeShadow | strobe => cases hhazard
  · rintro ⟨rfl, rfl, hsome⟩
    refine ⟨.writeMasked, mem_planned_iff.2 ((wants_iff_of_ne (by decide)).2 h), ?_⟩
    exact if_neg (by simpa using hsome)

end FieldDecl

namespace RegisterSetDecl

variable {policy : Policy} {d : RegisterSetDecl} {resolved : Resolved RegisterSet}

/-- In an accepted register set, the warning about a masked write names another field of the
register exactly when the two share a lane. -/
theorem exists_maskedWriteLaneShared_iff (h : d.resolveWith policy = .ok resolved)
    {r : RegisterDecl} (hr : r ∈ d.registers) {f g : FieldDecl} (hf : f ∈ r.fields)
    (hg : g ∈ r.fields) (hne : g ≠ f) (hmasked : .writeMasked ∈ f.functions) :
    (∃ shared, .maskedWriteLaneShared ((d.registerPath r).child f.name) f.bits.laneMask shared ∈
        resolved.warnings ∧ g.name ∈ shared) ↔ f.SharesLane g := by
  obtain ⟨i, hi⟩ := List.mem_iff_getElem?.1 hf
  have hnames := nodup_fieldNames (resolveWith_spec h).1 hr
  have hother : g ∈ r.fields.eraseIdx i := by
    rw [List.mem_eraseIdx_iff_getElem?]
    obtain ⟨j, hj⟩ := List.mem_iff_getElem?.1 hg
    refine ⟨j, ?_, hj⟩
    rintro rfl
    rw [hi] at hj
    cases hj
    exact hne rfl
  constructor
  · rintro ⟨shared, hwarning, hname⟩
    rw [mem_warnings_iff_mem_hazards h hr hi rfl,
      FieldDecl.maskedWriteLaneShared_mem_hazards_iff hmasked] at hwarning
    obtain ⟨-, rfl, -⟩ := hwarning
    -- The name is that of a field in the list, which is this one.
    obtain ⟨g', hg', hsame⟩ := List.mem_map.1 hname
    obtain ⟨hmem, hshares⟩ := List.mem_filter.1 hg'
    have hmem' : g' ∈ r.fields := List.mem_of_mem_eraseIdx hmem
    obtain rfl := List.inj_on_of_nodup_map hnames hmem' hg hsame
    exact of_decide_eq_true hshares
  · intro hshares
    have hname : g.name ∈
        ((r.fields.eraseIdx i).filter (f.SharesLane ·)).map (·.name) :=
      List.mem_map_of_mem (List.mem_filter.2 ⟨hother, decide_eq_true hshares⟩)
    refine ⟨_, ?_, hname⟩
    rw [mem_warnings_iff_mem_hazards h hr hi rfl,
      FieldDecl.maskedWriteLaneShared_mem_hazards_iff hmasked]
    exact ⟨rfl, rfl, List.ne_nil_of_mem hname⟩

/-- The lanes of a masked write are those of its field. -/
theorem lanes_of_mem_accessors (h : d.resolveWith policy = .ok resolved) {register : Register}
    (hregister : register ∈ resolved.model.registers) {f : Field} (hf : f ∈ register.fields)
    {lanes : Word} (hmasked : .writeMasked lanes ∈ f.accessors) : lanes = f.laneMask := by
  obtain ⟨r, -, address, rfl⟩ := exists_resolved_of_mem h hregister
  obtain ⟨f, -, rfl⟩ := List.mem_map.1 hf
  exact (FieldDecl.writeMasked_mem_accessors_iff.1 hmasked).2

/-- Some masked write of a field changes another one exactly when a warning about the field names
the other one. -/
theorem maskedWrite_changes_iff (h : d.resolveWith policy = .ok resolved) {register : Register}
    (hregister : register ∈ resolved.model.registers) {f g : Field} (hf : f ∈ register.fields)
    (hg : g ∈ register.fields) (hne : g ≠ f) {lanes : Word}
    (hmasked : .writeMasked lanes ∈ f.accessors) :
    (∃ word value, f.Holds value ∧ g.decode (f.maskedWrite lanes word value) ≠ g.decode word) ↔
      ∃ shared, .maskedWriteLaneShared f.path lanes shared ∈ resolved.warnings ∧
        g.name ∈ shared := by
  have hisolated := isolated_of_resolveWith h hregister
  have hchanges := Field.decode_maskedWrite_iff (hisolated.inWord f hf) (hisolated.inWord g hg)
    (hisolated.apart f hf g hg (Ne.symm hne))
  obtain rfl := lanes_of_mem_accessors h hregister hf hmasked
  rw [hchanges]
  -- The two fields are declared ones, and differ in their declarations already.
  obtain ⟨r, hr, address, rfl⟩ := exists_resolved_of_mem h hregister
  obtain ⟨f, hf', rfl⟩ := List.mem_map.1 hf
  obtain ⟨g, hg', rfl⟩ := List.mem_map.1 hg
  have hdecl : g ≠ f := by
    rintro rfl
    exact hne rfl
  have hfunction := (FieldDecl.writeMasked_mem_accessors_iff.1 hmasked).1
  exact (exists_maskedWriteLaneShared_iff h hr hf' hg' hdecl hfunction).symm

/-- **Masked writes disturb exactly the fields that the warning names.** In every register of an
accepted register set, a masked write of a field leaves it with the value written, and some masked
write of it changes another field of the register exactly when a warning about the field names the
other one. Where the policy makes this warning fatal, no masked write changes another field. -/
theorem resolveWith_maskedWrite (policy : Policy) (d : RegisterSetDecl)
    (resolved : Resolved RegisterSet) (h : d.resolveWith policy = .ok resolved)
    (register : Register) (hregister : register ∈ resolved.model.registers) (f : Field)
    (hf : f ∈ register.fields) (lanes : Word) (hmasked : .writeMasked lanes ∈ f.accessors) :
    (∀ word value, f.Holds value → f.decode (f.maskedWrite lanes word value) = value) ∧
    (∀ g ∈ register.fields, g ≠ f →
      ((∃ word value, f.Holds value ∧ g.decode (f.maskedWrite lanes word value) ≠ g.decode word) ↔
        ∃ shared, .maskedWriteLaneShared f.path lanes shared ∈ resolved.warnings ∧
          g.name ∈ shared)) ∧
    (policy.strictMaskedWrite = true → ∀ g ∈ register.fields, g ≠ f → ∀ word value,
      f.Holds value → g.decode (f.maskedWrite lanes word value) = g.decode word) := by
  refine ⟨?_, ?_, ?_⟩
  · intro word value hvalue
    rw [lanes_of_mem_accessors h hregister hf hmasked]
    exact Field.decode_maskedWrite_self ((isolated_of_resolveWith h hregister).inWord f hf) hvalue
  · intro g hg hne
    exact maskedWrite_changes_iff h hregister hf hg hne hmasked
  · intro hstrict g hg hne word value hvalue
    by_contra hchanged
    -- A changed field is named by a warning, which the policy would have refused.
    obtain ⟨shared, hwarning, -⟩ := (maskedWrite_changes_iff h hregister hf hg hne hmasked).1
      ⟨word, value, hvalue, hchanged⟩
    obtain ⟨-, hwarnings, hharmless⟩ := Diagnosed.enforce_eq_ok_iff.1 h
    rw [hwarnings] at hwarning
    have hlenient : policy.strictMaskedWrite = false := hharmless _ hwarning
    rw [hstrict] at hlenient
    cases hlenient

/-- A field over two lanes, between a field in the lower one and a field in a lane of its own. -/
def straddling : RegisterSetDecl where
  name := "regs"
  portSize := 32
  registers := [{
    name := "control"
    kind := .writeRead
    fields := [
      { name := "low", bits := ⟨3, 0⟩, datatype := .unsigned .bits8 },
      { name := "gain", bits := ⟨11, 4⟩, datatype := .signed .bits8,
        functions := .singleton .writeMasked },
      { name := "high", bits := ⟨31, 16⟩, datatype := .unsigned .bits16 }] }]

/-- The field in the lower lane is named and changed, the one in its own lane is neither. -/
theorem resolveWith_maskedWrite_straddling :
    ∃ resolved register low gain high, straddling.resolveWith .lenient = .ok resolved ∧
      register ∈ resolved.model.registers ∧ register.fields = [low, gain, high] ∧
      .writeMasked 0x3 ∈ gain.accessors ∧
      (∀ word, gain.decode (gain.maskedWrite 0x3 word (-5)) = -5) ∧
      (∃ word value, gain.Holds value ∧
        low.decode (gain.maskedWrite 0x3 word value) ≠ low.decode word) ∧
      ¬ ∃ word value, gain.Holds value ∧
        high.decode (gain.maskedWrite 0x3 word value) ≠ high.decode word := by
  refine ⟨_, _, _, _, _, rfl, List.mem_cons_self, rfl, List.mem_cons_self, ?_⟩
  obtain ⟨hself, hothers, -⟩ := resolveWith_maskedWrite .lenient straddling _ rfl _
    List.mem_cons_self _ (List.mem_cons_of_mem _ List.mem_cons_self) 0x3 List.mem_cons_self
  refine ⟨?_, ?_, ?_⟩
  · intro word
    exact hself word (-5) (by decide)
  · refine (hothers _ List.mem_cons_self (by decide)).2 ⟨["low"], List.mem_cons_self, ?_⟩
    exact List.mem_cons_self
  · rw [hothers _ (by decide) (by decide)]
    rintro ⟨shared, hwarning, hname⟩
    cases List.mem_singleton.1 hwarning
    revert hname
    decide

end RegisterSetDecl

end BusMap
