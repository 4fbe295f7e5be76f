import Mathlib.Algebra.Ring.Int.Defs
import BusMap.Proofs.Naming.Siblings
import BusMap.Register.Legality

/-!
# What the legality check accepts

A field is legal in a register when its range lies inside the register, its width suits its
datatype and its default is one of its values. The check of a register accepts exactly legal fields
that are pairwise apart (`RegisterDecl.check_eq_ok_iff`), where two fields are apart when they share
no bit position; the masks that the check compares do not appear in the statement.

`RegisterSetDecl.Legal` says of a whole set what it has to be, with names, widths and values only, and
`RegisterSetDecl.check_eq_ok_iff_legal` says that the check accepts exactly these sets.

No check faults (`RegisterSetDecl.neverFaults_check`). A width and a mask are computed only after
the checks before them have put the range inside the word.
-/

set_option autoImplicit false

namespace BusMap

/-! ## Values -/

namespace Datatype

/-- An integer that a field of `width` bits can hold: in two's complement for a signed datatype, a
natural number for every other one. -/
def IsValue : Datatype → Nat → Int → Prop
  | signed _, width, value => -2 ^ (width - 1) ≤ value ∧ value ≤ 2 ^ (width - 1) - 1
  | unsigned _, width, value | boolean, width, value | strobe, width, value =>
    0 ≤ value ∧ value ≤ 2 ^ width - 1

/-- The datatypes with negative values are those that count as signed. -/
theorem isValue_iff_isSigned {t : Datatype} {width : Nat} {value : Int} :
    t.IsValue width value ↔
      if t.isSigned then -2 ^ (width - 1) ≤ value ∧ value ≤ 2 ^ (width - 1) - 1
      else 0 ≤ value ∧ value ≤ 2 ^ width - 1 := by
  cases t with
  | signed size => exact Iff.rfl
  | unsigned size => exact Iff.rfl
  | boolean => exact Iff.rfl
  | strobe => exact Iff.rfl

/-- The least and the greatest value at a width that needs no clamping. -/
theorem isValue_iff {t : Datatype} {width : Nat} {value : Int} (hpos : 1 ≤ width)
    (hword : width ≤ 64) :
    t.IsValue width value ↔ (t.valueRange width).1 ≤ value ∧ value ≤ (t.valueRange width).2 := by
  -- The range is that of the nearest width of a word, which is the width itself here.
  have hclamped : min (max width 1) 64 = width := by omega
  rw [isValue_iff_isSigned, valueRange, hclamped]
  cases t.isSigned with
  | true => simp [Nat.one_shiftLeft]
  | false => simp [Nat.one_shiftLeft]

end Datatype

/-! ## Fields -/

namespace FieldDecl

/-- A field that a register of `portSize` bits can have. -/
structure Legal (portSize : Nat) (f : FieldDecl) : Prop where
  ordered : f.bits.lo ≤ f.bits.hi
  inside : f.bits.hi < portSize
  flag_width : f.datatype.isFlag = true → f.bits.width = 1
  fits_datatype : f.bits.width ≤ f.datatype.bits
  min_le_default : (f.datatype.valueRange f.bits.width).1 ≤ f.default
  default_le_max : f.default ≤ (f.datatype.valueRange f.bits.width).2

/-- The two fields share no bit position. -/
def Apart (f g : FieldDecl) : Prop := ∀ i, f.bits.Covers i → ¬ g.bits.Covers i

theorem Apart.symm {f g : FieldDecl} (h : f.Apart g) : g.Apart f :=
  fun i hg hf => h i hf hg

variable {path : EntityPath} {portSize width : Nat} {f g : FieldDecl} {range : Int × Int}

theorem checkBits_eq_ok_iff :
    f.checkBits path portSize = .ok () ↔ f.bits.lo ≤ f.bits.hi ∧ f.bits.hi < portSize := by
  unfold checkBits
  by_cases hordered : f.bits.hi < f.bits.lo
  · rw [if_pos hordered]
    simp only [reduceCtorEq, false_iff]
    omega
  · rw [if_neg hordered]
    by_cases hinside : portSize ≤ f.bits.hi
    · rw [if_pos hinside]
      simp only [reduceCtorEq, false_iff]
      omega
    · rw [if_neg hinside]
      simp only [true_iff]
      omega

theorem checkWidth_eq_ok_iff :
    f.checkWidth path width = .ok () ↔
      (f.datatype.isFlag = true → width = 1) ∧ width ≤ f.datatype.bits := by
  unfold checkWidth
  by_cases hflag : f.datatype.isFlag ∧ width ≠ 1
  · rw [if_pos hflag]
    simp only [reduceCtorEq, false_iff]
    rintro ⟨h, -⟩
    exact hflag.2 (h hflag.1)
  · rw [if_neg hflag]
    have hone : f.datatype.isFlag = true → width = 1 := by
      intro h
      by_contra hne
      exact hflag ⟨h, hne⟩
    by_cases hwide : f.datatype.bits < width
    · rw [if_pos hwide]
      simp only [reduceCtorEq, false_iff]
      omega
    · rw [if_neg hwide]
      simp only [true_iff]
      exact ⟨hone, Nat.not_lt.1 hwide⟩

theorem checkDefault_eq_ok_iff :
    f.checkDefault path range = .ok () ↔ range.1 ≤ f.default ∧ f.default ≤ range.2 := by
  unfold checkDefault
  by_cases hout : f.default < range.1 ∨ range.2 < f.default
  · rw [if_pos hout]
    simp only [reduceCtorEq, false_iff]
    omega
  · rw [if_neg hout]
    simp only [true_iff]
    omega

theorem Legal.inside_word (h : f.Legal portSize) (hport : portSize ≤ 64) : f.bits.hi < 64 :=
  Nat.lt_of_lt_of_le h.inside hport

theorem legal_iff (hport : portSize ≤ 64) :
    f.Legal portSize ↔
      (f.bits.lo ≤ f.bits.hi ∧ f.bits.hi < portSize) ∧
        (f.datatype.isFlag = true → f.bits.width = 1) ∧ f.bits.width ≤ f.datatype.bits ∧
          f.datatype.IsValue f.bits.width f.default := by
  -- A range inside the word has between 1 and 64 bits.
  have hvalue : f.bits.lo ≤ f.bits.hi → f.bits.hi < portSize →
      (f.datatype.IsValue f.bits.width f.default ↔
        (f.datatype.valueRange f.bits.width).1 ≤ f.default ∧
          f.default ≤ (f.datatype.valueRange f.bits.width).2) := by
    intro hordered hinside
    apply Datatype.isValue_iff (BitRange.width_pos hordered)
    rw [BitRange.width]
    omega
  constructor
  · intro h
    exact ⟨⟨h.ordered, h.inside⟩, h.flag_width, h.fits_datatype,
      (hvalue h.ordered h.inside).2 ⟨h.min_le_default, h.default_le_max⟩⟩
  · rintro ⟨⟨hordered, hinside⟩, hflag, hfits, hdefault⟩
    rcases (hvalue hordered hinside).1 hdefault with ⟨hmin, hmax⟩
    exact ⟨hordered, hinside, hflag, hfits, hmin, hmax⟩

/-- The check of a field accepts exactly the legal ones. -/
theorem check_eq_ok_iff (hport : portSize ≤ 64) :
    f.check path portSize = .ok () ↔ f.Legal portSize := by
  rw [check, then_eq_ok_iff, mapError_eq_ok_iff, checkBits_eq_ok_iff]
  constructor
  · rintro ⟨⟨hordered, hinside⟩, h⟩
    rw [BitRange.checkedWidth_of_le hordered (Nat.lt_of_lt_of_le hinside hport), mapError_ok,
      ok_bind, then_eq_ok_iff, mapError_eq_ok_iff, checkWidth_eq_ok_iff,
      Datatype.checkedValueRange_eq, mapError_ok, ok_bind, mapError_eq_ok_iff,
      checkDefault_eq_ok_iff] at h
    obtain ⟨⟨hflag, hfits⟩, hmin, hmax⟩ := h
    exact ⟨hordered, hinside, hflag, hfits, hmin, hmax⟩
  · intro h
    refine ⟨⟨h.ordered, h.inside⟩, ?_⟩
    rw [BitRange.checkedWidth_of_le h.ordered (h.inside_word hport), mapError_ok, ok_bind,
      then_eq_ok_iff, mapError_eq_ok_iff, checkWidth_eq_ok_iff, Datatype.checkedValueRange_eq,
      mapError_ok, ok_bind, mapError_eq_ok_iff, checkDefault_eq_ok_iff]
    exact ⟨⟨h.flag_width, h.fits_datatype⟩, h.min_le_default, h.default_le_max⟩

/-- The check of a field does not fault: the width is computed for a range inside the word, and the
least and greatest value are field values. -/
theorem neverFaults_check (hport : portSize ≤ 64) : NeverFaults (f.check path portSize) := by
  rw [check]
  apply (neverFaults_structural _).bind
  intro _ hbits
  obtain ⟨hordered, hinside⟩ := checkBits_eq_ok_iff.1 (mapError_eq_ok_iff.1 hbits)
  rw [BitRange.checkedWidth_of_le hordered (Nat.lt_of_lt_of_le hinside hport), mapError_ok, ok_bind]
  apply (neverFaults_structural _).bind
  intro _ _
  rw [Datatype.checkedValueRange_eq, mapError_ok, ok_bind]
  exact neverFaults_structural _

/-- Two fields inside the word are found apart exactly when they are. -/
theorem checkApart_eq_ok_iff (hf : f.Legal portSize) (hg : g.Legal portSize)
    (hport : portSize ≤ 64) : f.checkApart path g = .ok () ↔ f.Apart g := by
  have hfhi := hf.inside_word hport
  have hghi := hg.inside_word hport
  have hshared : f.sharedBits g = .ok (f.bits.mask &&& g.bits.mask) := by
    rw [sharedBits, BitRange.checkedMask_of_le hf.ordered hfhi,
      BitRange.checkedMask_of_le hg.ordered hghi]
    rfl
  rw [checkApart, hshared, mapError_ok, ok_bind, Apart,
    ← BitRange.mask_and_mask_eq_zero_iff hfhi hghi]
  by_cases hzero : f.bits.mask &&& g.bits.mask = 0
  · rw [if_pos hzero]
    exact iff_of_true rfl hzero
  · rw [if_neg hzero]
    exact iff_of_false (fun h => by cases h) hzero

theorem neverFaults_checkApart (hf : f.Legal portSize) (hg : g.Legal portSize)
    (hport : portSize ≤ 64) : NeverFaults (f.checkApart path g) := by
  rw [checkApart, sharedBits, BitRange.checkedMask_of_le hf.ordered (hf.inside_word hport),
    BitRange.checkedMask_of_le hg.ordered (hg.inside_word hport)]
  apply (neverFaults_ok _).bind
  intro shared _
  by_cases hzero : shared = 0
  · rw [if_pos hzero]
    exact neverFaults_ok _
  · rw [if_neg hzero]
    exact neverFaults_error _

end FieldDecl

/-! ## Registers -/

section Disjoint

variable {path : EntityPath} {portSize : Nat}

/-- The loop over all pairs sees every pair. -/
theorem checkDisjoint_eq_ok_iff {fs : List FieldDecl} (h : ∀ f ∈ fs, f.Legal portSize)
    (hport : portSize ≤ 64) : checkDisjoint path fs = .ok () ↔ fs.Pairwise FieldDecl.Apart := by
  induction fs with
  | nil =>
    constructor
    · intro _
      exact List.Pairwise.nil
    · intro _
      rfl
  | cons f fs ih =>
    obtain ⟨hf, hfs⟩ := List.forall_mem_cons.1 h
    -- The inner loop compares the head with the tail, the recursion compares the tail with itself.
    have hloop : fs.forM (f.checkApart path) = .ok () ↔ ∀ g ∈ fs, f.Apart g := by
      rw [forM_eq_ok_iff]
      apply forall₂_congr
      intro g hg
      exact FieldDecl.checkApart_eq_ok_iff hf (hfs g hg) hport
    rw [checkDisjoint, then_eq_ok_iff, List.pairwise_cons, ← hloop, ← ih hfs]

theorem neverFaults_checkDisjoint {fs : List FieldDecl} (h : ∀ f ∈ fs, f.Legal portSize)
    (hport : portSize ≤ 64) : NeverFaults (checkDisjoint path fs) := by
  induction fs with
  | nil => exact neverFaults_ok _
  | cons f fs ih =>
    obtain ⟨hf, hfs⟩ := List.forall_mem_cons.1 h
    apply NeverFaults.bind
    · apply NeverFaults.forM
      intro g hg
      exact FieldDecl.neverFaults_checkApart hf (hfs g hg) hport
    · intro _ _
      exact ih hfs

end Disjoint

namespace RegisterDecl

variable {path : EntityPath} {portSize : Nat} {r : RegisterDecl}

/-- The check of a register accepts usable field names and legal fields that are pairwise apart. -/
theorem check_eq_ok_iff (hport : portSize ≤ 64) :
    r.check path portSize = .ok () ↔
      checkSiblings path .field (r.fields.map (·.name)) = .ok () ∧
        (∀ f ∈ r.fields, f.Legal portSize) ∧ r.fields.Pairwise FieldDecl.Apart := by
  have hfields : (r.fields.forM fun f => f.check (path.child f.name) portSize) = .ok () ↔
      ∀ f ∈ r.fields, f.Legal portSize := by
    rw [forM_eq_ok_iff]
    apply forall₂_congr
    intro f _
    exact FieldDecl.check_eq_ok_iff hport
  rw [check, then_eq_ok_iff, mapError_eq_ok_iff, then_eq_ok_iff, hfields]
  -- The pairs are compared by their masks, which say what they should for legal fields only.
  apply and_congr_right
  intro _
  apply and_congr_right
  intro hlegal
  exact checkDisjoint_eq_ok_iff hlegal hport

theorem neverFaults_check (hport : portSize ≤ 64) : NeverFaults (r.check path portSize) := by
  rw [check]
  apply (neverFaults_structural _).bind
  intro _ _
  apply NeverFaults.bind
  · apply NeverFaults.forM
    intro f _
    exact FieldDecl.neverFaults_check hport
  · intro _ hfields
    have hlegal : ∀ f ∈ r.fields, f.Legal portSize := by
      intro f hf
      exact (FieldDecl.check_eq_ok_iff hport).1 (forM_eq_ok_iff.1 hfields f hf)
    exact neverFaults_checkDisjoint hlegal hport

end RegisterDecl

/-! ## Register sets -/

theorem checkPortSize_eq_ok_iff {path : EntityPath} {portSize : Nat} :
    checkPortSize path portSize = .ok () ↔ IsPortSize portSize := by
  unfold checkPortSize
  split <;> simp [*]

namespace RegisterSetDecl

variable {d : RegisterSetDecl}

/-- The check of a register set accepts usable names, a port size and registers that it accepts. -/
theorem check_eq_ok_iff :
    d.check = .ok () ↔
      checkName d.path = .ok () ∧ IsPortSize d.portSize ∧
        checkSiblings d.path .register (d.registers.map (·.name)) = .ok () ∧
          ∀ r ∈ d.registers, r.check (d.registerPath r) d.portSize = .ok () := by
  rw [check, then_eq_ok_iff, mapError_eq_ok_iff, then_eq_ok_iff, mapError_eq_ok_iff,
    checkPortSize_eq_ok_iff, then_eq_ok_iff, mapError_eq_ok_iff, forM_eq_ok_iff]

theorem neverFaults_check : NeverFaults d.check := by
  rw [check]
  apply (neverFaults_structural _).bind
  intro _ _
  apply (neverFaults_structural _).bind
  intro _ hport
  have hport := checkPortSize_eq_ok_iff.1 (mapError_eq_ok_iff.1 hport)
  apply (neverFaults_structural _).bind
  intro _ _
  apply NeverFaults.forM
  intro r _
  exact RegisterDecl.neverFaults_check hport.le_word

theorem isPortSize_of_check (h : d.check = .ok ()) : IsPortSize d.portSize :=
  (check_eq_ok_iff.1 h).2.1

/-- The fields of every register of a legal set are legal. -/
theorem legal_of_check (h : d.check = .ok ()) {r : RegisterDecl} (hr : r ∈ d.registers) :
    ∀ f ∈ r.fields, f.Legal d.portSize := by
  obtain ⟨-, hport, -, hregisters⟩ := check_eq_ok_iff.1 h
  exact ((RegisterDecl.check_eq_ok_iff hport.le_word).1 (hregisters r hr)).2.1

theorem inside_word_of_check (h : d.check = .ok ()) {r : RegisterDecl} (hr : r ∈ d.registers) :
    ∀ f ∈ r.fields, f.bits.lo ≤ f.bits.hi ∧ f.bits.hi < 64 := by
  intro f hf
  have hlegal := legal_of_check h hr f hf
  exact ⟨hlegal.ordered, hlegal.inside_word (isPortSize_of_check h).le_word⟩

/-- The fields of every register of a legal set are pairwise apart. -/
theorem apart_of_check (h : d.check = .ok ()) {r : RegisterDecl} (hr : r ∈ d.registers) :
    r.fields.Pairwise FieldDecl.Apart := by
  obtain ⟨-, hport, -, hregisters⟩ := check_eq_ok_iff.1 h
  exact ((RegisterDecl.check_eq_ok_iff hport.le_word).1 (hregisters r hr)).2.2

end RegisterSetDecl

/-! ## Legal declarations -/

theorem Datatype.isFlag_iff {t : Datatype} : t.isFlag = true ↔ t = .boolean ∨ t = .strobe := by
  cases t <;> simp [isFlag]

/-- A register that a set of registers of `portSize` bits can have. -/
structure RegisterDecl.Legal (portSize : Nat) (r : RegisterDecl) : Prop where
  field_names : SiblingNames (r.fields.map (·.name))
  inside : ∀ f ∈ r.fields, f.bits.lo ≤ f.bits.hi ∧ f.bits.hi < portSize
  flag_width : ∀ f ∈ r.fields, f.datatype = .boolean ∨ f.datatype = .strobe → f.bits.width = 1
  fits_datatype : ∀ f ∈ r.fields, f.bits.width ≤ f.datatype.bits
  default_value : ∀ f ∈ r.fields, f.datatype.IsValue f.bits.width f.default
  apart : r.fields.Pairwise FieldDecl.Apart

theorem RegisterDecl.check_iff_legal {path : EntityPath} {portSize : Nat} {r : RegisterDecl}
    (hport : portSize ≤ 64) : r.check path portSize = .ok () ↔ r.Legal portSize := by
  rw [check_eq_ok_iff hport, checkSiblings_eq_ok_iff_siblingNames]
  simp only [FieldDecl.legal_iff hport, Datatype.isFlag_iff, forall_and]
  constructor
  · rintro ⟨hnames, ⟨⟨hordered, hinside⟩, hflag, hfits, hdefault⟩, hapart⟩
    exact ⟨hnames, fun f hf => ⟨hordered f hf, hinside f hf⟩, hflag, hfits, hdefault, hapart⟩
  · intro h
    have hordered := fun f hf => (h.inside f hf).1
    have hinside := fun f hf => (h.inside f hf).2
    exact ⟨h.field_names, ⟨⟨hordered, hinside⟩, h.flag_width, h.fits_datatype, h.default_value⟩,
      h.apart⟩

/-- A register set that can be declared. -/
structure RegisterSetDecl.Legal (d : RegisterSetDecl) : Prop where
  name_usable : nameFlaw? d.name = none
  port_size : d.portSize = 8 ∨ d.portSize = 16 ∨ d.portSize = 32 ∨ d.portSize = 64
  register_names : SiblingNames (d.registers.map (·.name))
  registers : ∀ r ∈ d.registers, r.Legal d.portSize

/-- **The check accepts exactly the legal register sets.** -/
theorem RegisterSetDecl.check_eq_ok_iff_legal (d : RegisterSetDecl) :
    d.check = .ok () ↔ d.Legal := by
  rw [check_eq_ok_iff, checkName_eq_ok_iff, checkSiblings_eq_ok_iff_siblingNames]
  constructor
  · rintro ⟨hname, hport, hnames, hregisters⟩
    refine ⟨hname, isPortSize_iff.1 hport, hnames, ?_⟩
    intro r hr
    exact (RegisterDecl.check_iff_legal hport.le_word).1 (hregisters r hr)
  · intro h
    have hport : IsPortSize d.portSize := isPortSize_iff.2 h.port_size
    refine ⟨h.name_usable, hport, h.register_names, ?_⟩
    intro r hr
    exact (RegisterDecl.check_iff_legal hport.le_word).2 (h.registers r hr)

end BusMap
