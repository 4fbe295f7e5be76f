import BusMap.Proofs.Register.AddressBits
import BusMap.Proofs.Register.Faults
import BusMap.Proofs.Register.FieldIsolation
import BusMap.Proofs.Register.Trace

/-!
# Faults of a walk

A walk computes with machine words: absolute and word addresses, and the masks, widths, patterns and
reset words that it tells. `RegisterSet.checkedWalk` is the walk with every such number taken from an
operation that can fault. On a resolved set it is the walk itself
(`RegisterSetDecl.checkedWalk_of_resolveWith`), so that none of these operations faults.

What is left is the number of bytes that an error reports. A walk fails at the first register that the
base lifts past the limit, and the number of bytes up to the end of this register does not exist when
it ends at the very last offset (`RegisterSetDecl.walk_faults`).
-/

set_option autoImplicit false

namespace BusMap

/-! ## Checked operations -/

/-- Shifts a word address by an amount that a machine word can be shifted by. -/
def checkedShiftWord (word : Nat) (shift : Int) : Except Fault Nat := do
  let amount ← Machine.shiftAmount (min shift.natAbs longestShift)
  return if 0 ≤ shift then word >>> amount else (word <<< amount) % wordLimit

theorem checkedShiftWord_eq (word : Nat) (shift : Int) :
    checkedShiftWord word shift = .ok (shiftWord word shift) := by
  have hamount : min shift.natAbs longestShift < wordBits :=
    Nat.lt_of_le_of_lt (Nat.min_le_right _ _) (by decide)
  rw [checkedShiftWord, Machine.shiftAmount_of_lt hamount]
  rfl

namespace Field

variable {f : Field}

/-- Mask of the value, from the bits that are missing to a full word. -/
def checkedValueMask (f : Field) : Except Fault Word := do
  let width ← f.decl.bits.checkedWidth
  let missing ← Machine.sub wordBits width
  let amount ← Machine.shiftAmount missing
  return BitVec.allOnes 64 >>> amount

/-- Bits of the default, moved to the place of the field. -/
def checkedDefault (f : Field) : Except Fault Word := do
  let valueMask ← f.checkedValueMask
  let amount ← Machine.shiftAmount f.offset
  return (BitVec.ofInt 64 f.decl.default &&& valueMask) <<< amount

/-- What is told of the field. -/
def checkedInfo (f : Field) : Except Fault FieldInfo := do
  let width ← f.decl.bits.checkedWidth
  let bitmask ← f.decl.bits.checkedMask
  let laneMask ← f.decl.bits.checkedLaneMask
  let valueMask ← f.checkedValueMask
  return { f.info with
    width := width
    bitmask := bitmask
    laneMask := laneMask
    defaultPattern := BitVec.ofInt 64 f.decl.default &&& valueMask }

/-- Events of the field. -/
def checkedEvents (f : Field) : Except Fault (List WalkEvent) := do
  let info ← f.checkedInfo
  return .beginField info :: f.accessors.map .access ++ [.endField]

theorem InWord.checkedValueMask_eq (h : f.InWord) : f.checkedValueMask = .ok f.valueMask := by
  have hpos : 1 ≤ f.decl.bits.width := h.width_pos
  have hwidth : f.decl.bits.width ≤ wordBits := h.width_le
  have hmissing : wordBits - f.decl.bits.width < wordBits := by omega
  rw [checkedValueMask, BitRange.checkedWidth_of_le h.1 h.2, ok_bind, Machine.sub_of_le hwidth,
    ok_bind, Machine.shiftAmount_of_lt hmissing]
  rfl

theorem InWord.checkedDefault_eq (h : f.InWord) :
    f.checkedDefault = .ok (f.encode f.decl.default) := by
  have hoffset : f.offset < wordBits := Nat.lt_of_le_of_lt h.1 h.2
  rw [checkedDefault, h.checkedValueMask_eq, ok_bind, Machine.shiftAmount_of_lt hoffset]
  rfl

theorem InWord.checkedInfo_eq (h : f.InWord) : f.checkedInfo = .ok f.info := by
  rw [checkedInfo, BitRange.checkedWidth_of_le h.1 h.2, ok_bind, BitRange.checkedMask_of_le h.1 h.2,
    ok_bind, BitRange.checkedLaneMask_of_lt h.2, ok_bind, h.checkedValueMask_eq]
  rfl

theorem InWord.checkedEvents_eq (h : f.InWord) : f.checkedEvents = .ok f.events := by
  rw [checkedEvents, h.checkedInfo_eq]
  rfl

end Field

namespace Register

/-- The word with every field at its default. -/
def checkedResetValue (r : Register) : Except Fault Word :=
  r.fields.foldlM (fun word f => do return word ||| (← f.checkedDefault)) 0

/-- Events of the register at an address. -/
def checkedEvents (r : Register) (absoluteAddress wordAddress : Nat) :
    Except Fault (List WalkEvent) := do
  let resetValue ← r.checkedResetValue
  let events ← r.fields.mapM Field.checkedEvents
  return .beginRegister { r.info absoluteAddress wordAddress with resetValue := resetValue } ::
    events.flatten ++ [.endRegister]

variable {r : Register}

theorem checkedResetValue_eq (h : ∀ f ∈ r.fields, f.InWord) :
    r.checkedResetValue = .ok r.resetValue := by
  rw [checkedResetValue, resetValue]
  -- Each default is put into the word that the fields before it have left.
  generalize (0 : Word) = word
  generalize r.fields = fields at h ⊢
  induction fields generalizing word with
  | nil => rfl
  | cons f fields ih =>
    obtain ⟨hf, hfields⟩ := List.forall_mem_cons.1 h
    rw [List.foldlM_cons, hf.checkedDefault_eq, List.foldl_cons, ← ih _ hfields]
    rfl

theorem checkedEvents_eq (h : ∀ f ∈ r.fields, f.InWord) (absoluteAddress wordAddress : Nat) :
    r.checkedEvents absoluteAddress wordAddress = .ok (r.events absoluteAddress wordAddress) := by
  have hfields : r.fields.mapM Field.checkedEvents = .ok (r.fields.map Field.events) :=
    (mapM_congr_of_mem fun f hf => (h f hf).checkedEvents_eq).trans List.mapM_pure
  rw [checkedEvents, checkedResetValue_eq h, ok_bind, hfields, events, List.flatMap_def]
  rfl

end Register

namespace RegisterSet

/-- Word address of a register at an absolute address. -/
def checkedWordAddress (s : RegisterSet) (options : WalkOptions) (absoluteAddress : Nat) :
    Except Fault Nat := do
  let amount ← Machine.shiftAmount s.alignmentBits
  checkedShiftWord (absoluteAddress >>> amount) options.addressShift

/-- Events of a register at the base plus its offset. -/
def checkedBlock (s : RegisterSet) (options : WalkOptions) (r : Register) :
    Except Failure (List WalkEvent) := do
  let absolute ← s.addressAt (s.walkBase options) r
  let word ← (s.checkedWordAddress options absolute).mapError Failure.fault
  (r.checkedEvents absolute word).mapError Failure.fault

/-- Events of the registers, up to the first without a block. -/
def checkedRegisters (s : RegisterSet) (options : WalkOptions) : List Register → Walk
  | [] => ⟨[], .ok ()⟩
  | r :: rs =>
    match s.checkedBlock options r with
    | .error cause => ⟨[], .error cause⟩
    | .ok block =>
      let rest := checkedRegisters s options rs
      ⟨block ++ rest.events, rest.outcome⟩

/-- All events of the set. -/
def checkedWalk (s : RegisterSet) (options : WalkOptions) : Walk :=
  let registers := s.checkedRegisters options s.registers
  match registers.outcome with
  | .error cause => ⟨.beginSet (s.info options) :: registers.events, .error cause⟩
  | .ok () => ⟨.beginSet (s.info options) :: registers.events ++ s.closingEvents, .ok ()⟩

variable {s : RegisterSet} {options : WalkOptions} {rs : List Register}

theorem checkedWordAddress_eq (h : s.alignmentBits < wordBits) (absoluteAddress : Nat) :
    s.checkedWordAddress options absoluteAddress = .ok (s.wordAddress options absoluteAddress) := by
  rw [checkedWordAddress, Machine.shiftAmount_of_lt h]
  exact checkedShiftWord_eq _ _

/-- A register with an address has a block. -/
theorem checkedBlock_eq (h : s.alignmentBits < wordBits) {r : Register}
    (hr : ∀ f ∈ r.fields, f.InWord) :
    s.checkedBlock options r = (s.addressAt (s.walkBase options) r).map fun absolute =>
      r.events absolute (s.wordAddress options absolute) := by
  rw [checkedBlock]
  cases s.addressAt (s.walkBase options) r with
  | error cause => rfl
  | ok absolute =>
    rw [ok_bind, checkedWordAddress_eq h, mapError_ok, ok_bind, Register.checkedEvents_eq hr]
    rfl

theorem checkedRegisters_eq (h : s.alignmentBits < wordBits)
    (hrs : ∀ r ∈ rs, ∀ f ∈ r.fields, f.InWord) :
    s.checkedRegisters options rs = s.walkRegisters options rs := by
  induction rs with
  | nil => rfl
  | cons r rs ih =>
    -- Both stop at a register without an address, and this is decided by the same function.
    obtain ⟨hr, hrs⟩ := List.forall_mem_cons.1 hrs
    rw [checkedRegisters, walkRegisters, checkedBlock_eq h hr, ih hrs]
    cases s.addressAt (s.walkBase options) r with
    | error cause => rfl
    | ok absolute => rfl

/-- A walk whose fields lie in their words takes no number from an operation that faults. -/
theorem checkedWalk_eq (h : s.alignmentBits < wordBits)
    (hregisters : ∀ r ∈ s.registers, ∀ f ∈ r.fields, f.InWord) :
    s.checkedWalk options = s.walk options := by
  rw [checkedWalk, checkedRegisters_eq h hregisters]
  rfl

/-! ## The end of a walk -/

/-- A walk ends with an error at the first register that the base lifts past the limit. -/
theorem outcome_walk_eq :
    (s.walk options).outcome =
      match s.registers.find? (!s.fits options ·) with
      | none => .ok ()
      | some r =>
        .error (overflowBeyond r.path (s.walkBase options) r.address.relative s.stride) := by
  cases hfind : s.registers.find? (!s.fits options ·) with
  | none =>
    rw [List.find?_eq_none] at hfind
    refine outcome_walk_eq_ok_iff.2 fun r hr => fits_iff.1 ?_
    simpa using hfind r hr
  | some r =>
    obtain ⟨hr, before, after, hsplit, hbefore⟩ := List.find?_eq_some_iff_append.1 hfind
    have hlifted : ¬ s.fits options r := by simpa using hr
    rw [walk_of_le hsplit (fun q hq => fits_iff.1 (by simpa using hbefore q hq))
      (Nat.not_lt.1 (mt fits_iff.2 hlifted))]

end RegisterSet

namespace RegisterSetDecl

variable {policy : Policy} {d : RegisterSetDecl} {resolved : Resolved RegisterSet}

/-- On a resolved set no operation of a walk faults. -/
theorem checkedWalk_of_resolveWith (h : d.resolveWith policy = .ok resolved)
    (options : WalkOptions) :
    resolved.model.checkedWalk options = resolved.model.walk options :=
  RegisterSet.checkedWalk_eq (alignmentBits_lt h) fun _ hr => (isolated_of_resolveWith h hr).inWord

/-- **Faults of a walk.** No operation of a walk of a resolved set faults, whatever its options. The
walk succeeds when the base leaves the first byte of every register below the limit. Otherwise it
fails at the first register that is lifted past the limit, with an error that reports the number of
bytes up to its end, or with a fault when the register ends at the very last offset and the machine
has no such number. -/
theorem walk_faults (policy : Policy) (d : RegisterSetDecl) (resolved : Resolved RegisterSet)
    (options : WalkOptions) (h : d.resolveWith policy = .ok resolved) :
    let s := resolved.model
    let base := s.walkBase options
    s.checkedWalk options = s.walk options ∧
      (s.walk options).outcome =
        (match s.registers.find? (!s.fits options ·) with
        | none => .ok ()
        | some r =>
          if r.address.relative + s.stride < wordLimit then
            .error (.conflict (.overflow r.path base (r.address.relative + s.stride)))
          else .error (.fault .sumTooLarge)) ∧
      ((∃ cause, (s.walk options).outcome = .error (.fault cause)) ↔
        ∃ r, s.registers.find? (!s.fits options ·) = some r ∧
          r.address.relative + s.stride = wordLimit) := by
  intro s base
  have houtcome : (s.walk options).outcome = _ := RegisterSet.outcome_walk_eq
  refine ⟨checkedWalk_of_resolveWith h options, ?_, ?_⟩
  · rw [houtcome]
    cases s.registers.find? (!s.fits options ·) with
    | none => rfl
    | some r =>
      dsimp only
      rw [overflowBeyond_eq]
      split <;> rfl
  · rw [houtcome]
    cases hfind : s.registers.find? (!s.fits options ·) with
    | none => simp
    | some r =>
      -- Every register ends below the limit, so that the sum is at most the limit.
      have hends := (word_of_resolveWith h (List.mem_of_find?_eq_some hfind)).2.1
      simp only [Except.error.injEq, Option.some.injEq, overflowBeyond_eq_fault_iff,
        exists_eq_left, exists_eq_left']
      constructor
      · intro hover
        exact Nat.le_antisymm hends hover
      · intro hlast
        exact Nat.le_of_eq hlast.symm

/-- From a base that lifts the second register past the limit, a walk reports the bytes up to its
end. -/
theorem walk_faults_lamp :
    ∃ resolved, lamp.resolveWith .lenient = .ok resolved ∧
      (resolved.model.walk { addressShift := 3, base? := some (wordLimit - 10) }).outcome =
        .error (.conflict (.overflow ((EntityPath.root "lamp").child "status")
          (wordLimit - 10) 12)) :=
  ⟨_, rfl, (walk_faults .lenient lamp _ _ rfl).2.1.trans rfl⟩

/-- The number of bytes up to the very last offset does not exist, and a walk faults for it once it
has told of the set. -/
theorem walk_atTop_faults :
    ∃ resolved, (atTop 32 .auto).resolveWith .lenient = .ok resolved ∧
      (resolved.model.walk { base? := some 4 }).outcome = .error (.fault .sumTooLarge) ∧
      (resolved.model.walk { base? := some 4 }).events =
        [.beginSet (resolved.model.info { base? := some 4 })] :=
  ⟨_, rfl, rfl, rfl⟩

end RegisterSetDecl

end BusMap
