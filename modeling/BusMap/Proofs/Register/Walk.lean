import Mathlib.Data.List.TakeWhile
import BusMap.Proofs.Outcome
import BusMap.Register.Walk

/-!
# What a walk tells

A walk tells of one register after another, each as a block of events of its own, as long as the
base leaves their first bytes below the limit (`RegisterSet.walkRegisters_append`). The first register
that it lifts past the limit ends the walk, and has no block.

A walk of the whole set therefore succeeds exactly when the base leaves every register below the limit
(`RegisterSet.outcome_walk_eq_ok_iff`), and then tells of all registers in declaration order, each at
the base plus its offset (`RegisterSet.registers_walk`).
-/

set_option autoImplicit false

namespace BusMap

/-! ## Registers among the events -/

/-- What is told of a register, if the event starts one. -/
def WalkEvent.register? : WalkEvent → Option RegisterInfo
  | .beginRegister info => some info
  | _ => none

/-- What is told of the registers, in order. -/
def Walk.registers (w : Walk) : List RegisterInfo := w.events.filterMap WalkEvent.register?

/-- The events of a field start no register. -/
theorem Field.filterMap_register?_events (f : Field) :
    f.events.filterMap WalkEvent.register? = [] := by
  have haccessors : (f.accessors.map WalkEvent.access).filterMap WalkEvent.register? = [] := by
    rw [List.filterMap_map, List.filterMap_eq_nil_iff]
    exact fun _ _ => rfl
  rw [Field.events, List.cons_append, List.filterMap_cons_none rfl, List.filterMap_append,
    haccessors]
  rfl

/-- The events of a register start this register only. -/
theorem Register.filterMap_register?_events (r : Register) (absoluteAddress wordAddress : Nat) :
    (r.events absoluteAddress wordAddress).filterMap WalkEvent.register? =
      [r.info absoluteAddress wordAddress] := by
  have hfields : (r.fields.flatMap Field.events).filterMap WalkEvent.register? = [] := by
    simp [List.filterMap_flatMap, Field.filterMap_register?_events]
  rw [Register.events, List.cons_append, List.filterMap_cons, List.filterMap_append, hfields]
  rfl

namespace RegisterSet

/-- No register starts after the last one. -/
theorem filterMap_register?_closingEvents (s : RegisterSet) :
    s.closingEvents.filterMap WalkEvent.register? = [] := by
  have hoption : ∀ (c : Bool) (e : WalkEvent), e.register? = none →
      (if c then [e] else []).filterMap WalkEvent.register? = [] := by
    intro c e he
    cases c
    · rfl
    · exact List.filterMap_cons_none he
  rw [closingEvents, List.filterMap_append, List.filterMap_append, List.filterMap_append,
    hoption _ _ rfl, hoption _ _ rfl, hoption _ _ rfl]
  rfl

/-! ## One register after another -/

variable {s : RegisterSet} {options : WalkOptions} {base : Nat} {r : Register}
  {rs before rest : List Register}

/-- Events of a register at the base plus its offset. -/
def block (s : RegisterSet) (options : WalkOptions) (r : Register) : List WalkEvent :=
  r.events (s.walkBase options + r.address.relative)
    (s.wordAddress options (s.walkBase options + r.address.relative))

/-- The base leaves the first byte of the register below the limit. -/
def fits (s : RegisterSet) (options : WalkOptions) (r : Register) : Bool :=
  s.walkBase options + r.address.relative < wordLimit

theorem fits_iff : s.fits options r ↔ s.walkBase options + r.address.relative < wordLimit :=
  decide_eq_true_iff

theorem addressAt_of_lt (h : base + r.address.relative < wordLimit) :
    s.addressAt base r = .ok (base + r.address.relative) := if_pos h

theorem addressAt_of_le (h : wordLimit ≤ base + r.address.relative) :
    s.addressAt base r = .error (overflowBeyond r.path base r.address.relative s.stride) :=
  if_neg (Nat.not_lt.2 h)

theorem walkRegisters_cons_of_lt (h : s.walkBase options + r.address.relative < wordLimit) :
    s.walkRegisters options (r :: rs) =
      ⟨s.block options r ++ (s.walkRegisters options rs).events,
        (s.walkRegisters options rs).outcome⟩ := by
  rw [walkRegisters, addressAt_of_lt h]
  rfl

theorem walkRegisters_cons_of_le (h : wordLimit ≤ s.walkBase options + r.address.relative) :
    s.walkRegisters options (r :: rs) =
      ⟨[], .error (overflowBeyond r.path (s.walkBase options) r.address.relative s.stride)⟩ := by
  rw [walkRegisters, addressAt_of_le h]

/-- Registers that the base leaves below the limit give their blocks, and the walk goes on. -/
theorem walkRegisters_append
    (h : ∀ r ∈ before, s.walkBase options + r.address.relative < wordLimit) :
    s.walkRegisters options (before ++ rest) =
      ⟨before.flatMap (s.block options) ++ (s.walkRegisters options rest).events,
        (s.walkRegisters options rest).outcome⟩ := by
  -- What comes after the registers stays as it is; the blocks are collected in front of it.
  induction before with
  | nil => rfl
  | cons r before ih =>
    obtain ⟨hr, hbefore⟩ := List.forall_mem_cons.1 h
    rw [List.cons_append, walkRegisters_cons_of_lt hr, ih hbefore, List.flatMap_cons,
      List.append_assoc]

theorem walkRegisters_of_lt (h : ∀ r ∈ rs, s.walkBase options + r.address.relative < wordLimit) :
    s.walkRegisters options rs = ⟨rs.flatMap (s.block options), .ok ()⟩ := by
  have hall : s.walkRegisters options (rs ++ []) = _ := walkRegisters_append h
  rwa [List.append_nil, walkRegisters, List.append_nil] at hall

theorem walkRegisters_of_le
    (hbefore : ∀ q ∈ before, s.walkBase options + q.address.relative < wordLimit)
    (hr : wordLimit ≤ s.walkBase options + r.address.relative) :
    s.walkRegisters options (before ++ r :: rest) =
      ⟨before.flatMap (s.block options),
        .error (overflowBeyond r.path (s.walkBase options) r.address.relative s.stride)⟩ := by
  rw [walkRegisters_append hbefore, walkRegisters_cons_of_le hr, List.append_nil]

/-- When the base does not leave all registers below the limit, there is a first one that it lifts
past the limit. -/
theorem exists_first_of_not_forall_lt (h : ¬ ∀ r ∈ rs, base + r.address.relative < wordLimit) :
    ∃ before r after, rs = before ++ r :: after ∧
      (∀ q ∈ before, base + q.address.relative < wordLimit) ∧
        wordLimit ≤ base + r.address.relative := by
  cases hfind : rs.find? fun r => wordLimit ≤ base + r.address.relative with
  | none =>
    rw [List.find?_eq_none] at hfind
    exact absurd (fun r hr => Nat.not_le.1 fun hle => hfind r hr (decide_eq_true hle)) h
  | some r =>
    obtain ⟨hr, before, after, hsplit, hbefore⟩ := List.find?_eq_some_iff_append.1 hfind
    refine ⟨before, r, after, hsplit, fun q hq => ?_, of_decide_eq_true hr⟩
    have hq := hbefore q hq
    rw [Bool.not_eq_true', decide_eq_false_iff_not] at hq
    exact Nat.not_le.1 hq

theorem outcome_walkRegisters_eq_ok_iff :
    (s.walkRegisters options rs).outcome = .ok () ↔
      ∀ r ∈ rs, s.walkBase options + r.address.relative < wordLimit := by
  constructor
  · intro h
    by_contra hlifted
    obtain ⟨before, r, after, rfl, hbefore, hr⟩ := exists_first_of_not_forall_lt hlifted
    rw [walkRegisters_of_le hbefore hr] at h
    cases h
  · intro h
    rw [walkRegisters_of_lt h]

/-- A walk that fails does so at a register that the base lifts past the limit. -/
theorem exists_of_outcome_walkRegisters_eq_error {e : Failure}
    (h : (s.walkRegisters options rs).outcome = .error e) :
    ∃ r ∈ rs, wordLimit ≤ s.walkBase options + r.address.relative ∧
      e = overflowBeyond r.path (s.walkBase options) r.address.relative s.stride := by
  have hlifted : ¬ ∀ r ∈ rs, s.walkBase options + r.address.relative < wordLimit := by
    intro hfits
    rw [walkRegisters_of_lt hfits] at h
    cases h
  obtain ⟨before, r, after, rfl, hbefore, hr⟩ := exists_first_of_not_forall_lt hlifted
  rw [walkRegisters_of_le hbefore hr] at h
  cases h
  exact ⟨r, List.mem_append_cons_self, hr, rfl⟩

/-- A walk tells of the registers up to the first one that the base lifts past the limit. -/
theorem registers_walkRegisters_eq :
    (s.walkRegisters options rs).registers = (rs.takeWhile (s.fits options)).map fun r =>
      r.info (s.walkBase options + r.address.relative)
        (s.wordAddress options (s.walkBase options + r.address.relative)) := by
  induction rs with
  | nil => rfl
  | cons r rs ih =>
    by_cases hr : s.fits options r
    · rw [walkRegisters_cons_of_lt (fits_iff.1 hr), List.takeWhile_cons_of_pos hr, List.map_cons,
        ← ih, Walk.registers, List.filterMap_append, block, Register.filterMap_register?_events]
      rfl
    · rw [walkRegisters_cons_of_le (Nat.not_lt.1 (mt fits_iff.2 hr)),
        List.takeWhile_cons_of_neg hr]
      rfl

/-- The registers of a walk that passes them all, in their order. -/
theorem registers_walkRegisters
    (h : ∀ r ∈ rs, s.walkBase options + r.address.relative < wordLimit) :
    (s.walkRegisters options rs).registers = rs.map fun r =>
      r.info (s.walkBase options + r.address.relative)
        (s.wordAddress options (s.walkBase options + r.address.relative)) := by
  have hall : rs.takeWhile (s.fits options) = rs :=
    List.takeWhile_eq_self_iff.2 fun r hr => fits_iff.2 (h r hr)
  rw [registers_walkRegisters_eq, hall]

/-! ## The whole set -/

/-- Only the registers can end a walk. -/
theorem outcome_walk : (s.walk options).outcome = (s.walkRegisters options s.registers).outcome := by
  rw [walk]
  split
  · rename_i h
    exact h.symm
  · rename_i h
    exact h.symm

theorem walk_of_lt
    (h : ∀ r ∈ s.registers, s.walkBase options + r.address.relative < wordLimit) :
    s.walk options = ⟨.beginSet (s.info options) :: s.registers.flatMap (s.block options) ++
      s.closingEvents, .ok ()⟩ := by
  rw [walk, walkRegisters_of_lt h]

/-- A walk that fails tells of the registers before the first one that the base lifts past the
limit. -/
theorem walk_of_le (hregisters : s.registers = before ++ r :: rest)
    (hbefore : ∀ q ∈ before, s.walkBase options + q.address.relative < wordLimit)
    (hr : wordLimit ≤ s.walkBase options + r.address.relative) :
    s.walk options = ⟨.beginSet (s.info options) :: before.flatMap (s.block options),
      .error (overflowBeyond r.path (s.walkBase options) r.address.relative s.stride)⟩ := by
  rw [walk, hregisters, walkRegisters_of_le hbefore hr]

/-- A walk succeeds exactly when the base leaves the first byte of every register below the
limit. -/
theorem outcome_walk_eq_ok_iff :
    (s.walk options).outcome = .ok () ↔
      ∀ r ∈ s.registers, s.walkBase options + r.address.relative < wordLimit := by
  rw [outcome_walk, outcome_walkRegisters_eq_ok_iff]

/-- Only the registers start registers. -/
theorem registers_walk_eq :
    (s.walk options).registers = (s.walkRegisters options s.registers).registers := by
  rw [walk]
  split
  · exact List.filterMap_cons_none rfl
  · rw [Walk.registers, List.cons_append, List.filterMap_cons_none rfl, List.filterMap_append,
      filterMap_register?_closingEvents, List.append_nil, Walk.registers]

/-- A walk that succeeds tells of every register at the base plus its offset. -/
theorem registers_walk (h : (s.walk options).outcome = .ok ()) :
    (s.walk options).registers = s.registers.map fun r =>
      r.info (s.walkBase options + r.address.relative)
        (s.wordAddress options (s.walkBase options + r.address.relative)) := by
  rw [registers_walk_eq, registers_walkRegisters (outcome_walk_eq_ok_iff.1 h)]

end RegisterSet

end BusMap
