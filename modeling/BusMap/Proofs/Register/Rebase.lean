import BusMap.Proofs.Register.Planning
import BusMap.Proofs.Register.Walk

/-!
# Register sets at another base

A register set is moved to a base in two ways: its declaration asks for the base, or a walk of the
resolved set is given it. Both make the same model and the same events
(`RegisterSetDecl.resolveWith_rebase`, `RegisterSet.walk_rebase`), but they check the base apart from
each other. Resolution wants the last byte of every register below the limit
(`RegisterSetDecl.addresses_rebase`), a walk only the first.

The two checks agree unless the first register that is lifted past the limit starts below it
(`RegisterSet.Straddles`). This needs a base that is not aligned to a register, and
`RegisterSetDecl.walk_agrees_with_rebase` says that nothing else tells the two ways apart.
-/

set_option autoImplicit false

namespace BusMap

/-! ## The same registers from another base -/

/-- The address at the same offset from a base. -/
def RegisterAddress.rebase (a : RegisterAddress) (base : Nat) : RegisterAddress :=
  ⟨a.relative, base + a.relative⟩

/-- The register at the same offset from a base. -/
def Register.rebase (r : Register) (base : Nat) : Register :=
  { r with address := r.address.rebase base }

/-- The register set at a base. -/
def RegisterSet.rebase (s : RegisterSet) (base : Nat) : RegisterSet :=
  { s with baseAddress := .fixed base, registers := s.registers.map (·.rebase base) }

/-- The declaration that asks for a base. -/
def RegisterSetDecl.rebase (d : RegisterSetDecl) (base : Nat) : RegisterSetDecl :=
  { d with baseAddress := .fixed base }

/-! ## Resolving at another base -/

/-- Planning does not look at the address of a register. -/
theorem RegisterDecl.resolve_rebase (r : RegisterDecl) (path : EntityPath)
    (address : RegisterAddress) (base : Nat) :
    r.resolve path (address.rebase base) = (·.rebase base) <$> r.resolve path address := by
  simp only [RegisterDecl.resolve, map_bind, map_pure]
  rfl

/-- The address size counts offsets, which are the same from every base. -/
theorem addressSize_rebase (portSize : Nat) (addresses : List RegisterAddress) (base : Nat) :
    addressSize portSize (addresses.map (·.rebase base)) = addressSize portSize addresses := by
  rw [addressSize, addressSize, highestWord, highestWord, List.mapM_map]
  rfl

namespace RegisterSetDecl

variable {policy : Policy} {d : RegisterSetDecl} {resolved : Resolved RegisterSet} {base : Nat}
  {addresses moved : List RegisterAddress}

theorem resolveRegisters_rebase (d : RegisterSetDecl) (addresses : List RegisterAddress)
    (base : Nat) :
    (d.rebase base).resolveRegisters (addresses.map (·.rebase base)) =
      List.map (·.rebase base) <$> d.resolveRegisters addresses := by
  rw [resolveRegisters, resolveRegisters, ← mapM_map_eq_map_mapM, List.zip_map_right, List.mapM_map]
  refine congrArg (fun f => List.mapM f _) (funext fun entry => ?_)
  exact RegisterDecl.resolve_rebase entry.1 _ entry.2 base

/-- Where both bases give addresses, they give the same offsets. -/
theorem addresses_rebase_eq_map (h : d.addresses = .ok addresses)
    (hmoved : (d.rebase base).addresses = .ok moved) : moved = addresses.map (·.rebase base) := by
  obtain ⟨ranges, hranges, -⟩ := bind_eq_ok_iff.1 h
  have hranges' : (d.rebase base).ranges = .ok ranges := hranges
  obtain ⟨-, rfl⟩ := (addresses_eq_ok_iff hranges).1 h
  obtain ⟨-, rfl⟩ := (addresses_eq_ok_iff hranges').1 hmoved
  rw [List.map_map]
  rfl

theorem resolve_rebase (h : d.addresses = .ok addresses)
    (hmoved : (d.rebase base).addresses = .ok moved) :
    (d.rebase base).resolve = (·.rebase base) <$> d.resolve := by
  have hpure : ∀ xs : List RegisterAddress, Diagnosed.ofExcept (.ok xs) = pure xs := fun _ => rfl
  have hportSize : (d.rebase base).portSize = d.portSize := rfl
  rw [resolve, resolve, h, hmoved, addresses_rebase_eq_map h hmoved]
  simp only [hpure, pure_bind, resolveRegisters_rebase, addressSize_rebase, hportSize,
    bind_map_left, map_bind, map_pure]
  rfl

/-- At another base an accepted declaration is accepted whenever it has addresses there, with the
same warnings. -/
theorem resolveWith_rebase (h : d.resolveWith policy = .ok resolved) (base : Nat) :
    (d.rebase base).resolveWith policy = (d.rebase base).addresses.map fun _ =>
      ⟨resolved.model.rebase base, resolved.warnings⟩ := by
  obtain ⟨hcheck, addresses, haddresses, -⟩ := resolveWith_spec h
  -- The base has no part in the check, nor in planning once there are addresses.
  cases hmoved : (d.rebase base).addresses with
  | error e =>
    rw [resolveWith, resolve]
    refine enforce_ofExcept_bind_eq_error_iff.2 (Or.inr ⟨(), hcheck, ?_⟩)
    exact enforce_ofExcept_bind_eq_error_iff.2 (Or.inl hmoved)
  | ok moved =>
    rw [resolveWith] at h
    rw [resolveWith, resolve_rebase haddresses hmoved, Diagnosed.enforce_map, h]
    rfl

end RegisterSetDecl

/-! ## Walking from another base -/

namespace RegisterSet

variable {s : RegisterSet} {base : Nat} {rs : List Register}

theorem walkRegisters_rebase (s : RegisterSet) (base : Nat) (shift : Int) (rs : List Register) :
    (s.rebase base).walkRegisters { addressShift := shift } (rs.map (·.rebase base)) =
      s.walkRegisters { addressShift := shift, base? := some base } rs := by
  induction rs with
  | nil => rfl
  | cons r rs ih =>
    rw [List.map_cons, walkRegisters, walkRegisters, ih]
    rfl

theorem closingEvents_rebase (s : RegisterSet) (base : Nat) :
    (s.rebase base).closingEvents = s.closingEvents := by
  simp only [closingEvents, canResetAll, canFlushShadowAll, canLoadShadowAll, rebase, List.any_map]
  rfl

/-- A walk of the set at a base and a walk that is given the base tell the same. -/
theorem walk_rebase (s : RegisterSet) (base : Nat) (shift : Int) :
    (s.rebase base).walk { addressShift := shift } =
      s.walk { addressShift := shift, base? := some base } := by
  have hregisters := walkRegisters_rebase s base shift s.registers
  rw [walk, walk, closingEvents_rebase, ← hregisters]
  rfl

/-! ## Two checks of the base -/

/-- The base lifts the last byte of the register past the limit. -/
def lifts (s : RegisterSet) (base : Nat) (r : Register) : Bool :=
  wordLimit < base + r.address.relative + s.stride

/-- The address of a register from a base that does not lift it past the limit. One that is lifted
is reported with the number of bytes from the base to its end. -/
def settle (s : RegisterSet) (base : Nat) (r : Register) : Except Failure RegisterAddress :=
  if s.lifts base r then .error (overflowBeyond r.path base r.address.relative s.stride)
  else .ok (r.address.rebase base)

/-- The first register that the base lifts past the limit starts below it. -/
def Straddles (s : RegisterSet) (base : Nat) : Prop :=
  ∃ r, s.registers.find? (s.lifts base) = some r ∧ base + r.address.relative < wordLimit

theorem lifts_iff {r : Register} :
    s.lifts base r ↔ wordLimit < base + r.address.relative + s.stride := decide_eq_true_iff

theorem settle_eq_ok_iff {r : Register} {address : RegisterAddress} :
    s.settle base r = .ok address ↔ ¬ s.lifts base r ∧ address = r.address.rebase base := by
  rw [settle]
  by_cases h : s.lifts base r
  · rw [if_pos h]
    simp [h]
  · rw [if_neg h, Except.ok.injEq, eq_comm]
    exact (and_iff_right h).symm

theorem settle_eq_error_iff {r : Register} {e : Failure} :
    s.settle base r = .error e ↔
      s.lifts base r ∧ e = overflowBeyond r.path base r.address.relative s.stride := by
  rw [settle]
  by_cases h : s.lifts base r
  · rw [if_pos h, Except.error.injEq, eq_comm]
    exact (and_iff_right h).symm
  · rw [if_neg h]
    simp [h]

/-- Registers fail to settle at the first one that the base lifts past the limit. -/
theorem exists_find?_of_mapM_settle_eq_error {e : Failure}
    (h : rs.mapM (s.settle base) = .error e) :
    ∃ r, rs.find? (s.lifts base) = some r ∧
      e = overflowBeyond r.path base r.address.relative s.stride := by
  obtain ⟨before, r, after, rfl, hbefore, hr⟩ := mapM_eq_error_iff.1 h
  obtain ⟨hlifts, he⟩ := settle_eq_error_iff.1 hr
  refine ⟨r, List.find?_eq_some_iff_append.2 ⟨hlifts, before, after, rfl, ?_⟩, he⟩
  intro q hq
  obtain ⟨address, haddress⟩ := hbefore q hq
  simpa using (settle_eq_ok_iff.1 haddress).1

/-- A walk ends as the settling of all registers does, unless the first one that is lifted past the
limit starts below it. A walk that goes on past this one does not report it. -/
theorem outcome_walkRegisters_eq_iff {options : WalkOptions} (hbase : s.walkBase options = base)
    (hpos : 1 ≤ s.stride) (hfits : ∀ r ∈ rs, r.address.relative + s.stride ≤ wordLimit) :
    (s.walkRegisters options rs).outcome = (rs.mapM (s.settle base)).map (fun _ => ()) ↔
      ∀ r, rs.find? (s.lifts base) = some r → wordLimit ≤ base + r.address.relative := by
  subst hbase
  induction rs with
  | nil => simp [walkRegisters, pure, Except.pure, Except.map]
  | cons r rs ih =>
    obtain ⟨hr, hrs⟩ := List.forall_mem_cons.1 hfits
    by_cases hlifts : s.lifts (s.walkBase options) r
    · rw [List.find?_cons_of_pos hlifts, List.mapM_cons, settle, if_pos hlifts]
      by_cases hstart : s.walkBase options + r.address.relative < wordLimit
      -- The walk passes the register that settling reports, and can end at a later one only.
      · rw [walkRegisters_cons_of_lt hstart]
        constructor
        · intro hsame
          obtain ⟨q, hq, hlifted, hreport⟩ := exists_of_outcome_walkRegisters_eq_error hsame
          exact absurd hreport (overflowBeyond_ne (by omega) (hrs q hq))
        · intro hends
          exact absurd (hends r rfl) (Nat.not_le.2 hstart)
      · rw [walkRegisters_cons_of_le (Nat.not_lt.1 hstart)]
        refine iff_of_true rfl ?_
        rintro q hq
        cases hq
        exact Nat.not_lt.1 hstart
    · have hends := mt lifts_iff.2 hlifts
      rw [List.find?_cons_of_neg hlifts, List.mapM_cons, settle, if_neg hlifts, ok_bind,
        walkRegisters_cons_of_lt (by omega), ← ih hrs]
      cases rs.mapM (s.settle (s.walkBase options)) <;> exact Iff.rfl

end RegisterSet

namespace RegisterSetDecl

variable {policy : Policy} {d : RegisterSetDecl} {resolved : Resolved RegisterSet} {base : Nat}

/-- At another base an accepted declaration has the addresses at which its registers settle. -/
theorem addresses_rebase (h : d.resolveWith policy = .ok resolved) (base : Nat) :
    (d.rebase base).addresses = resolved.model.registers.mapM (resolved.model.settle base) := by
  obtain ⟨ranges, hranges, -, hregisters⟩ := exists_ranges_of_resolveWith h
  have hranges' : (d.rebase base).ranges = .ok ranges := hranges
  have hrequests : (d.rebase base).requests.zip ranges =
      (d.registers.zip ranges).map fun entry =>
        (⟨d.registerPath entry.1, entry.1.address, stride d.portSize⟩, entry.2) :=
    List.zip_map_left
  -- Both are maps over the declared registers with their ranges.
  rw [RegisterSetDecl.addresses, hranges', ok_bind, hrequests, hregisters, List.mapM_map,
    List.mapM_map]
  apply mapM_congr_of_mem
  rintro ⟨r, range⟩ hentry
  have hmem := (List.of_mem_zip hentry).2
  have hlast := last_add_one_of_mem hranges hmem
  rw [← stride_of_resolveWith h] at hlast
  show RegisterAddress.at base (d.registerPath r) range = resolved.model.settle base
    (r.resolved (d.registerPath r) ⟨range.first, d.base + range.first⟩)
  by_cases hfits : base + range.last < wordLimit
  · have hends : ¬ wordLimit < base + range.first + resolved.model.stride := by omega
    rw [RegisterSet.settle, if_neg (mt RegisterSet.lifts_iff.1 hends)]
    exact (RegisterAddress.at_eq_ok_iff (first_le_last_of_mem hranges hmem)).2 ⟨hfits, rfl⟩
  · have hends : wordLimit < base + range.first + resolved.model.stride := by omega
    rw [RegisterSet.settle, if_pos (RegisterSet.lifts_iff.2 hends), RegisterAddress.at,
      if_neg hfits]
    exact congrArg Except.error (overflowBeyond_congr hlast)

/-- From a base that is aligned to a register no register starts below the limit and ends beyond
it. -/
theorem not_straddles_of_dvd (h : d.resolveWith policy = .ok resolved)
    (hbase : resolved.model.stride ∣ base) : ¬ resolved.model.Straddles base := by
  rintro ⟨r, hfind, hstart⟩
  have hlifted := RegisterSet.lifts_iff.1 (List.find?_some hfind)
  obtain ⟨haligned, -⟩ := word_of_resolveWith h (List.mem_of_find?_eq_some hfind)
  have hlimit : resolved.model.stride ∣ wordLimit := by
    rw [stride_of_resolveWith h]
    exact stride_dvd_wordLimit (isPortSize_of_check (resolveWith_spec h).1)
  -- The register ends after a whole number of words, and so does the address space.
  have hend : resolved.model.stride ∣ base + r.address.relative + resolved.model.stride :=
    Nat.dvd_add (Nat.dvd_add hbase haligned) (Nat.dvd_refl _)
  exact absurd (Nat.le_of_lt_add_of_dvd (by omega) hend hlimit) (Nat.not_le.2 hlifted)

/-- At another base an accepted declaration is accepted when all its registers settle there. -/
theorem resolveWith_rebase_eq_settle (h : d.resolveWith policy = .ok resolved) (base : Nat) :
    (d.rebase base).resolveWith policy =
      (resolved.model.registers.mapM (resolved.model.settle base)).map fun _ =>
        ⟨resolved.model.rebase base, resolved.warnings⟩ := by
  rw [resolveWith_rebase h base, addresses_rebase h base]

theorem outcome_walk_eq_iff_not_straddles (h : d.resolveWith policy = .ok resolved) (base : Nat)
    (shift : Int) :
    (resolved.model.walk { addressShift := shift, base? := some base }).outcome =
        ((d.rebase base).resolveWith policy).map (fun _ => ()) ↔
      ¬ resolved.model.Straddles base := by
  have houtcome : ((d.rebase base).resolveWith policy).map (fun _ => ()) =
      (resolved.model.registers.mapM (resolved.model.settle base)).map fun _ => () := by
    rw [resolveWith_rebase_eq_settle h base]
    cases resolved.model.registers.mapM (resolved.model.settle base) <;> rfl
  have hbase : resolved.model.walkBase { addressShift := shift, base? := some base } = base := rfl
  have hfits : ∀ r ∈ resolved.model.registers,
      r.address.relative + resolved.model.stride ≤ wordLimit :=
    fun r hr => (word_of_resolveWith h hr).2.1
  rw [houtcome, RegisterSet.outcome_walk, RegisterSet.outcome_walkRegisters_eq_iff hbase
    (one_le_stride_of_resolveWith h) hfits, RegisterSet.Straddles]
  simp only [not_exists, not_and, Nat.not_lt]

/-- Where the declaration resolves at a base, the walk from the base succeeds and tells the same as
the walk of what the declaration resolves to. -/
theorem walk_of_resolveWith_rebase (h : d.resolveWith policy = .ok resolved) (shift : Int)
    {there : Resolved RegisterSet} (hthere : (d.rebase base).resolveWith policy = .ok there) :
    (resolved.model.walk { addressShift := shift, base? := some base }).outcome = .ok () ∧
      there.model.walk { addressShift := shift } =
        resolved.model.walk { addressShift := shift, base? := some base } := by
  rw [resolveWith_rebase_eq_settle h base] at hthere
  cases hsettle : resolved.model.registers.mapM (resolved.model.settle base) with
  | error e =>
    rw [hsettle] at hthere
    cases hthere
  | ok addresses =>
    rw [hsettle] at hthere
    cases hthere
    have hsettled := (mapM_eq_ok_iff_of_forall fun _ _ _ => RegisterSet.settle_eq_ok_iff).1 hsettle
    have hpos := one_le_stride_of_resolveWith h
    refine ⟨RegisterSet.outcome_walk_eq_ok_iff.2 ?_, RegisterSet.walk_rebase _ base shift⟩
    intro r hr
    have hends := mt RegisterSet.lifts_iff.2 (hsettled.1 r hr)
    show base + r.address.relative < wordLimit
    omega

/-- Where the declaration fails at a base, it does so at the first register that the base lifts past
the limit. -/
theorem lifted_of_resolveWith_rebase (h : d.resolveWith policy = .ok resolved) {e : Failure}
    (he : (d.rebase base).resolveWith policy = .error e) :
    ∃ r, resolved.model.registers.find? (resolved.model.lifts base) = some r ∧
      ((r.address.relative + resolved.model.stride < wordLimit ∧
          e = .conflict (.overflow r.path base (r.address.relative + resolved.model.stride))) ∨
        (r.address.relative + resolved.model.stride = wordLimit ∧ e = .fault .sumTooLarge)) := by
  rw [resolveWith_rebase_eq_settle h base] at he
  cases hsettle : resolved.model.registers.mapM (resolved.model.settle base) with
  | ok addresses =>
    rw [hsettle] at he
    cases he
  | error e' =>
    rw [hsettle] at he
    cases he
    obtain ⟨r, hfind, rfl⟩ := RegisterSet.exists_find?_of_mapM_settle_eq_error hsettle
    obtain ⟨-, hfits, -⟩ := word_of_resolveWith h (List.mem_of_find?_eq_some hfind)
    refine ⟨r, hfind, ?_⟩
    rw [overflowBeyond_eq]
    split
    · rename_i hlt
      exact Or.inl ⟨hlt, rfl⟩
    · exact Or.inr ⟨by omega, rfl⟩

/-- **A walk from a base and the resolution at it.** The two end alike, with the same error if they
fail, exactly when no register straddles the limit, as none does from an aligned base. Whenever the
set resolves at the base, the walk from the base succeeds and is the walk of what the set resolves
to. When it does not, the error is about the first register that the base lifts past the limit, or is
a fault where that register ends at the very last offset. -/
theorem walk_agrees_with_rebase (policy : Policy) (d : RegisterSetDecl)
    (resolved : Resolved RegisterSet) (base : Nat) (shift : Int)
    (h : d.resolveWith policy = .ok resolved) :
    let walked := resolved.model.walk { addressShift := shift, base? := some base }
    let moved := (d.rebase base).resolveWith policy
    ((walked.outcome = moved.map fun _ => ()) ↔ ¬ resolved.model.Straddles base) ∧
      (resolved.model.stride ∣ base → ¬ resolved.model.Straddles base) ∧
      (∀ there, moved = .ok there →
        walked.outcome = .ok () ∧ there.model.walk { addressShift := shift } = walked) ∧
      ∀ e, moved = .error e →
        ∃ r, resolved.model.registers.find? (resolved.model.lifts base) = some r ∧
          ((r.address.relative + resolved.model.stride < wordLimit ∧
              e = .conflict (.overflow r.path base
                (r.address.relative + resolved.model.stride))) ∨
            (r.address.relative + resolved.model.stride = wordLimit ∧
              e = .fault .sumTooLarge)) :=
  ⟨outcome_walk_eq_iff_not_straddles h base shift, not_straddles_of_dvd h,
    fun _ => walk_of_resolveWith_rebase h shift, fun _ => lifted_of_resolveWith_rebase h⟩

/-- Two registers of four bytes. -/
def twoWords : RegisterSetDecl where
  name := "regs"
  portSize := 32
  registers := [{ name := "a", kind := .read }, { name := "b", kind := .writeRead }]

/-- From a base between two words both ways tell the same. -/
theorem walk_agrees_with_rebase_between :
    ∃ resolved there, twoWords.resolveWith .lenient = .ok resolved ∧
      (twoWords.rebase 258).resolveWith .lenient = .ok there ∧
        (resolved.model.walk { addressShift := 1, base? := some 258 }).outcome = .ok () ∧
          there.model.walk { addressShift := 1 } =
            resolved.model.walk { addressShift := 1, base? := some 258 } :=
  ⟨_, _, rfl, rfl, (walk_agrees_with_rebase .lenient twoWords _ 258 1 rfl).2.2.1 _ rfl⟩

/-- The second register straddles the limit: the walk tells of it, and the resolution rejects it. -/
theorem walk_passes_straddling :
    ∃ resolved, twoWords.resolveWith .lenient = .ok resolved ∧
      (resolved.model.walk { base? := some (wordLimit - 6) }).outcome = .ok () ∧
        (twoWords.rebase (wordLimit - 6)).resolveWith .lenient =
          .error (.conflict (.overflow ((EntityPath.root "regs").child "b") (wordLimit - 6) 8)) :=
  ⟨_, rfl, rfl, rfl⟩

end RegisterSetDecl

end BusMap
