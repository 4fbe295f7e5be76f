import BusMap.Proofs.Register.Planning
import BusMap.Proofs.Register.Walk

/-!
# The trace of a walk

The trace of a walk is complete, or it is the start of the complete one up to the end of a block
(`RegisterSet.walk_of_lt`, `RegisterSet.walk_of_le`). `RegisterSetDecl.walk_trace` writes both out,
event by event, for every register set that resolves.

Resolution has checked the base of the set, so that only a base in place of this one can end a walk
(`RegisterSetDecl.fits_of_resolveWith`).
-/

set_option autoImplicit false

namespace BusMap

namespace RegisterSetDecl

variable {policy : Policy} {d : RegisterSetDecl} {resolved : Resolved RegisterSet}

/-! ## Resolved sets -/

/-- The registers of an accepted set are the declared ones in their order, with their fields. -/
theorem forall₂_registers_of_resolveWith (h : d.resolveWith policy = .ok resolved) :
    List.Forall₂ (fun (r : RegisterDecl) (register : Register) =>
      register.name = r.name ∧ register.fields.map (·.decl) = r.fields)
      d.registers resolved.model.registers := by
  apply (forall₂_resolved_of_resolveWith h).imp
  rintro r register ⟨address, rfl⟩
  exact ⟨rfl, List.map_map.trans (List.map_id r.fields)⟩

/-- Without a base in its place, a walk starts from the base that resolution has checked. -/
theorem walkBase_of_resolveWith (h : d.resolveWith policy = .ok resolved) {options : WalkOptions}
    (hbase : options.base? = none) : resolved.model.walkBase options = d.base := by
  obtain ⟨-, _, -, -, -, -, hmodel⟩ := resolveWith_spec h
  rw [RegisterSet.walkBase, hbase, hmodel]
  rfl

/-- The base of an accepted set leaves all registers below the limit. -/
theorem fits_of_resolveWith (h : d.resolveWith policy = .ok resolved) {register : Register}
    (hmem : register ∈ resolved.model.registers) :
    d.base + register.address.relative < wordLimit := by
  obtain ⟨-, addresses, haddresses, -⟩ := resolveWith_spec h
  obtain ⟨ranges, hranges, -, hregisters⟩ := exists_ranges_of_resolveWith h
  obtain ⟨hfits, -⟩ := (addresses_eq_ok_iff hranges).1 haddresses
  rw [hregisters] at hmem
  obtain ⟨⟨r, range⟩, hentry, rfl⟩ := List.mem_map.1 hmem
  have hrange := (List.of_mem_zip hentry).2
  have hlast := hfits range hrange
  have hle := first_le_last_of_mem hranges hrange
  show d.base + range.first < wordLimit
  omega

/-- A walk from the base of the set passes all registers. -/
theorem outcome_walk_of_resolveWith (h : d.resolveWith policy = .ok resolved)
    {options : WalkOptions} (hbase : options.base? = none) :
    (resolved.model.walk options).outcome = .ok () := by
  apply RegisterSet.outcome_walk_eq_ok_iff.2
  intro r hr
  rw [walkBase_of_resolveWith h hbase]
  exact fits_of_resolveWith h hr

/-- A walk from the base of the set tells of every register at its resolved address. -/
theorem registers_walk_of_resolveWith (h : d.resolveWith policy = .ok resolved)
    {options : WalkOptions} (hbase : options.base? = none) :
    (resolved.model.walk options).registers = resolved.model.registers.map fun r =>
      r.info r.address.absolute (resolved.model.wordAddress options r.address.absolute) := by
  rw [RegisterSet.registers_walk (outcome_walk_of_resolveWith h hbase),
    walkBase_of_resolveWith h hbase]
  -- The walk adds the base to an offset as resolution did.
  apply List.map_congr_left
  intro r hr
  rcases word_of_resolveWith h hr with ⟨-, -, habsolute⟩
  rw [habsolute]

/-- **The trace of a walk.** A resolved set has the declared registers in their order. When the base
leaves all of them below the limit, the walk succeeds and tells of the set, of each register with its
fields and their accessors in order, of what can be done for the whole set, and of its end. Otherwise
the walk fails at the first register that is lifted past the limit, after the whole blocks of those
before it; the error is about this register, if the number that it reports exists. A walk from the
base of the set succeeds and tells of every register at its resolved address. -/
theorem walk_trace (policy : Policy) (d : RegisterSetDecl) (resolved : Resolved RegisterSet)
    (options : WalkOptions) (h : d.resolveWith policy = .ok resolved) :
    let s := resolved.model
    let base := (options.base?.or s.baseAddress.fixed?).getD 0
    let opening := WalkEvent.beginSet ⟨s.name, s.portSize, registerGranularity, s.alignmentBits,
      s.addressSize, options.addressShift, base⟩
    let block (r : Register) :=
      let address := base + r.address.relative
      let word := shiftWord (address >>> s.alignmentBits) options.addressShift
      WalkEvent.beginRegister (r.info address word) ::
        (r.fields.flatMap fun f =>
          WalkEvent.beginField f.info :: f.accessors.map WalkEvent.access ++ [WalkEvent.endField]) ++
        [WalkEvent.endRegister]
    let closing :=
      (if s.canResetAll then [WalkEvent.resetAll] else []) ++
        (if s.canFlushShadowAll then [WalkEvent.flushShadowAll] else []) ++
        (if s.canLoadShadowAll then [WalkEvent.loadShadowAll] else []) ++ [WalkEvent.endSet]
    List.Forall₂ (fun (r : RegisterDecl) (register : Register) =>
        register.name = r.name ∧ register.fields.map (·.decl) = r.fields)
        d.registers s.registers ∧
      ((∀ r ∈ s.registers, base + r.address.relative < wordLimit) →
        s.walk options = ⟨opening :: s.registers.flatMap block ++ closing, .ok ()⟩) ∧
      ((¬ ∀ r ∈ s.registers, base + r.address.relative < wordLimit) →
        ∃ before r after, s.registers = before ++ r :: after ∧
          (∀ q ∈ before, base + q.address.relative < wordLimit) ∧
            wordLimit ≤ base + r.address.relative ∧
              (s.walk options).events = opening :: before.flatMap block ∧
                (r.address.relative + s.stride < wordLimit →
                  (s.walk options).outcome =
                    .error (.conflict (.overflow r.path base (r.address.relative + s.stride))))) ∧
      (options.base? = none →
        (s.walk options).outcome = .ok () ∧
          (s.walk options).registers.map (·.absoluteAddress) =
            s.registers.map (·.address.absolute)) := by
  intro s base opening block closing
  refine ⟨forall₂_registers_of_resolveWith h, RegisterSet.walk_of_lt, fun hlifted => ?_,
    fun hbase => ?_⟩
  · obtain ⟨before, r, after, hregisters, hbefore, hr⟩ :=
      RegisterSet.exists_first_of_not_forall_lt hlifted
    have hwalk : s.walk options = _ := RegisterSet.walk_of_le hregisters hbefore hr
    refine ⟨before, r, after, hregisters, hbefore, hr, ?_, fun hsum => ?_⟩
    · rw [hwalk]
      rfl
    · rw [hwalk, overflowBeyond_eq, if_pos hsum]
      rfl
  · refine ⟨outcome_walk_of_resolveWith h hbase, ?_⟩
    have hregisters : (s.walk options).registers = _ := registers_walk_of_resolveWith h hbase
    rw [hregisters, List.map_map]
    rfl

/-- A register that takes defaults on a reset, and one without fields.
Both are at fixed offsets. -/
def lamp : RegisterSetDecl where
  name := "lamp"
  baseAddress := .fixed 64
  portSize := 16
  registers := [
    { name := "level"
      kind := .writeRead
      address := .fixed 0
      fields := [{ name := "duty", bits := ⟨7, 0⟩, datatype := .unsigned .bits8,
                   functions := .singleton .overwrite }] },
    { name := "status", kind := .read, address := .fixed 10 }]

/-- From its own base the set is told of as a whole, and from a higher one the walk ends at the
register that does not fit there. -/
theorem walk_trace_lamp :
    ∃ resolved, lamp.resolveWith .lenient = .ok resolved ∧
      (resolved.model.walk {}).outcome = .ok () ∧
      (resolved.model.walk {}).registers.map (·.absoluteAddress) = [64, 74] ∧
      ∃ before r after, resolved.model.registers = before ++ r :: after ∧
        wordLimit ≤ wordLimit - 10 + r.address.relative ∧
          (resolved.model.walk { base? := some (wordLimit - 10) }).outcome =
            .error (.conflict (.overflow r.path (wordLimit - 10) (r.address.relative + 2))) := by
  refine ⟨_, rfl, ?_⟩
  obtain ⟨-, -, -, hown⟩ := walk_trace .lenient lamp _ {} rfl
  obtain ⟨-, -, hfails, -⟩ := walk_trace .lenient lamp _ { base? := some (wordLimit - 10) } rfl
  obtain ⟨houtcome, haddresses⟩ := hown rfl
  obtain ⟨before, r, after, hregisters, -, hr, -, hreport⟩ := hfails (by decide)
  refine ⟨houtcome, haddresses, before, r, after, hregisters, hr, hreport ?_⟩
  have hends : ∀ q ∈ before ++ r :: after, q.address.relative + 2 < wordLimit := by
    rw [← hregisters]
    decide
  exact hends r List.mem_append_cons_self

end RegisterSetDecl

end BusMap
