import BusMap.Proofs.Placement.Layout
import BusMap.Proofs.Register.Legality
import BusMap.Register.Layout

/-!
# Where registers go

The ranges of a legal register set are one word each and end below the limit of the address space
(`RegisterSetDecl.mem_ranges_spec`). Its registers have addresses exactly when the base lifts no
range past the limit, and each address is then the base plus an offset
(`RegisterSetDecl.addresses_eq_ok_iff`).

Two sums can miss the machine word: the number of bytes up to a register that the base lifts past
the limit (`RegisterAddress.at_eq_fault_iff`) and the number of words up to the highest register
(`addressSize_eq_error_iff`).
-/

set_option autoImplicit false

namespace BusMap

/-! ## Words and their alignment -/

theorem stride_pos {portSize : Nat} (h : IsPortSize portSize) : 1 ≤ stride portSize := by
  rw [isPortSize_iff] at h
  rw [stride]
  omega

/-- A register of one byte is the only one whose words are its bytes. -/
theorem stride_eq_one_iff {portSize : Nat} (h : IsPortSize portSize) :
    stride portSize = 1 ↔ portSize = 8 := by
  rw [isPortSize_iff] at h
  rw [stride]
  omega

/-- Words are aligned to their size. -/
theorem shiftLeft_wordAlignmentBits {portSize : Nat} (h : IsPortSize portSize) :
    1 <<< wordAlignmentBits portSize = stride portSize :=
  h.shiftLeft_granules (by decide) h.byte_le

/-- The limit is a whole number of words. -/
theorem stride_dvd_wordLimit {portSize : Nat} (h : IsPortSize portSize) :
    stride portSize ∣ wordLimit := by
  rcases isPortSize_iff.1 h with rfl | rfl | rfl | rfl <;> decide

theorem wordAlignmentBits_lt {portSize : Nat} (h : IsPortSize portSize) :
    wordAlignmentBits portSize < wordBits := by
  have hbits : wordAlignmentBits portSize ≤ 3 := by
    apply (ceilLog2_le_iff _ _).2
    show portSize / 8 ≤ 8
    have hword := h.le_word
    omega
  exact Nat.lt_of_le_of_lt hbits (by decide)

/-! ## Addresses -/

/-- The error tells the sum, or the machine has no number for it. -/
theorem overflowBeyond_eq (path : EntityPath) (base size extra : Nat) :
    overflowBeyond path base size extra =
      if size + extra < wordLimit then .conflict (.overflow path base (size + extra))
      else .fault .sumTooLarge := by
  rw [overflowBeyond, Machine.add]
  by_cases h : size + extra < wordLimit
  · rw [if_pos h, if_pos h]
  · rw [if_neg h, if_neg h]

/-- The error faults when the machine has no number for the sum. -/
theorem overflowBeyond_eq_fault_iff {path : EntityPath} {base size extra : Nat} {cause : Fault} :
    overflowBeyond path base size extra = .fault cause ↔
      cause = .sumTooLarge ∧ wordLimit ≤ size + extra := by
  rw [overflowBeyond_eq]
  split
  · rename_i hsum
    exact iff_of_false (by simp) fun h => Nat.not_le.2 hsum h.2
  · rename_i hsum
    rw [Failure.fault.injEq, eq_comm]
    exact (and_iff_left (Nat.not_lt.1 hsum)).symm

/-- Only the sum is reported, not its parts. -/
theorem overflowBeyond_congr {path : EntityPath} {base size extra size' extra' : Nat}
    (h : size + extra = size' + extra') :
    overflowBeyond path base size extra = overflowBeyond path base size' extra' := by
  rw [overflowBeyond_eq, overflowBeyond_eq, h]

/-- Different sums up to the limit are not reported alike. -/
theorem overflowBeyond_ne {path path' : EntityPath} {base base' size size' extra : Nat}
    (hlt : size < size') (hle : size' + extra ≤ wordLimit) :
    overflowBeyond path base size extra ≠ overflowBeyond path' base' size' extra := by
  have hsum : size + extra < wordLimit := by omega
  rw [overflowBeyond_eq, overflowBeyond_eq, if_pos hsum]
  split
  · intro h
    have htotal : size + extra = size' + extra := by injections
    omega
  · intro h
    cases h

namespace RegisterAddress

variable {base : Nat} {path : EntityPath} {range : Interval}

/-- A register has an address exactly when the base does not lift its last byte past the limit. -/
theorem at_eq_ok_iff (h : range.first ≤ range.last) {address : RegisterAddress} :
    RegisterAddress.at base path range = .ok address ↔
      base + range.last < wordLimit ∧ address = ⟨range.first, base + range.first⟩ := by
  rw [RegisterAddress.at]
  by_cases hfits : base + range.last < wordLimit
  · rw [if_pos hfits, Machine.add_of_lt (by omega), mapError_ok, ok_bind]
    constructor
    · intro heq
      cases heq
      exact ⟨hfits, rfl⟩
    · rintro ⟨-, rfl⟩
      rfl
  · rw [if_neg hfits]
    constructor
    · intro heq
      cases heq
    · rintro ⟨h, -⟩
      exact absurd h hfits

/-- The address of a register faults exactly when the base lifts its last byte past the limit and
the number of bytes up to it, which the error reports, is no machine word. -/
theorem at_eq_fault_iff (h : range.first ≤ range.last) {cause : Fault} :
    RegisterAddress.at base path range = .error (.fault cause) ↔
      cause = .sumTooLarge ∧ wordLimit ≤ base + range.last ∧ wordLimit ≤ range.last + 1 := by
  rw [RegisterAddress.at]
  by_cases hfits : base + range.last < wordLimit
  -- A register that fits starts before it ends, so that its first address is a word as well.
  · rw [if_pos hfits, Machine.add_of_lt (by omega), mapError_ok, ok_bind]
    constructor
    · intro heq
      cases heq
    · rintro ⟨-, hlifted, -⟩
      omega
  · rw [if_neg hfits, Except.error.injEq, overflowBeyond_eq_fault_iff,
      and_iff_right (Nat.not_lt.1 hfits)]

end RegisterAddress

namespace RegisterSetDecl

variable {d : RegisterSetDecl} {ranges : List Interval}

theorem neverFaults_ranges (h : IsPortSize d.portSize) : NeverFaults d.ranges := by
  rw [RegisterSetDecl.ranges, Machine.shiftAmount_of_lt (wordAlignmentBits_lt h)]
  exact (neverFaults_ok _).bind fun _ _ => neverFaults_conflict _

/-- The ranges are the two passes over the requests. -/
theorem exists_twoPass_of_ranges (h : d.ranges = .ok ranges) :
    ∃ marks, TwoPass (1 <<< wordAlignmentBits d.portSize) d.requests marks ranges := by
  rw [RegisterSetDecl.ranges, bind_eq_ok_iff] at h
  obtain ⟨alignmentBits, hshift, hplace⟩ := h
  -- The shift amount that is checked is the exponent itself.
  rw [mapError_eq_ok_iff, Machine.shiftAmount_eq_ok_iff] at hshift
  obtain ⟨-, rfl⟩ := hshift
  exact exists_twoPass (mapError_eq_ok_iff.1 hplace)

/-- Every register takes one aligned word below the limit. -/
theorem mem_ranges_spec (h : d.ranges = .ok ranges) {range : Interval} (hmem : range ∈ ranges) :
    1 <<< wordAlignmentBits d.portSize ∣ range.first ∧ 1 ≤ stride d.portSize ∧
      range.first + stride d.portSize ≤ wordLimit ∧
        range = Interval.ofSize range.first (stride d.portSize) := by
  obtain ⟨marks, hpasses⟩ := exists_twoPass_of_ranges h
  obtain ⟨i, hi⟩ := List.mem_iff_getElem?.1 hmem
  obtain ⟨request, hrequest⟩ := hpasses.exists_request hi
  have hsize : request.size = stride d.portSize := by
    obtain ⟨r, -, rfl⟩ := List.mem_map.1 (List.mem_of_getElem? hrequest)
    rfl
  rw [← hsize]
  exact hpasses.eq_ofSize hrequest hi

/-- A register ends one word after its first byte. -/
theorem last_add_one_of_mem (h : d.ranges = .ok ranges) {range : Interval} (hmem : range ∈ ranges) :
    range.last + 1 = range.first + stride d.portSize := by
  obtain ⟨-, hpos, -, heq⟩ := mem_ranges_spec h hmem
  rw [heq, Interval.last_ofSize, Interval.first_ofSize]
  omega

theorem first_le_last_of_mem (h : d.ranges = .ok ranges) {range : Interval}
    (hmem : range ∈ ranges) : range.first ≤ range.last := by
  obtain ⟨-, hpos, -⟩ := mem_ranges_spec h hmem
  have hlast := last_add_one_of_mem h hmem
  omega

theorem last_lt_of_mem (h : d.ranges = .ok ranges) {range : Interval} (hmem : range ∈ ranges) :
    range.last < wordLimit := by
  obtain ⟨-, -, hfits, -⟩ := mem_ranges_spec h hmem
  have hlast := last_add_one_of_mem h hmem
  omega

theorem map_snd_requests_zip (h : d.ranges = .ok ranges) :
    (d.requests.zip ranges).map Prod.snd = ranges := by
  obtain ⟨marks, hpasses⟩ := exists_twoPass_of_ranges h
  exact List.map_snd_zip (Nat.le_of_eq hpasses.length_eq)

/-- All registers have addresses exactly when the base lifts none of them past the limit. -/
theorem addresses_eq_ok_iff (h : d.ranges = .ok ranges) {addresses : List RegisterAddress} :
    d.addresses = .ok addresses ↔
      (∀ range ∈ ranges, d.base + range.last < wordLimit) ∧
        addresses = ranges.map fun range => ⟨range.first, d.base + range.first⟩ := by
  have hentries : ∀ entry ∈ d.requests.zip ranges, ∀ address,
      RegisterAddress.at d.base entry.1.path entry.2 = .ok address ↔
        d.base + entry.2.last < wordLimit ∧
          address = ⟨entry.2.first, d.base + entry.2.first⟩ := by
    intro entry hentry address
    have hmem : entry.2 ∈ ranges := (List.of_mem_zip hentry).2
    exact RegisterAddress.at_eq_ok_iff (first_le_last_of_mem h hmem)
  rw [RegisterSetDecl.addresses, h, ok_bind]
  refine (mapM_eq_ok_iff_of_forall hentries).trans ?_
  -- The paths of the requests matter to errors only, so the ranges alone decide.
  have hentries := map_snd_requests_zip h
  generalize d.requests.zip ranges = entries at hentries ⊢
  rw [← hentries, List.forall_mem_map, List.map_map]
  exact Iff.rfl

end RegisterSetDecl

/-! ## Address size -/

theorem le_max?_getD_iff {xs : List Nat} {n : Nat} (h : 1 ≤ n) :
    n ≤ xs.max?.getD 0 ↔ ∃ x ∈ xs, n ≤ x := by
  cases hmax : xs.max? with
  | none =>
    rw [List.max?_eq_none_iff] at hmax
    simp [hmax]
    omega
  | some m =>
    obtain ⟨hm, hle⟩ := List.max?_eq_some_iff.1 hmax
    constructor
    · intro hn
      exact ⟨m, hm, hn⟩
    · rintro ⟨x, hx, hn⟩
      exact Nat.le_trans hn (hle x hx)

/-- The highest word index is the greatest offset over the stride. -/
theorem highestWord_eq {portSize : Nat} (h : 1 ≤ stride portSize)
    (addresses : List RegisterAddress) :
    highestWord portSize addresses =
      .ok ((addresses.map fun a => a.relative / stride portSize).max?.getD 0) := by
  have hindices : (addresses.mapM fun a => Machine.div a.relative (stride portSize)) =
      .ok (addresses.map fun a => a.relative / stride portSize) := by
    refine (mapM_eq_ok_iff_of_forall (p := fun _ => True) ?_).2 ⟨fun _ _ => trivial, rfl⟩
    intro a _ index
    rw [Machine.div_of_pos h, true_and, Except.ok.injEq, eq_comm]
  rw [highestWord, hindices]
  rfl

/-- The address size is the least number of bits, and at least one, whose word addresses reach every
register. -/
theorem addressSize_le_iff {portSize bits n : Nat} (h : 1 ≤ stride portSize)
    {addresses : List RegisterAddress} (hsize : addressSize portSize addresses = .ok bits)
    (hn : 1 ≤ n) :
    bits ≤ n ↔ ∀ a ∈ addresses, a.relative / stride portSize < 1 <<< n := by
  have hpower : 1 ≤ 1 <<< n := by
    rw [Nat.one_shiftLeft]
    exact Nat.two_pow_pos n
  rw [addressSize, highestWord_eq h, ok_bind, bind_eq_ok_iff] at hsize
  obtain ⟨words, hwords, hbits⟩ := hsize
  rw [Machine.add_eq_ok_iff] at hwords
  cases hbits
  rw [Nat.max_le, and_iff_left hn, ceilLog2_le_iff, hwords.2, Nat.add_one_le_iff, ← Nat.not_le,
    le_max?_getD_iff hpower]
  simp only [List.mem_map, exists_exists_and_eq_and, not_exists, not_and, Nat.not_le]

theorem one_le_addressSize {portSize bits : Nat} {addresses : List RegisterAddress}
    (h : addressSize portSize addresses = .ok bits) : 1 ≤ bits := by
  rw [addressSize, bind_eq_ok_iff] at h
  obtain ⟨highest, -, h⟩ := h
  obtain ⟨words, -, h⟩ := bind_eq_ok_iff.1 h
  cases h
  exact Nat.le_max_right _ _

/-- The address size faults exactly when the word above the highest register has no index, as it
does for registers of one byte with one at the last offset. -/
theorem addressSize_eq_error_iff {portSize : Nat} (h : 1 ≤ stride portSize)
    {addresses : List RegisterAddress} {cause : Fault} :
    addressSize portSize addresses = .error cause ↔
      cause = .sumTooLarge ∧ ∃ a ∈ addresses, wordLimit ≤ a.relative / stride portSize + 1 := by
  have hlimit : 1 ≤ wordLimit - 1 := by decide
  have hhighest :
      wordLimit ≤ (addresses.map fun a => a.relative / stride portSize).max?.getD 0 + 1 ↔
        ∃ a ∈ addresses, wordLimit ≤ a.relative / stride portSize + 1 := by
    rw [← Nat.sub_le_iff_le_add, le_max?_getD_iff hlimit]
    simp only [List.mem_map, exists_exists_and_eq_and, Nat.sub_le_iff_le_add]
  rw [addressSize, highestWord_eq h, ok_bind, bind_eq_error_iff, Machine.add_eq_error_iff, hhighest]
  constructor
  · rintro (⟨hover, hcause⟩ | ⟨words, -, hwords⟩)
    · exact ⟨hcause, hover⟩
    · cases hwords
  · rintro ⟨hcause, hover⟩
    exact Or.inl ⟨hover, hcause⟩

end BusMap
