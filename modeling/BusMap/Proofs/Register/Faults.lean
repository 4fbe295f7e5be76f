import BusMap.Proofs.Register.AccessRules

/-!
# Faults of register set resolution

Resolution computes with machine words: widths, masks and lane masks of bit ranges, least and
greatest values of fields, addresses, numbers of bytes and of words. All of these exist but two, and
both are one above a last address.

A register that ends at the very last offset and that the base lifts past the address space is to be
reported with the number of bytes up to its end (`RegisterSetDecl.BaseOverruns`), and registers of
one byte with one at the very last offset are to be counted up to it
(`RegisterSetDecl.CountOverruns`). `RegisterSetDecl.resolveWith_eq_fault_iff` says that resolution
faults in these two cases and in no other: on every other declaration it ends with a model or with
an error.
-/

set_option autoImplicit false

namespace BusMap

namespace RegisterSetDecl

/-- The base lifts a register past the address space that ends at the very last offset, and none of
those declared before it. -/
def BaseOverruns (d : RegisterSetDecl) (ranges : List Interval) : Prop :=
  0 < d.base ∧
    ∃ before range after, ranges = before ++ range :: after ∧
      (∀ other ∈ before, d.base + other.last < wordLimit) ∧ range.last + 1 = wordLimit

/-- Registers are single bytes from address zero on, and one of them is at the very last offset. -/
def CountOverruns (d : RegisterSetDecl) (ranges : List Interval) : Prop :=
  d.base = 0 ∧ d.portSize = 8 ∧ ∃ range ∈ ranges, range.last + 1 = wordLimit

/-- All registers have addresses, and the policy accepts the accessors of all their fields. -/
def IsPlanned (policy : Policy) (d : RegisterSetDecl) : Prop :=
  ∃ addresses registers, d.addresses = .ok addresses ∧
    (d.resolveRegisters addresses).enforce policy = .ok registers

variable {d : RegisterSetDecl} {ranges : List Interval} {cause : Fault}

/-- The addresses of the registers fault at the first register that the base lifts past the limit,
and only when it ends at the very last offset. -/
theorem addresses_eq_fault_iff (h : d.ranges = .ok ranges) :
    d.addresses = .error (.fault cause) ↔ cause = .sumTooLarge ∧ d.BaseOverruns ranges := by
  have hentries := map_snd_requests_zip h
  have hordered : ∀ entry ∈ d.requests.zip ranges, entry.2.first ≤ entry.2.last := by
    intro entry hentry
    exact first_le_last_of_mem h (List.of_mem_zip hentry).2
  have hbelow : ∀ entry ∈ d.requests.zip ranges, entry.2.last < wordLimit := by
    intro entry hentry
    exact last_lt_of_mem h (List.of_mem_zip hentry).2
  rw [RegisterSetDecl.addresses, h, ok_bind, mapM_eq_error_iff]
  generalize d.requests.zip ranges = entries at hentries hordered hbelow ⊢
  -- The map stops at its first failure, so every register before that one fits.
  constructor
  · rintro ⟨before, entry, after, rfl, hbefore, hfault⟩
    have hmem : entry ∈ before ++ entry :: after := List.mem_append_right _ List.mem_cons_self
    obtain ⟨hcause, hlifted, hsize⟩ :=
      (RegisterAddress.at_eq_fault_iff (hordered entry hmem)).1 hfault
    have hlast := hbelow entry hmem
    refine ⟨hcause, by omega, before.map Prod.snd, entry.2, after.map Prod.snd, ?_, ?_, by omega⟩
    · rw [← hentries, List.map_append, List.map_cons]
    · rw [List.forall_mem_map]
      intro other hother
      obtain ⟨address, haddress⟩ := hbefore other hother
      have hother' := hordered other (List.mem_append_left _ hother)
      exact ((RegisterAddress.at_eq_ok_iff hother').1 haddress).1
  · rintro ⟨hcause, hbase, before, range, after, rfl, hbefore, hlast⟩
    obtain ⟨before, rest, rfl, rfl, hrest⟩ := List.map_eq_append_iff.1 hentries
    obtain ⟨entry, after, rfl, rfl, rfl⟩ := List.map_eq_cons_iff.1 hrest
    refine ⟨before, entry, after, rfl, ?_, ?_⟩
    · intro other hother
      have hother' := hordered other (List.mem_append_left _ hother)
      have hfits := hbefore other.2 (List.mem_map_of_mem hother)
      exact ⟨_, (RegisterAddress.at_eq_ok_iff hother').2 ⟨hfits, rfl⟩⟩
    · have hentry := hordered entry (List.mem_append_right _ List.mem_cons_self)
      exact (RegisterAddress.at_eq_fault_iff hentry).2 ⟨hcause, by omega, by omega⟩

theorem exists_ranges_of_addresses_eq_fault (hport : IsPortSize d.portSize)
    (h : d.addresses = .error (.fault cause)) : ∃ ranges, d.ranges = .ok ranges := by
  rw [RegisterSetDecl.addresses, bind_eq_error_iff] at h
  rcases h with h | ⟨ranges, hranges, -⟩
  · exact absurd h (neverFaults_ranges hport cause)
  · exact ⟨ranges, hranges⟩

/-- Once all registers have addresses, their words can be counted unless they are single bytes with
one at the very last offset. -/
theorem addressSize_eq_error_iff_countOverruns (hport : IsPortSize d.portSize)
    (h : d.ranges = .ok ranges) {addresses : List RegisterAddress}
    (haddresses : d.addresses = .ok addresses) :
    BusMap.addressSize d.portSize addresses = .error cause ↔
      cause = .sumTooLarge ∧ d.CountOverruns ranges := by
  obtain ⟨hfits, rfl⟩ := (addresses_eq_ok_iff h).1 haddresses
  rw [addressSize_eq_error_iff (stride_pos hport)]
  apply and_congr_right
  intro _
  simp only [List.mem_map, exists_exists_and_eq_and]
  constructor
  · rintro ⟨range, hmem, hover⟩
    obtain ⟨-, hpos, hend, -⟩ := mem_ranges_spec h hmem
    have hlast := last_add_one_of_mem h hmem
    have hword := hfits range hmem
    -- With words of two bytes or more the index is at most half an offset, and can be counted.
    have hone : stride d.portSize = 1 := by
      by_contra hne
      have htwo : range.first / stride d.portSize ≤ range.first / 2 :=
        Nat.div_le_div_left (by omega) (by omega)
      omega
    rw [hone, Nat.div_one] at hover
    exact ⟨by omega, (stride_eq_one_iff hport).1 hone, range, hmem, by omega⟩
  · rintro ⟨-, hbyte, range, hmem, hlast⟩
    have hone := (stride_eq_one_iff hport).2 hbyte
    have hlast' := last_add_one_of_mem h hmem
    refine ⟨range, hmem, ?_⟩
    rw [hone, Nat.div_one]
    omega

/-- **Resolution faults in two cases only.** A register set faults under a policy exactly when it is
legal, its registers have ranges, and either the base lifts the register at the very last offset past
the address space before any other one, or the registers are single bytes up to the very last
address and nothing else is wrong with them. -/
theorem resolveWith_eq_fault_iff (policy : Policy) (d : RegisterSetDecl) (cause : Fault) :
    d.resolveWith policy = .error (.fault cause) ↔
      cause = .sumTooLarge ∧ d.check = .ok () ∧
        ∃ ranges, d.ranges = .ok ranges ∧
          (d.BaseOverruns ranges ∨ (d.CountOverruns ranges ∧ d.IsPlanned policy)) := by
  constructor
  · intro h
    rw [resolveWith, resolve, enforce_ofExcept_bind_eq_error_iff] at h
    -- Of the four steps the first and the third do not fault.
    rcases h with h | ⟨⟨⟩, hcheck, h⟩
    · exact absurd h (neverFaults_check cause)
    have hport := isPortSize_of_check hcheck
    rw [enforce_ofExcept_bind_eq_error_iff] at h
    rcases h with h | ⟨addresses, haddresses, h⟩
    · obtain ⟨ranges, hranges⟩ := exists_ranges_of_addresses_eq_fault hport h
      obtain ⟨hcause, hbase⟩ := (addresses_eq_fault_iff hranges).1 h
      exact ⟨hcause, hcheck, ranges, hranges, Or.inl hbase⟩
    obtain ⟨ranges, hranges, -⟩ := bind_eq_ok_iff.1 haddresses
    rw [enforce_bind_eq_error_iff] at h
    rcases h with h | ⟨registers, hregisters, h⟩
    · exact absurd h ((neverFaults_resolveRegisters hcheck addresses).enforce policy cause)
    rw [enforce_ofExcept_bind_eq_error_iff, mapError_eq_error_iff] at h
    rcases h with ⟨cause', hsize, heq⟩ | ⟨size, -, h⟩
    · cases heq
      obtain ⟨hcause, hcount⟩ :=
        (addressSize_eq_error_iff_countOverruns hport hranges haddresses).1 hsize
      exact ⟨hcause, hcheck, ranges, hranges,
        Or.inr ⟨hcount, addresses, registers, haddresses, hregisters⟩⟩
    · cases h
  · rintro ⟨rfl, hcheck, ranges, hranges, hcases⟩
    have hport := isPortSize_of_check hcheck
    rw [resolveWith, resolve, enforce_ofExcept_bind_eq_error_iff]
    refine Or.inr ⟨(), hcheck, ?_⟩
    rw [enforce_ofExcept_bind_eq_error_iff]
    rcases hcases with hbase | ⟨hcount, addresses, registers, haddresses, hregisters⟩
    · exact Or.inl ((addresses_eq_fault_iff hranges).2 ⟨rfl, hbase⟩)
    · refine Or.inr ⟨addresses, haddresses, ?_⟩
      rw [enforce_bind_eq_error_iff]
      refine Or.inr ⟨registers, hregisters, ?_⟩
      rw [enforce_ofExcept_bind_eq_error_iff, mapError_eq_error_iff]
      have hsize := (addressSize_eq_error_iff_countOverruns hport hranges haddresses).2 ⟨rfl, hcount⟩
      exact Or.inl ⟨.sumTooLarge, hsize, rfl⟩

/-- One register that ends at the very last offset. -/
def atTop (portSize : Nat) (baseAddress : Address) : RegisterSetDecl where
  name := "regs"
  baseAddress := baseAddress
  portSize := portSize
  registers := [{
    name := "a"
    kind := .read
    address := .fixed (wordLimit - stride portSize) }]

/-- Both cases occur: a byte at the very last address, and a word that a base lifts past it. -/
theorem resolveWith_atTop_faults :
    (atTop 8 .auto).resolveWith .lenient = .error (.fault .sumTooLarge) ∧
      (atTop 32 (.fixed 4)).resolveWith .lenient = .error (.fault .sumTooLarge) :=
  ⟨rfl, rfl⟩

end RegisterSetDecl

end BusMap
