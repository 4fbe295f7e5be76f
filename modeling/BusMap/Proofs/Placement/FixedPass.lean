import BusMap.Proofs.Placement.Layout

/-!
# Conflicts of fixed requests

A fixed request is a culprit when it is unfit, whatever stands before it, or when it meets an
earlier fixed request (`Request.IsCulprit`). What is said of a culprit is decided in a fixed order:
its alignment, then its size, then the first of the requests that it meets (`Request.Conflicts`).
The first pass ends with what is said of the first culprit, and passes when there is none
(`Allocator.stopsAtFirst_placeFixed`).

Both are told by the addresses that requests ask for. The allocator compares ranges instead, which
amounts to the same while no request before is unfit (`Allocator.Holds`).
-/

set_option autoImplicit false

namespace BusMap

/-! ## What a request asks for -/

namespace Request

/-- The request is for a fixed address, and `n` is one of the addresses that it takes from there. -/
def Asks (r : Request) (n : Nat) : Prop :=
  ∃ address, r.address = .fixed address ∧ address ≤ n ∧ n < address + r.size

/-- Two fixed requests ask for an address in common. -/
def Meets (r q : Request) : Prop := ∃ n, r.Asks n ∧ q.Asks n

/-- No allocator can serve the fixed request: its address is not aligned, or it asks for no address
at all or for one beyond the last. -/
def IsUnfit (alignment : Nat) (r : Request) : Prop :=
  ∃ address, r.address = .fixed address ∧
    (¬ alignment ∣ address ∨ r.size = 0 ∨ wordLimit < address + r.size)

/-- A fixed request that ends the first pass after the requests `earlier`. -/
def IsCulprit (alignment : Nat) (earlier : List Request) (r : Request) : Prop :=
  r.IsUnfit alignment ∨ ∃ q ∈ earlier, r.Meets q

/-- What is said of a culprit. Alignment is looked at first and other requests last, of which the
first is named. -/
inductive Conflicts (alignment : Nat) (earlier : List Request) (r : Request) : Conflict → Prop
  | misaligned {address : Nat} (haddress : r.address = .fixed address)
      (hodd : ¬ alignment ∣ address) :
      Conflicts alignment earlier r (.misaligned r.path address alignment)
  | overflow {address : Nat} (haddress : r.address = .fixed address)
      (haligned : alignment ∣ address) (hsize : r.size = 0 ∨ wordLimit < address + r.size) :
      Conflicts alignment earlier r (.overflow r.path address r.size)
  | overlap {address other : Nat} {pre : List Request} {q : Request}
      (haddress : r.address = .fixed address) (haligned : alignment ∣ address)
      (hpos : 1 ≤ r.size) (hfits : address + r.size ≤ wordLimit)
      (hfirst : IsFirst (fun _ q => r.Meets q) earlier pre q) (hother : q.address = .fixed other) :
      Conflicts alignment earlier r
        (.overlap r.path (.ofSize address r.size) q.path (.ofSize other q.size))

/-- The range that a fixed request asks for, as it is placed. -/
def placement? (r : Request) : Option Placement :=
  r.address.fixed?.map fun address => ⟨r.path, .ofSize address r.size⟩

variable {alignment address n : Nat} {earlier : List Request} {r q : Request}

theorem asks_iff_mem (haddress : r.address = .fixed address) (hpos : 1 ≤ r.size) :
    r.Asks n ↔ n ∈ Interval.ofSize address r.size := by
  rw [Interval.mem_def, Interval.first_ofSize, Interval.last_ofSize]
  constructor
  · rintro ⟨address', haddress', hle, hlt⟩
    rw [haddress] at haddress'
    cases haddress'
    omega
  · rintro ⟨hle, hlt⟩
    exact ⟨address, haddress, hle, by omega⟩

theorem meets_iff_overlaps {other : Nat} (haddress : r.address = .fixed address)
    (hpos : 1 ≤ r.size) (hother : q.address = .fixed other) (hqpos : 1 ≤ q.size) :
    r.Meets q ↔ (Interval.ofSize other q.size).Overlaps (.ofSize address r.size) := by
  rw [Interval.overlaps_iff (Nat.le_add_right _ _) (Nat.le_add_right _ _)]
  apply exists_congr
  intro n
  rw [asks_iff_mem haddress hpos, asks_iff_mem hother hqpos, and_comm]

/-- There is something to say of a request exactly when it is a culprit. -/
theorem exists_conflicts_iff :
    (∃ cause, r.Conflicts alignment earlier cause) ↔ r.IsCulprit alignment earlier := by
  constructor
  · rintro ⟨cause, hconflicts⟩
    cases hconflicts with
    | misaligned haddress hodd => exact Or.inl ⟨_, haddress, Or.inl hodd⟩
    | overflow haddress _ hsize => exact Or.inl ⟨_, haddress, Or.inr hsize⟩
    | overlap _ _ _ _ hfirst _ =>
      obtain ⟨post, rfl⟩ := hfirst.split
      exact Or.inr ⟨_, List.mem_append_cons_self, hfirst.holds⟩
  · rintro (⟨address, haddress, hunfit⟩ | ⟨q, hq, hmeets⟩)
    · by_cases haligned : alignment ∣ address
      · exact ⟨_, .overflow haddress haligned (hunfit.resolve_left (not_not.2 haligned))⟩
      · exact ⟨_, .misaligned haddress haligned⟩
    -- The request asks for some address, so that it is for a fixed one.
    · obtain ⟨n, ⟨address, haddress, hle, hlt⟩, -⟩ := id hmeets
      by_cases haligned : alignment ∣ address
      · by_cases hfits : address + r.size ≤ wordLimit
        · obtain ⟨before, after, rfl⟩ := List.append_of_mem hq
          obtain ⟨pre, q', hfirst⟩ := exists_isFirst (p := fun _ q => r.Meets q) rfl hmeets
          obtain ⟨m, -, other, hother, -⟩ := hfirst.holds
          exact ⟨_, .overlap haddress haligned (by omega) hfits hfirst hother⟩
        · exact ⟨_, .overflow haddress haligned (Or.inr (Nat.lt_of_not_le hfits))⟩
      · exact ⟨_, .misaligned haddress haligned⟩

theorem exists_address_of_isCulprit (h : r.IsCulprit alignment earlier) :
    ∃ address, r.address = .fixed address := by
  rcases h with ⟨address, haddress, -⟩ | ⟨q, -, n, ⟨address, haddress, -⟩, -⟩
  · exact ⟨address, haddress⟩
  · exact ⟨address, haddress⟩

theorem not_isCulprit_of_auto (haddress : r.address = .auto) : ¬ r.IsCulprit alignment earlier := by
  intro h
  obtain ⟨address, hfixed⟩ := exists_address_of_isCulprit h
  rw [haddress] at hfixed
  cases hfixed

theorem placement?_of_fixed (haddress : r.address = .fixed address) :
    r.placement? = some ⟨r.path, .ofSize address r.size⟩ := by
  rw [placement?, haddress]
  rfl

theorem placement?_of_auto (haddress : r.address = .auto) : r.placement? = none := by
  rw [placement?, haddress]
  rfl

end Request

/-! ## First pass -/

namespace Allocator

variable {a b : Allocator} {alignment address : Nat} {earlier rs : List Request} {r : Request}

/-- The allocator has served the fixed requests among the earlier ones, none of which is unfit. -/
structure Holds (a : Allocator) (alignment : Nat) (earlier : List Request) : Prop where
  alignment_eq : a.alignment = alignment
  placed_eq : a.placed = earlier.filterMap Request.placement?
  fit : ∀ q ∈ earlier, ¬ q.IsUnfit alignment

theorem holds_empty (alignmentBits : Nat) :
    (empty alignmentBits).Holds (1 <<< alignmentBits) [] where
  alignment_eq := rfl
  placed_eq := rfl
  fit := by simp

namespace Holds

/-- An open request leaves the state of the first pass as it is. -/
theorem concat_of_auto (h : a.Holds alignment earlier) (haddress : r.address = .auto) :
    a.Holds alignment (earlier ++ [r]) where
  alignment_eq := h.alignment_eq
  placed_eq := by simp [h.placed_eq, Request.placement?_of_auto haddress]
  fit := by
    intro q hq
    rcases List.mem_append.1 hq with hq | hq
    · exact h.fit q hq
    · cases List.mem_singleton.1 hq
      intro hunfit
      exact Request.not_isCulprit_of_auto haddress (Or.inl hunfit : r.IsCulprit alignment [])

/-- An earlier request is in the way of a range exactly when it meets the request for it. -/
theorem exists_overlaps_iff (h : a.Holds alignment earlier)
    (haddress : r.address = .fixed address) (hpos : 1 ≤ r.size) {q : Request} (hq : q ∈ earlier) :
    (∃ p, q.placement? = some p ∧ p.range.Overlaps (.ofSize address r.size)) ↔ r.Meets q := by
  cases hother : q.address with
  | auto =>
    rw [Request.placement?_of_auto hother]
    constructor
    · rintro ⟨p, hp, -⟩
      cases hp
    · rintro ⟨n, -, other, hfixed, -⟩
      rw [hother] at hfixed
      cases hfixed
  | fixed other =>
    have hqpos : 1 ≤ q.size := by
      by_contra hzero
      exact h.fit q hq ⟨other, hother, Or.inr (Or.inl (by omega))⟩
    rw [Request.placement?_of_fixed hother, Request.meets_iff_overlaps haddress hpos hother hqpos]
    constructor
    · rintro ⟨p, hp, hoverlaps⟩
      cases hp
      exact hoverlaps
    · intro hoverlaps
      exact ⟨_, rfl, hoverlaps⟩

/-- The first placement that is in the way belongs to the first request that is met. -/
theorem exists_isFirst_of_blocker? (h : a.Holds alignment earlier)
    (haddress : r.address = .fixed address) (hpos : 1 ≤ r.size) {p : Placement}
    (hp : a.blocker? (.ofSize address r.size) = some p) :
    ∃ pre q other, IsFirst (fun _ q => r.Meets q) earlier pre q ∧ q.address = .fixed other ∧
      p = ⟨q.path, .ofSize other q.size⟩ := by
  rw [blocker?, h.placed_eq, List.find?_filterMap, Option.bind_eq_some_iff] at hp
  obtain ⟨q, hfind, hplacement⟩ := hp
  obtain ⟨hany, pre, post, hsplit, hpre⟩ := List.find?_eq_some_iff_append.1 hfind
  simp only [Option.any_eq_true, decide_eq_true_eq] at hany
  simp only [Bool.not_eq_true', Option.any_eq_false, decide_eq_false_iff_not] at hpre
  have hmeets := (h.exists_overlaps_iff haddress hpos (List.mem_of_find?_eq_some hfind)).1 hany
  obtain ⟨n, -, other, hother, -⟩ := id hmeets
  rw [Request.placement?_of_fixed hother, Option.some.injEq] at hplacement
  refine ⟨pre, q, other, ⟨⟨post, hsplit⟩, hmeets, ?_⟩, hother, hplacement.symm⟩
  rintro before y after rfl hy
  have hymem : y ∈ before ++ y :: after := List.mem_append_cons_self
  have hyearlier : y ∈ earlier := hsplit ▸ List.mem_append_left _ hymem
  obtain ⟨p', hp', hoverlaps⟩ := (h.exists_overlaps_iff haddress hpos hyearlier).2 hy
  exact hpre y hymem p' hp' hoverlaps

/-- A fixed request that fails is in conflict with the earlier ones, and named as such. -/
theorem conflicts_of_placeAt (h : a.Holds alignment earlier)
    (haddress : r.address = .fixed address) {cause : Conflict}
    (hp : a.placeAt r.path address r.size = (.error cause, b)) :
    r.Conflicts alignment earlier cause := by
  rcases placeAt_eq_error hp with ⟨hodd, rfl⟩ | ⟨haligned, hsize, rfl⟩ |
    ⟨haligned, hpos, hfits, p, hblocker, rfl⟩
  · rw [h.alignment_eq] at hodd ⊢
    exact .misaligned haddress hodd
  · rw [h.alignment_eq] at haligned
    exact .overflow haddress haligned hsize
  · rw [h.alignment_eq] at haligned
    obtain ⟨pre, q, other, hfirst, hother, rfl⟩ :=
      h.exists_isFirst_of_blocker? haddress hpos hblocker
    exact .overlap haddress haligned hpos hfits hfirst hother

/-- A fixed request that succeeds is no culprit, and is held with the earlier ones. -/
theorem concat_of_placeAt (h : a.Holds alignment earlier) (haddress : r.address = .fixed address)
    {range : Interval} (hp : a.placeAt r.path address r.size = (.ok range, b)) :
    ¬ r.IsCulprit alignment earlier ∧ b.Holds alignment (earlier ++ [r]) := by
  obtain ⟨haligned, hpos, hfits, rfl, hfree, rfl⟩ := placeAt_eq_ok_iff.1 hp
  rw [h.alignment_eq] at haligned
  have hfit : ¬ r.IsUnfit alignment := by
    rintro ⟨address', haddress', hunfit⟩
    rw [haddress] at haddress'
    cases haddress'
    omega
  refine ⟨?_, h.alignment_eq, ?_, ?_⟩
  · rintro (hunfit | ⟨q, hq, hmeets⟩)
    · exact hfit hunfit
    · obtain ⟨p, hplacement, hoverlaps⟩ := (h.exists_overlaps_iff haddress hpos hq).2 hmeets
      refine hfree p ?_ hoverlaps
      rw [h.placed_eq]
      exact List.mem_filterMap.2 ⟨q, hq, hplacement⟩
  · rw [placed_commit, h.placed_eq, List.filterMap_append,
      List.filterMap_cons_some (Request.placement?_of_fixed haddress), List.filterMap_nil]
  · simpa [or_imp, forall_and] using ⟨h.fit, hfit⟩

end Holds

/-- The first pass ends with what is said of the first culprit, if there is one. -/
theorem stopsAtFirst_placeFixed (h : a.Holds alignment earlier) (rs : List Request) :
    StopsAtFirst (fun pre r => r.Conflicts alignment (earlier ++ pre)) rs (a.placeFixed rs) := by
  -- What is held varies: each request joins the earlier ones of those after it.
  induction rs generalizing a earlier with
  | nil => exact .nil _
  | cons r rs ih =>
    have hrest : ∀ {b : Allocator}, b.Holds alignment (earlier ++ [r]) →
        StopsAtFirst (fun pre q => q.Conflicts alignment (earlier ++ r :: pre)) rs
          (b.placeFixed rs) := by
      intro b hb
      simpa only [List.append_assoc, List.singleton_append] using ih hb
    have hnone : ¬ r.IsCulprit alignment earlier →
        ∀ cause, ¬ r.Conflicts alignment (earlier ++ []) cause := by
      intro hculprit cause hconflicts
      rw [List.append_nil] at hconflicts
      exact hculprit (Request.exists_conflicts_iff.1 ⟨cause, hconflicts⟩)
    cases haddress : r.address with
    | auto =>
      rw [placeFixed, haddress]
      exact .tail (hnone (Request.not_isCulprit_of_auto haddress))
        (hrest (h.concat_of_auto haddress)) _
    | fixed address =>
      rw [placeFixed, haddress]
      dsimp only
      cases hplace : a.placeAt r.path address r.size with
      | mk served b =>
        cases served with
        | error cause =>
          apply StopsAtFirst.head
          rw [List.append_nil]
          exact h.conflicts_of_placeAt haddress hplace
        | ok range =>
          obtain ⟨hculprit, hb⟩ := h.concat_of_placeAt haddress hplace
          exact .tail (hnone hculprit) (hrest hb) _

end Allocator

end BusMap
