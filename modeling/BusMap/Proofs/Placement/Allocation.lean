import BusMap.Placement
import BusMap.Proofs.Outcome
import Mathlib.Order.Bounds.Basic

/-!
# Invariant of the allocator

An allocator is well placed when its ranges are aligned, lie in the address space and do not meet,
and when its next free address is the least one above all of them, with none left exactly when some
range ends at the last address. The empty allocator is well placed, every request that succeeds
keeps it so (`WellPlaced.serve`), and one that fails changes nothing. Hence the state after any run
of requests is well placed (`WellPlaced.run`, `run_invariant`).

A range for an open request is taken without a look at the ranges before it. That it meets none of
them rests on the next free address (`WellPlaced.apart_nextRange`).
-/

set_option autoImplicit false

namespace BusMap

/-! ## Rounding up -/

/-- Rounding up to a multiple gives the least multiple from a number on. -/
theorem isLeast_roundUp {k : Nat} (hk : 0 < k) (n : Nat) :
    IsLeast {m | n ≤ m ∧ k ∣ m} ((n + k - 1) / k * k) := by
  have hdiv := Nat.div_add_mod (n + k - 1) k
  have hmod := Nat.mod_lt (n + k - 1) hk
  rw [Nat.mul_comm] at hdiv
  refine ⟨⟨by omega, Nat.dvd_mul_left k _⟩, ?_⟩
  rintro m ⟨hnm, q, rfl⟩
  have hq : (n + k - 1) / k < q + 1 := by
    rw [Nat.div_lt_iff_lt_mul hk, Nat.add_mul, Nat.mul_comm q k]
    omega
  rw [Nat.mul_comm k q]
  exact Nat.mul_le_mul_right k (Nat.le_of_lt_succ hq)

namespace Allocator

/-! ## The operations -/

theorem alignment_pos (a : Allocator) : 0 < a.alignment := by
  rw [alignment, Nat.one_shiftLeft]
  exact Nat.two_pow_pos _

@[simp] theorem alignment_commit (a : Allocator) (path : EntityPath) (range : Interval) :
    (a.commit path range).alignment = a.alignment := rfl

@[simp] theorem placed_commit (a : Allocator) (path : EntityPath) (range : Interval) :
    (a.commit path range).placed = a.placed ++ [⟨path, range⟩] := rfl

/-- Nothing stands in the way of a range exactly when no placed range overlaps it. -/
theorem blocker?_eq_none_iff {a : Allocator} {range : Interval} :
    a.blocker? range = none ↔ ∀ p ∈ a.placed, ¬ p.range.Overlaps range := by
  simp [blocker?, List.find?_eq_none]

theorem alignUp?_eq_some_iff {a : Allocator} {n m : Nat} :
    a.alignUp? n = some m ↔ IsLeast {s | n ≤ s ∧ a.alignment ∣ s} m ∧ m < wordLimit := by
  have hleast := isLeast_roundUp a.alignment_pos n
  rw [alignUp?]
  constructor
  · intro h
    obtain ⟨hlt, heq⟩ := Option.ite_none_right_eq_some.1 h
    cases heq
    exact ⟨hleast, hlt⟩
  · rintro ⟨hm, hlt⟩
    cases hleast.unique hm
    exact if_pos hlt

/-- Range of an open request: it starts at the least aligned address from the next free one on. -/
theorem nextRange?_eq_some_iff {a : Allocator} {size : Nat} {range : Interval} :
    a.nextRange? size = some range ↔
      ∃ free start, a.nextFree? = some free ∧
        IsLeast {s | free ≤ s ∧ a.alignment ∣ s} start ∧
        1 ≤ size ∧ start + size ≤ wordLimit ∧ range = Interval.ofSize start size := by
  simp only [nextRange?, Option.bind_eq_some_iff, alignUp?_eq_some_iff,
    Interval.ofSize?_eq_some_iff]
  constructor
  · rintro ⟨free, hfree, start, ⟨hstart, -⟩, hsize⟩
    exact ⟨free, start, hfree, hstart, hsize⟩
  · rintro ⟨free, start, hfree, hstart, hpos, hfits, hrange⟩
    exact ⟨free, hfree, start, ⟨hstart, by omega⟩, hpos, hfits, hrange⟩

/-- A fixed request succeeds exactly when its address is aligned and its range lies in the address
space and meets no other. -/
theorem placeAt_eq_ok_iff {a b : Allocator} {path : EntityPath} {address size : Nat}
    {range : Interval} :
    a.placeAt path address size = (.ok range, b) ↔
      a.alignment ∣ address ∧ 1 ≤ size ∧ address + size ≤ wordLimit ∧
        range = Interval.ofSize address size ∧ (∀ p ∈ a.placed, ¬ p.range.Overlaps range) ∧
        b = a.commit path range := by
  -- The cases are the four ways through the checks, of which one commits.
  rw [placeAt, Nat.dvd_iff_mod_eq_zero, ← blocker?_eq_none_iff]
  by_cases haligned : address % a.alignment = 0
  · rw [if_neg (not_not.2 haligned)]
    cases hsize : Interval.ofSize? address size with
    | none =>
      constructor
      · intro h
        cases h
      · rintro ⟨-, hpos, hfits, hrange, -⟩
        rw [Interval.ofSize?_eq_some_iff.2 ⟨hpos, hfits, hrange⟩] at hsize
        cases hsize
    | some r =>
      obtain ⟨hpos, hfits, rfl⟩ := Interval.ofSize?_eq_some_iff.1 hsize
      dsimp only
      cases hblocker : a.blocker? (Interval.ofSize address size) with
      | some other =>
        constructor
        · intro h
          cases h
        · rintro ⟨-, -, -, rfl, hfree, -⟩
          rw [hfree] at hblocker
          cases hblocker
      | none =>
        constructor
        · intro h
          cases h
          exact ⟨haligned, hpos, hfits, rfl, hblocker, rfl⟩
        · rintro ⟨-, -, -, rfl, -, rfl⟩
          rfl
  · rw [if_pos haligned]
    constructor
    · intro h
      cases h
    · rintro ⟨h, -⟩
      exact absurd h haligned

/-- An open request succeeds exactly when there is a range for it. -/
theorem placeNext_eq_ok_iff {a b : Allocator} {path : EntityPath} {size : Nat}
    {range : Interval} :
    a.placeNext path size = (.ok range, b) ↔
      a.nextRange? size = some range ∧ b = a.commit path range := by
  rw [placeNext]
  cases a.nextRange? size with
  | none =>
    constructor
    · intro h
      cases h
    · rintro ⟨h, -⟩
      cases h
  | some r =>
    constructor
    · intro h
      cases h
      exact ⟨rfl, rfl⟩
    · rintro ⟨h, rfl⟩
      cases h
      rfl

/-- A fixed request that fails leaves the allocator as it was, whichever check it fails. -/
theorem eq_of_placeAt_eq_error {a b : Allocator} {path : EntityPath} {address size : Nat}
    {cause : Conflict} (h : a.placeAt path address size = (.error cause, b)) : b = a := by
  rw [placeAt] at h
  split at h
  · cases h
    rfl
  · split at h
    · cases h
      rfl
    · split at h
      · cases h
        rfl
      · cases h

/-- A fixed request fails at the first check that it does not pass. -/
theorem placeAt_eq_error {a b : Allocator} {path : EntityPath} {address size : Nat}
    {cause : Conflict} (h : a.placeAt path address size = (.error cause, b)) :
    (¬ a.alignment ∣ address ∧ cause = .misaligned path address a.alignment) ∨
      (a.alignment ∣ address ∧ (size = 0 ∨ wordLimit < address + size) ∧
        cause = .overflow path address size) ∨
      (a.alignment ∣ address ∧ 1 ≤ size ∧ address + size ≤ wordLimit ∧
        ∃ p, a.blocker? (.ofSize address size) = some p ∧
          cause = .overlap path (.ofSize address size) p.path p.range) := by
  rw [placeAt] at h
  rw [Nat.dvd_iff_mod_eq_zero]
  split at h
  case isTrue hodd =>
    cases h
    exact Or.inl ⟨hodd, rfl⟩
  case isFalse haligned =>
    have haligned := not_not.1 haligned
    refine Or.inr ?_
    split at h
    case h_1 hnone =>
      cases h
      exact Or.inl ⟨haligned, Interval.ofSize?_eq_none_iff.1 hnone, rfl⟩
    case h_2 range hsome =>
      obtain ⟨hpos, hfits, rfl⟩ := Interval.ofSize?_eq_some_iff.1 hsome
      split at h
      case h_1 p hblocker =>
        cases h
        exact Or.inr ⟨haligned, hpos, hfits, p, hblocker, rfl⟩
      case h_2 => cases h

/-- An open request that fails leaves the allocator as it was. -/
theorem eq_of_placeNext_eq_error {a b : Allocator} {path : EntityPath} {size : Nat}
    {cause : Conflict} (h : a.placeNext path size = (.error cause, b)) : b = a := by
  rw [placeNext] at h
  split at h
  · cases h
    rfl
  · cases h

/-! ## The invariant -/

/-- What the next free address says of the placed ranges: it is the least address above all of
them, or there is none because one of them ends at the last address. -/
def IsFrontier (placed : List Placement) : Option Nat → Prop
  | none => ∃ p ∈ placed, p.range.last + 1 = wordLimit
  | some free => IsLeast {n | ∀ p ∈ placed, p.range.last < n} free ∧ free < wordLimit

/-- The ranges are aligned, lie in the address space and do not meet, and the next free address is
right. -/
structure WellPlaced (a : Allocator) : Prop where
  nonempty : ∀ p ∈ a.placed, p.range.first ≤ p.range.last
  inside : ∀ p ∈ a.placed, p.range.last < wordLimit
  aligned : ∀ p ∈ a.placed, a.alignment ∣ p.range.first
  apart : a.placed.Pairwise fun p q => ¬ p.range.Overlaps q.range
  frontier : IsFrontier a.placed a.nextFree?

theorem wellPlaced_empty (alignmentBits : Nat) : (empty alignmentBits).WellPlaced where
  nonempty := by simp [empty]
  inside := by simp [empty]
  aligned := by simp [empty]
  apart := by simp [empty]
  frontier := by
    refine ⟨⟨by simp [empty], fun n _ => Nat.zero_le n⟩, ?_⟩
    decide

variable {a b : Allocator}

/-- A request that succeeds takes exactly its range. -/
theorem eq_commit_of_serve {r : Request} {range : Interval} (hs : a.serve r = (.ok range, b)) :
    b = a.commit r.path range := by
  rw [serve] at hs
  cases haddress : r.address with
  | auto =>
    rw [haddress] at hs
    exact (placeNext_eq_ok_iff.1 hs).2
  | fixed address =>
    rw [haddress] at hs
    exact (placeAt_eq_ok_iff.1 hs).2.2.2.2.2

/-- A request that fails takes nothing. -/
theorem eq_of_serve_eq_error {r : Request} {cause : Conflict}
    (hs : a.serve r = (.error cause, b)) : b = a := by
  rw [serve] at hs
  cases haddress : r.address with
  | auto =>
    rw [haddress] at hs
    exact eq_of_placeNext_eq_error hs
  | fixed address =>
    rw [haddress] at hs
    exact eq_of_placeAt_eq_error hs

@[simp] theorem alignment_after (a : Allocator) (r : Request) :
    (a.after r).alignment = a.alignment := by
  rw [after]
  rcases hs : a.serve r with ⟨cause | range, b⟩
  · rw [eq_of_serve_eq_error hs]
  · rw [eq_commit_of_serve hs, alignment_commit]

@[simp] theorem alignment_run (a : Allocator) (rs : List Request) :
    (a.run rs).alignment = a.alignment := by
  induction rs generalizing a with
  | nil => rfl
  | cons r rs ih => exact (ih (a.after r)).trans (alignment_after a r)

namespace WellPlaced

/-- Taking a range moves the next free address above it, or leaves none. -/
theorem frontier_commit (h : a.WellPlaced) {path : EntityPath} {range : Interval}
    (hinside : range.last < wordLimit) :
    IsFrontier (a.commit path range).placed (a.commit path range).nextFree? := by
  -- A fixed range may lie below the next free address, which then stays where it is.
  have hold := h.frontier
  rw [placed_commit]
  show IsFrontier _ (a.nextFreeAfter range)
  rw [nextFreeAfter]
  cases hfree : a.nextFree? with
  | none =>
    rw [hfree] at hold
    obtain ⟨p, hp, hlast⟩ := hold
    exact ⟨p, List.mem_append_left _ hp, hlast⟩
  | some free =>
    rw [hfree] at hold
    obtain ⟨⟨habove, hleast⟩, hlt⟩ := hold
    dsimp only
    by_cases hlast : range.last + 1 < wordLimit
    · rw [if_pos hlast]
      refine ⟨⟨?_, ?_⟩, by omega⟩
      · intro p hp
        rcases List.mem_append.1 hp with hp | hp
        · exact lt_of_lt_of_le (habove p hp) (Nat.le_max_left _ _)
        · cases List.mem_singleton.1 hp
          exact Nat.le_max_right _ _
      · intro n hn
        have hfree : free ≤ n := hleast fun p hp => hn p (List.mem_append_left _ hp)
        have hrange : range.last < n := hn ⟨path, range⟩ (by simp)
        omega
    -- The range ends at the last address, and no address is free above it.
    · rw [if_neg hlast]
      exact ⟨⟨path, range⟩, by simp, by show range.last + 1 = wordLimit; omega⟩

/-- Taking an aligned range that meets no other keeps the allocator well placed. -/
theorem commit (h : a.WellPlaced) {path : EntityPath} {range : Interval}
    (hnonempty : range.first ≤ range.last) (hinside : range.last < wordLimit)
    (haligned : a.alignment ∣ range.first)
    (hfree : ∀ p ∈ a.placed, ¬ p.range.Overlaps range) : (a.commit path range).WellPlaced where
  nonempty := by
    simpa [or_imp, forall_and] using ⟨h.nonempty, hnonempty⟩
  inside := by
    simpa [or_imp, forall_and] using ⟨h.inside, hinside⟩
  aligned := by
    simpa [or_imp, forall_and] using ⟨h.aligned, haligned⟩
  apart := by
    simpa [List.pairwise_append] using ⟨h.apart, hfree⟩
  frontier := h.frontier_commit hinside

/-- The range of an open request starts above every range placed so far. -/
theorem last_lt_nextRange (h : a.WellPlaced) {size : Nat} {range : Interval}
    (hr : a.nextRange? size = some range) : ∀ p ∈ a.placed, p.range.last < range.first := by
  obtain ⟨free, start, hfree, hstart, -, -, rfl⟩ := nextRange?_eq_some_iff.1 hr
  have hfrontier := h.frontier
  rw [hfree] at hfrontier
  intro p hp
  exact lt_of_lt_of_le (hfrontier.1.1 p hp) hstart.1.1

/-- The range of an open request meets no range placed so far. -/
theorem apart_nextRange (h : a.WellPlaced) {size : Nat} {range : Interval}
    (hr : a.nextRange? size = some range) : ∀ p ∈ a.placed, ¬ p.range.Overlaps range := by
  intro p hp hoverlap
  exact absurd hoverlap.2 (Nat.not_le.2 (h.last_lt_nextRange hr p hp))

/-- The range of an open request starts at the least aligned address above all ranges so far. -/
theorem isLeast_nextRange (h : a.WellPlaced) {size : Nat} {range : Interval}
    (hr : a.nextRange? size = some range) :
    IsLeast {s | a.alignment ∣ s ∧ ∀ p ∈ a.placed, p.range.last < s} range.first := by
  -- The next free address is least above the ranges, and rounding up is least among multiples.
  have habove := h.last_lt_nextRange hr
  obtain ⟨free, start, hfree, hstart, -, -, rfl⟩ := nextRange?_eq_some_iff.1 hr
  have hfrontier := h.frontier
  rw [hfree] at hfrontier
  refine ⟨⟨hstart.1.2, habove⟩, ?_⟩
  rintro s ⟨haligned, hs⟩
  exact hstart.2 ⟨hfrontier.1.2 hs, haligned⟩

theorem placeAt (h : a.WellPlaced) {path : EntityPath} {address size : Nat} {range : Interval}
    (hp : a.placeAt path address size = (.ok range, b)) : b.WellPlaced := by
  obtain ⟨haligned, hpos, hfits, rfl, hfree, rfl⟩ := placeAt_eq_ok_iff.1 hp
  refine h.commit ?_ ?_ haligned hfree
  · exact Nat.le_add_right address _
  · rw [Interval.last_ofSize]
    omega

theorem placeNext (h : a.WellPlaced) {path : EntityPath} {size : Nat} {range : Interval}
    (hp : a.placeNext path size = (.ok range, b)) : b.WellPlaced := by
  obtain ⟨hr, rfl⟩ := placeNext_eq_ok_iff.1 hp
  have hfree := h.apart_nextRange hr
  obtain ⟨free, start, -, hstart, hpos, hfits, rfl⟩ := nextRange?_eq_some_iff.1 hr
  refine h.commit ?_ ?_ hstart.1.2 hfree
  · exact Nat.le_add_right start _
  · rw [Interval.last_ofSize]
    omega

/-! ## Runs -/

/-- A request that succeeds keeps the allocator well placed. -/
theorem serve (h : a.WellPlaced) {r : Request} {range : Interval}
    (hs : a.serve r = (.ok range, b)) : b.WellPlaced := by
  rw [Allocator.serve] at hs
  cases haddress : r.address with
  | auto =>
    rw [haddress] at hs
    exact h.placeNext hs
  | fixed address =>
    rw [haddress] at hs
    exact h.placeAt hs

/-- One request, failing or not, keeps the allocator well placed. -/
theorem after (h : a.WellPlaced) (r : Request) : (a.after r).WellPlaced := by
  rw [Allocator.after]
  rcases hs : a.serve r with ⟨cause | range, b⟩
  · rw [eq_of_serve_eq_error hs]
    exact h
  · exact h.serve hs

/-- A run of requests keeps the allocator well placed. -/
theorem run (h : a.WellPlaced) (rs : List Request) : (a.run rs).WellPlaced := by
  induction rs generalizing a with
  | nil => exact h
  | cons r rs ih => exact ih (h.after r)

/-! ## The next free address -/

theorem nextFree?_of_placed_eq_nil (h : a.WellPlaced) (hnil : a.placed = []) :
    a.nextFree? = some 0 := by
  have hfrontier := h.frontier
  rw [hnil] at hfrontier
  cases hfree : a.nextFree? with
  | none =>
    rw [hfree] at hfrontier
    obtain ⟨p, hp, -⟩ := hfrontier
    cases hp
  | some free =>
    rw [hfree] at hfrontier
    -- Every address is above no range at all, so the least of them is zero.
    have hzero : free ≤ 0 := hfrontier.1.2 fun p hp => absurd hp List.not_mem_nil
    rw [Nat.le_zero.1 hzero]

/-- There is no next free address exactly when some range ends at the last address. -/
theorem nextFree?_eq_none_iff (h : a.WellPlaced) :
    a.nextFree? = none ↔ ∃ p ∈ a.placed, p.range.last + 1 = wordLimit := by
  have hfrontier := h.frontier
  cases hfree : a.nextFree? with
  | none =>
    rw [hfree] at hfrontier
    exact ⟨fun _ => hfrontier, fun _ => rfl⟩
  | some free =>
    rw [hfree] at hfrontier
    constructor
    · intro hnone
      cases hnone
    · rintro ⟨p, hp, hlast⟩
      have hbelow := hfrontier.1.1 p hp
      have hlt := hfrontier.2
      omega

/-- While no range ends at the last address, the next free address follows the greatest end. -/
theorem nextFree?_eq_some_of_max (h : a.WellPlaced) {m : Nat}
    (hm : (a.placed.map fun p => p.range.last).max? = some m)
    (hbelow : ∀ p ∈ a.placed, p.range.last + 1 < wordLimit) : a.nextFree? = some (m + 1) := by
  have hfrontier := h.frontier
  obtain ⟨hmem, hmax⟩ := List.max?_eq_some_iff.1 hm
  obtain ⟨p, hp, rfl⟩ := List.mem_map.1 hmem
  cases hfree : a.nextFree? with
  | none =>
    obtain ⟨q, hq, hlast⟩ := h.nextFree?_eq_none_iff.1 hfree
    exact absurd hlast (Nat.ne_of_lt (hbelow q hq))
  | some free =>
    rw [hfree] at hfrontier
    have hle : free ≤ p.range.last + 1 := by
      apply hfrontier.1.2
      intro q hq
      exact Nat.lt_succ_of_le (hmax _ (List.mem_map_of_mem hq))
    have hlt := hfrontier.1.1 p hp
    rw [Nat.le_antisymm hle hlt]

end WellPlaced

/-- **Every run from the empty allocator keeps the invariant.** Its ranges do not meet, lie in the
address space and are aligned; the next free address is zero, follows the greatest end, or does not
exist; a request that fails leaves the state as it was, and one that succeeds adds exactly its
range; and the range of an open request meets none that is placed. -/
theorem run_invariant (alignmentBits : Nat) (requests : List Request) :
    let a := (empty alignmentBits).run requests
    (a.placed.Pairwise fun p q => ∀ n, n ∈ p.range → n ∉ q.range) ∧
    (∀ p ∈ a.placed, p.range.first ≤ p.range.last ∧ p.range.last < wordLimit ∧
      1 <<< alignmentBits ∣ p.range.first) ∧
    (a.placed = [] → a.nextFree? = some 0) ∧
    (∀ m, (a.placed.map fun p => p.range.last).max? = some m →
      (∀ p ∈ a.placed, p.range.last + 1 < wordLimit) → a.nextFree? = some (m + 1)) ∧
    (a.nextFree? = none ↔ ∃ p ∈ a.placed, p.range.last + 1 = wordLimit) ∧
    (∀ r cause b, a.serve r = (.error cause, b) → b = a) ∧
    (∀ r range b, a.serve r = (.ok range, b) → b.placed = a.placed ++ [⟨r.path, range⟩]) ∧
    ∀ size range, a.nextRange? size = some range →
      ∀ p ∈ a.placed, ¬ p.range.Overlaps range := by
  intro a
  -- All clauses are read off the invariant; only the failing request looks at the code again.
  have h : a.WellPlaced := (wellPlaced_empty alignmentBits).run requests
  have halignment : a.alignment = 1 <<< alignmentBits := alignment_run (empty alignmentBits) requests
  refine ⟨?_, ?_, h.nextFree?_of_placed_eq_nil, ?_, h.nextFree?_eq_none_iff, ?_, ?_, ?_⟩
  · refine h.apart.imp ?_
    intro p q hpq n hp hq
    exact hpq (Interval.overlaps_of_mem hp hq)
  · intro p hp
    rw [← halignment]
    exact ⟨h.nonempty p hp, h.inside p hp, h.aligned p hp⟩
  · intro m hm hbelow
    exact h.nextFree?_eq_some_of_max hm hbelow
  · intro r cause b hs
    exact eq_of_serve_eq_error hs
  · intro r range b hs
    rw [eq_commit_of_serve hs, placed_commit]
  · intro size range hr
    exact h.apart_nextRange hr

end Allocator

end BusMap
