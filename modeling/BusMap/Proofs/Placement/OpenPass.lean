import BusMap.Proofs.Placement.Layout

/-!
# Overruns of open requests

Open requests are placed one after the other above all fixed ones, each from the first aligned
address on that is free. Numbers without a limit say where that is (`openTop` above `fixedTop`), and
a request overruns when its range then ends beyond the last address (`Request.Overruns`). The second
pass ends with the first request that overruns, and passes when there is none
(`Allocator.stopsAtFirst_placeOpen`).
-/

set_option autoImplicit false

namespace BusMap

/-! ## Where open requests go -/

/-- The least multiple of the alignment from `n` on. -/
def roundUp (alignment n : Nat) : Nat := (n + alignment - 1) / alignment * alignment

theorem le_roundUp {alignment : Nat} (hpos : 0 < alignment) (n : Nat) : n ≤ roundUp alignment n :=
  (isLeast_roundUp hpos n).1.1

theorem roundUp_le {alignment n m : Nat} (hpos : 0 < alignment) (hnm : n ≤ m)
    (hdvd : alignment ∣ m) : roundUp alignment n ≤ m :=
  (isLeast_roundUp hpos n).2 ⟨hnm, hdvd⟩

/-- First address above a request, when an open one is placed above `free`. A fixed one takes
nothing there. -/
def Request.freeAfter (alignment free : Nat) (r : Request) : Nat :=
  match r.address with
  | .auto => roundUp alignment free + r.size
  | .fixed _ => free

theorem Request.freeAfter_of_auto {alignment free : Nat} {r : Request}
    (haddress : r.address = .auto) :
    r.freeAfter alignment free = roundUp alignment free + r.size := by
  rw [freeAfter, haddress]

theorem Request.freeAfter_of_fixed {alignment address free : Nat} {r : Request}
    (haddress : r.address = .fixed address) : r.freeAfter alignment free = free := by
  rw [freeAfter, haddress]

/-- First address above the open requests, when they are placed one after the other above `free`. -/
def openTop (alignment free : Nat) (requests : List Request) : Nat :=
  requests.foldl (Request.freeAfter alignment) free

/-- First address above the range of a fixed request. -/
def Request.fixedEnd (r : Request) : Nat :=
  match r.address with
  | .auto => 0
  | .fixed address => address + r.size

/-- First address above the ranges of all fixed requests. -/
def fixedTop (requests : List Request) : Nat := (requests.map Request.fixedEnd).foldr max 0

/-- The open request has no range above `free`: it asks for no address, or for one beyond the
last. -/
def Request.Overruns (alignment free : Nat) (r : Request) : Prop :=
  r.address = .auto ∧ (r.size = 0 ∨ wordLimit < roundUp alignment free + r.size)

theorem isLeast_fixedTop (requests : List Request) :
    IsLeast {n | ∀ r ∈ requests, r.fixedEnd ≤ n} (fixedTop requests) := by
  induction requests with
  | nil => exact ⟨by simp, fun n _ => Nat.zero_le n⟩
  | cons r rs ih =>
    have heq : fixedTop (r :: rs) = max r.fixedEnd (fixedTop rs) := rfl
    rw [heq]
    refine ⟨?_, ?_⟩
    · refine List.forall_mem_cons.2 ⟨Nat.le_max_left _ _, fun q hq => ?_⟩
      exact (ih.1 q hq).trans (Nat.le_max_right _ _)
    · intro n hn
      obtain ⟨hr, hrs⟩ := List.forall_mem_cons.1 hn
      exact max_le hr (ih.2 hrs)

namespace Allocator

variable {a b : Allocator} {alignment size : Nat} {rs : List Request} {r : Request}

/-- First address above all ranges, which may be the one after the last address. -/
def top (a : Allocator) : Nat := a.nextFree?.getD wordLimit

theorem alignUp?_eq (a : Allocator) (n : Nat) :
    a.alignUp? n =
      if roundUp a.alignment n < wordLimit then some (roundUp a.alignment n) else none := rfl

/-- The range of an open request starts at the least multiple of the alignment from the top on. -/
theorem nextRange?_eq (a : Allocator) (size : Nat) :
    a.nextRange? size = Interval.ofSize? (roundUp a.alignment a.top) size := by
  have hround := le_roundUp a.alignment_pos a.top
  rw [top] at hround ⊢
  rw [nextRange?]
  cases hfree : a.nextFree? with
  | none =>
    rw [hfree, Option.getD_none] at hround
    rw [Option.bind_none, Option.getD_none, eq_comm, Interval.ofSize?_eq_none_iff]
    omega
  | some free =>
    rw [Option.bind_some, Option.getD_some, alignUp?_eq]
    split
    · rfl
    · rw [Option.bind_none, eq_comm, Interval.ofSize?_eq_none_iff]
      omega

namespace WellPlaced

/-- The top is the least address above all ranges. -/
theorem isLeast_top (h : a.WellPlaced) :
    IsLeast {n | ∀ p ∈ a.placed, p.range.last < n} a.top := by
  have hfrontier := h.frontier
  rw [top]
  cases hfree : a.nextFree? with
  | none =>
    rw [hfree] at hfrontier
    obtain ⟨p, hp, hlast⟩ := hfrontier
    refine ⟨h.inside, fun n hn => ?_⟩
    have hlt := hn p hp
    rw [Option.getD_none]
    omega
  | some free =>
    rw [hfree] at hfrontier
    exact hfrontier.1

/-- A conflict of an open request names the top, or the last address when that is taken. -/
theorem getD_nextFree? (h : a.WellPlaced) :
    a.nextFree?.getD (wordLimit - 1) = min a.top (wordLimit - 1) := by
  have hfrontier := h.frontier
  rw [top]
  cases hfree : a.nextFree? with
  | none => exact (Nat.min_eq_right (Nat.sub_le _ _)).symm
  | some free =>
    rw [hfree] at hfrontier
    have hlt : free < wordLimit := hfrontier.2
    rw [Option.getD_some, Option.getD_some, Nat.min_eq_left (by omega)]

/-- An open request that is served has the top at the end of its range. -/
theorem top_of_placeNext (h : a.WellPlaced) {path : EntityPath} {range : Interval}
    (hp : a.placeNext path size = (.ok range, b)) :
    b.top = roundUp a.alignment a.top + size := by
  obtain ⟨hrange, rfl⟩ := placeNext_eq_ok_iff.1 hp
  have hb := (h.placeNext hp).isLeast_top
  rw [nextRange?_eq, Interval.ofSize?_eq_some_iff] at hrange
  obtain ⟨hpos, -, rfl⟩ := hrange
  refine hb.unique ⟨?_, ?_⟩
  · intro p hp
    rcases List.mem_append.1 hp with hp | hp
    · have hlt := h.isLeast_top.1 p hp
      have hround := le_roundUp a.alignment_pos a.top
      omega
    · cases List.mem_singleton.1 hp
      rw [Interval.last_ofSize]
      omega
  · intro n hn
    have hlt := hn ⟨path, .ofSize (roundUp a.alignment a.top) size⟩ (by simp)
    rw [Interval.last_ofSize] at hlt
    omega

end WellPlaced

/-- An open request that fails has no range above the top. -/
theorem overruns_of_placeNext (h : a.WellPlaced) (haddress : r.address = .auto) {cause : Conflict}
    (hp : a.placeNext r.path r.size = (.error cause, b)) :
    r.Overruns a.alignment a.top ∧
      cause = .overflow r.path (min a.top (wordLimit - 1)) r.size := by
  rw [placeNext] at hp
  split at hp
  case h_1 hnone =>
    cases hp
    rw [nextRange?_eq, Interval.ofSize?_eq_none_iff] at hnone
    rw [h.getD_nextFree?]
    exact ⟨⟨haddress, hnone⟩, rfl⟩
  case h_2 => cases hp

/-- An open request that is served has its range above the top. -/
theorem not_overruns_of_placeNext {range : Interval}
    (hp : a.placeNext r.path r.size = (.ok range, b)) : ¬ r.Overruns a.alignment a.top := by
  rintro ⟨-, hsize⟩
  have hrange := (placeNext_eq_ok_iff.1 hp).1
  rw [nextRange?_eq, Interval.ofSize?_eq_some_iff] at hrange
  omega

/-- The second pass ends with the first open request that overruns, if there is one. -/
theorem stopsAtFirst_placeOpen {marks : List (Option Interval)} (h : a.WellPlaced)
    (halignment : a.alignment = alignment) (hmarks : List.Forall₂ (IsMark alignment) rs marks) :
    StopsAtFirst (fun pre r cause => r.Overruns alignment (openTop alignment a.top pre) ∧
      cause = .overflow r.path (min (openTop alignment a.top pre) (wordLimit - 1)) r.size)
      rs (a.placeOpen (rs.zip marks)) := by
  induction hmarks generalizing a with
  | nil => exact .nil _
  | @cons r mark rs marks hmark hrest ih =>
    subst halignment
    cases mark with
    | none =>
      have hauto : r.address = .auto := hmark
      rw [List.zip_cons_cons, placeOpen]
      cases hplace : a.placeNext r.path r.size with
      | mk served b =>
        cases served with
        | error cause => exact .head (overruns_of_placeNext h hauto hplace)
        | ok range =>
          have htop : b.top = r.freeAfter a.alignment a.top := by
            rw [Request.freeAfter_of_auto hauto, h.top_of_placeNext hplace]
          have hb := ih (h.placeNext hplace) (by rw [(placeNext_eq_ok_iff.1 hplace).2]; rfl)
          rw [htop] at hb
          refine .tail (fun cause hoverruns => ?_) hb _
          exact not_overruns_of_placeNext hplace hoverruns.1
    | some range =>
      obtain ⟨address, hfixed, -⟩ := hmark
      have htop : r.freeAfter a.alignment a.top = a.top := Request.freeAfter_of_fixed hfixed
      have hb := ih h rfl
      rw [List.zip_cons_cons, placeOpen]
      rw [← htop] at hb
      refine .tail (fun cause hoverruns => ?_) hb _
      have hauto := hoverruns.1.1
      rw [hfixed] at hauto
      cases hauto

/-- What the first pass notes of a request bounds the same addresses as the request. -/
theorem fixedEnd_le_iff {mark : Option Interval} {n : Nat} (hmark : IsMark alignment r mark) :
    r.fixedEnd ≤ n ↔ ∀ range, mark = some range → range.last < n := by
  cases mark with
  | none =>
    have hauto : r.address = .auto := hmark
    simp [Request.fixedEnd, hauto]
  | some range =>
    obtain ⟨address, hfixed, -, hpos, -, rfl⟩ := hmark
    simp only [Request.fixedEnd, hfixed, Option.some.injEq, forall_eq', Interval.last_ofSize]
    omega

/-- What the first pass notes bounds the same addresses as the requests. -/
theorem forall_mem_reduceOption_iff {marks : List (Option Interval)} {n : Nat}
    (hmarks : List.Forall₂ (IsMark alignment) rs marks) :
    (∀ range ∈ marks.reduceOption, range.last < n) ↔ ∀ r ∈ rs, r.fixedEnd ≤ n := by
  induction hmarks with
  | nil => simp
  | @cons r mark rs marks hmark hrest ih =>
    rw [List.forall_mem_cons, ← ih, fixedEnd_le_iff hmark]
    cases mark <;> simp

/-- The first pass leaves the top above the fixed requests. -/
theorem top_of_placeFixed {alignmentBits : Nat} {marks : List (Option Interval)}
    (hp : (empty alignmentBits).placeFixed rs = .ok (marks, b)) : b.top = fixedTop rs := by
  obtain ⟨hb, -, hmarks, hranges⟩ := placeFixed_spec (wellPlaced_empty alignmentBits) hp
  have hranges : b.placed.map Placement.range = marks.reduceOption := hranges
  have hleast := hb.isLeast_top
  have hbounds : ∀ n, (∀ p ∈ b.placed, p.range.last < n) ↔ ∀ r ∈ rs, r.fixedEnd ≤ n := by
    intro n
    rw [← forall_mem_reduceOption_iff hmarks, ← hranges, List.forall_mem_map]
  simp only [hbounds] at hleast
  exact hleast.unique (isLeast_fixedTop rs)

end Allocator

end BusMap
