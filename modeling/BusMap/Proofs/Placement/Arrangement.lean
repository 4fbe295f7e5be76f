import BusMap.Proofs.Placement.Culprits
import Mathlib.Order.Fin.Basic

/-!
# Arrangements

An arrangement says where each request starts (`IsArrangement`). Its ranges are aligned, lie in the
address space and do not meet, fixed requests are where they ask to be, and open ones go upwards in
their order above all fixed ones. There may be room between them.

Requests can be placed as soon as they have an arrangement, and `place` finds the one in which every
request starts as low as in any (`place_eq_ok_iff`). What two lists of requests have to do with each
other can thus be told by their arrangements, without a look at the passes.
-/

set_option autoImplicit false

namespace BusMap

/-- An arrangement gives every request a start, so that each range is aligned and in the address
space, no two ranges meet, a fixed request is where it asks to be, and an open one is above all
fixed ones and above the open ones declared before it. It need not be tight. -/
structure IsArrangement (alignment : Nat) (requests : List Request)
    (start : Fin requests.length → Nat) : Prop where
  aligned : ∀ i, alignment ∣ start i
  inside : ∀ i, 1 ≤ (requests.get i).size ∧ start i + (requests.get i).size ≤ wordLimit
  apart : ∀ i j, i ≠ j →
    start i + (requests.get i).size ≤ start j ∨ start j + (requests.get j).size ≤ start i
  fixed : ∀ i address, (requests.get i).address = .fixed address → start i = address
  ordered : ∀ i j, (requests.get j).address = .auto → ((requests.get i).address = .auto → i < j) →
    start i + (requests.get i).size ≤ start j

/-- The ranges of an arrangement. -/
def arranged (requests : List Request) (start : Fin requests.length → Nat) : List Interval :=
  List.ofFn fun i => .ofSize (start i) (requests.get i).size

section Arrangements

variable {alignment alignmentBits : Nat} {requests : List Request}
  {start : Fin requests.length → Nat} {ranges : List Interval}

theorem getElem?_arranged (start : Fin requests.length → Nat) (i : Fin requests.length) :
    (arranged requests start)[i.val]? = some (.ofSize (start i) (requests.get i).size) := by
  simp [arranged]

/-- The request between two parts of a list has a place, and the first part is what stands before
it. -/
theorem exists_index_of_split {pre post : List Request} {r : Request}
    (hsplit : requests = pre ++ r :: post) :
    ∃ i : Fin requests.length, requests.get i = r ∧ requests.take i = pre := by
  refine ⟨⟨pre.length, by simp [hsplit]⟩, List.getElem_of_append hsplit rfl, ?_⟩
  exact (congrArg (List.take pre.length) hsplit).trans (List.take_left' rfl)

namespace IsArrangement

variable {others : List Request}

/-- Other requests of the same sizes can take over starts of an arrangement, when fixed ones find
their address there, and open ones nothing above them that is served before. -/
theorem comap (h : IsArrangement alignment requests start)
    (f : Fin others.length → Fin requests.length) (hinj : Function.Injective f)
    (hsize : ∀ i, (others.get i).size = (requests.get (f i)).size)
    (hfixed : ∀ i address, (others.get i).address = .fixed address → start (f i) = address)
    (hordered : ∀ i j, (others.get j).address = .auto → ((others.get i).address = .auto → i < j) →
      start (f i) + (requests.get (f i)).size ≤ start (f j)) :
    IsArrangement alignment others (start ∘ f) where
  aligned i := h.aligned (f i)
  inside i := by
    rw [hsize]
    exact h.inside (f i)
  apart i j hij := by
    rw [hsize, hsize]
    exact h.apart (f i) (f j) (hinj.ne hij)
  fixed := hfixed
  ordered i j hj hbefore := by
    rw [hsize]
    exact hordered i j hj hbefore

/-- A fixed request asks for addresses of its range only. -/
theorem mem_of_asks (h : IsArrangement alignment requests start) {i : Fin requests.length} {n : Nat}
    (hn : (requests.get i).Asks n) : start i ≤ n ∧ n < start i + (requests.get i).size := by
  obtain ⟨address, haddress, hle, hlt⟩ := hn
  rw [h.fixed i address haddress]
  exact ⟨hle, hlt⟩

theorem fixedEnd_le (h : IsArrangement alignment requests start) {i : Fin requests.length}
    {n : Nat} (hn : (requests.get i).address ≠ .auto → start i + (requests.get i).size ≤ n) :
    (requests.get i).fixedEnd ≤ n := by
  rw [Request.fixedEnd]
  cases haddress : (requests.get i).address with
  | auto => exact Nat.zero_le n
  | fixed address =>
    rw [haddress, h.fixed i address haddress] at hn
    exact hn Address.noConfusion

theorem not_isUnfit (h : IsArrangement alignment requests start) (i : Fin requests.length) :
    ¬ (requests.get i).IsUnfit alignment := by
  rintro ⟨address, haddress, hunfit⟩
  have haligned := h.aligned i
  obtain ⟨hpos, hfits⟩ := h.inside i
  rw [h.fixed i address haddress] at haligned hfits
  rcases hunfit with hodd | hzero | hbeyond
  · exact hodd haligned
  · exact absurd hzero (Nat.ne_of_gt hpos)
  · exact absurd hfits (Nat.not_le.2 hbeyond)

theorem not_meets (h : IsArrangement alignment requests start) {i j : Fin requests.length}
    (hij : i ≠ j) : ¬ (requests.get i).Meets (requests.get j) := by
  rintro ⟨n, hi, hj⟩
  have hi := h.mem_of_asks hi
  have hj := h.mem_of_asks hj
  have hapart := h.apart i j hij
  omega

/-- No fixed request of an arrangement is a culprit. -/
theorem not_isCulprit (h : IsArrangement alignment requests start) (i : Fin requests.length) :
    ¬ (requests.get i).IsCulprit alignment (requests.take i) := by
  rintro (hunfit | ⟨q, hq, hmeets⟩)
  · exact h.not_isUnfit i hunfit
  · obtain ⟨j, hj, rfl⟩ := List.mem_take_iff_getElem.1 hq
    have hlt : j < i.val := (Nat.lt_min.1 hj).1
    exact h.not_meets (j := ⟨j, hlt.trans i.isLt⟩) (Fin.ne_of_gt hlt) hmeets

/-- What is above all that is served before the request at a place is above the top up to there. -/
theorem openTop_take_le (h : IsArrangement alignment requests start) (hpos : 0 < alignment)
    {m n : Nat} (hm : m ≤ requests.length)
    (hn : ∀ i : Fin requests.length, ((requests.get i).address = .auto → i.val < m) →
      start i + (requests.get i).size ≤ n) :
    openTop alignment (fixedTop requests) (requests.take m) ≤ n := by
  -- The bound varies: the open request at place `m` bounds what is served before itself.
  induction m generalizing n with
  | zero =>
    apply (isLeast_fixedTop requests).2
    intro r hr
    obtain ⟨i, rfl⟩ := List.mem_iff_get.1 hr
    exact h.fixedEnd_le fun hfixed => hn i fun hauto => absurd hauto hfixed
  | succ m ih =>
    have hlt : m < requests.length := hm
    have htop : openTop alignment (fixedTop requests) (requests.take (m + 1)) =
        requests[m].freeAfter alignment
          (openTop alignment (fixedTop requests) (requests.take m)) := by
      rw [← List.take_append_getElem hlt, openTop, List.foldl_append]
      rfl
    rw [htop]
    cases haddress : requests[m].address with
    | fixed address =>
      rw [Request.freeAfter_of_fixed haddress]
      exact ih hlt.le fun i hi => hn i fun hauto => Nat.lt_succ_of_lt (hi hauto)
    | auto =>
      rw [Request.freeAfter_of_auto haddress]
      have hbefore := ih hlt.le fun i hi => h.ordered i ⟨m, hlt⟩ haddress hi
      have hround := roundUp_le hpos hbefore (h.aligned ⟨m, hlt⟩)
      have hend := hn ⟨m, hlt⟩ fun _ => Nat.lt_succ_self m
      exact (Nat.add_le_add_right hround _).trans hend

/-- No open request overruns that has a place in an arrangement. -/
theorem not_overruns (h : IsArrangement alignment requests start) (hpos : 0 < alignment)
    (i : Fin requests.length) :
    ¬ (requests.get i).Overruns alignment
      (openTop alignment (fixedTop requests) (requests.take i)) := by
  rintro ⟨hauto, hoverruns⟩
  have hbefore := h.openTop_take_le hpos i.isLt.le fun j hj => h.ordered j i hauto hj
  have hround := roundUp_le hpos hbefore (h.aligned i)
  obtain ⟨hsize, hfits⟩ := h.inside i
  omega

/-- Where there is an arrangement, requests can be placed. -/
theorem exists_place (h : IsArrangement (1 <<< alignmentBits) requests start) :
    ∃ ranges, place alignmentBits requests = .ok ranges := by
  have hpos : 0 < 1 <<< alignmentBits := (Allocator.empty alignmentBits).alignment_pos
  refine place_of_not_overruns ?_ ?_
  · intro pre r post hsplit
    obtain ⟨i, rfl, rfl⟩ := exists_index_of_split hsplit
    exact h.not_isCulprit i
  · intro pre r post hsplit
    obtain ⟨i, rfl, rfl⟩ := exists_index_of_split hsplit
    exact h.not_overruns hpos i

end IsArrangement

namespace TwoPass

variable {marks : List (Option Interval)}

/-- The ranges of a placement start somewhere, and have the sizes that are asked for. -/
theorem exists_eq_arranged (h : TwoPass alignment requests marks ranges) :
    ∃ start, ranges = arranged requests start := by
  have hlength := h.length_eq
  refine ⟨fun i => (ranges.get (i.cast hlength.symm)).first, List.ext_getElem ?_ ?_⟩
  · exact hlength.trans List.length_ofFn.symm
  · intro i hi hi'
    obtain ⟨-, -, -, heq⟩ := h.eq_ofSize (List.getElem?_eq_getElem (hlength ▸ hi))
      (List.getElem?_eq_getElem hi)
    simpa [arranged] using heq

/-- The starts of a placement are an arrangement. -/
theorem isArrangement (h : TwoPass alignment requests marks (arranged requests start)) :
    IsArrangement alignment requests start := by
  have hrequest : ∀ i : Fin requests.length, requests[i.val]? = some (requests.get i) :=
    fun i => List.getElem?_eq_getElem i.isLt
  have hspec := fun i => h.eq_ofSize (hrequest i) (getElem?_arranged start i)
  constructor
  case aligned => exact fun i => (hspec i).1
  case inside => exact fun i => ⟨(hspec i).2.1, (hspec i).2.2.1⟩
  case apart =>
    intro i j hij
    have hapart : ¬ (Interval.ofSize (start i) (requests.get i).size).Overlaps
        (.ofSize (start j) (requests.get j).size) := by
      rcases Nat.lt_or_gt_of_ne (Fin.val_ne_of_ne hij) with hlt | hgt
      · exact h.not_overlaps hlt (getElem?_arranged start i) (getElem?_arranged start j)
      · rw [Interval.overlaps_comm]
        exact h.not_overlaps hgt (getElem?_arranged start j) (getElem?_arranged start i)
    have hi := (hspec i).2.1
    have hj := (hspec j).2.1
    rw [Interval.Overlaps, Interval.first_ofSize, Interval.last_ofSize, Interval.first_ofSize,
      Interval.last_ofSize] at hapart
    omega
  case fixed =>
    intro i address haddress
    obtain ⟨address', haddress', -, -, -, heq⟩ :=
      h.isMark_of_fixed (hrequest i) haddress (getElem?_arranged start i)
    rw [haddress] at haddress'
    cases haddress'
    exact congrArg Interval.first heq
  case ordered =>
    intro i j hj hbefore
    have hleast := h.isLeast_of_auto (hrequest j) hj (getElem?_arranged start j)
    have hbelow := hleast.1.2 i _ _ (hrequest i) (getElem?_arranged start i) hbefore
    have hi := (hspec i).2.1
    rw [Interval.last_ofSize, Interval.first_ofSize] at hbelow
    omega

/-- No arrangement has a request below the place where it is placed. -/
theorem start_le (h : TwoPass alignment requests marks (arranged requests start))
    {other : Fin requests.length → Nat} (hother : IsArrangement alignment requests other)
    (i : Fin requests.length) : start i ≤ other i := by
  have hrequest : ∀ i : Fin requests.length, requests[i.val]? = some (requests.get i) :=
    fun i => List.getElem?_eq_getElem i.isLt
  have hfixed : ∀ i address, (requests.get i).address = .fixed address → start i ≤ other i := by
    intro i address haddress
    rw [h.isArrangement.fixed i address haddress, hother.fixed i address haddress]
  -- An open request is the least above what is served before it, and that is no higher up here
  -- than in the other arrangement.
  induction i using WellFoundedLT.induction with
  | ind i ih =>
    cases haddress : (requests.get i).address with
    | fixed address => exact hfixed i address haddress
    | auto =>
      have hleast := h.isLeast_of_auto (hrequest i) haddress (getElem?_arranged start i)
      refine hleast.2 ⟨hother.aligned i, ?_⟩
      intro j q range hq hrange hbefore
      obtain ⟨hj, rfl⟩ := List.getElem?_eq_some_iff.1 hq
      rw [getElem?_arranged start ⟨j, hj⟩, Option.some.injEq] at hrange
      subst hrange
      have hle : start ⟨j, hj⟩ ≤ other ⟨j, hj⟩ := by
        cases haddress' : (requests.get ⟨j, hj⟩).address with
        | fixed address => exact hfixed ⟨j, hj⟩ address haddress'
        | auto => exact ih ⟨j, hj⟩ (hbefore haddress')
      have hpos := (hother.inside ⟨j, hj⟩).1
      have hend := hother.ordered ⟨j, hj⟩ i haddress hbefore
      rw [Interval.last_ofSize]
      omega

end TwoPass

/-- What is placed is the least arrangement. -/
theorem exists_isLeast_of_place (h : place alignmentBits requests = .ok ranges) :
    ∃ start, IsLeast {start | IsArrangement (1 <<< alignmentBits) requests start} start ∧
      ranges = arranged requests start := by
  obtain ⟨marks, hpasses⟩ := exists_twoPass h
  obtain ⟨start, rfl⟩ := hpasses.exists_eq_arranged
  exact ⟨start, ⟨hpasses.isArrangement, fun _ hother => hpasses.start_le hother⟩, rfl⟩

/-- **A placement is the least arrangement**, and exists as soon as there is any. -/
theorem place_eq_ok_iff :
    place alignmentBits requests = .ok ranges ↔
      ∃ start, IsLeast {start | IsArrangement (1 <<< alignmentBits) requests start} start ∧
        ranges = arranged requests start := by
  refine ⟨exists_isLeast_of_place, ?_⟩
  rintro ⟨start, hleast, rfl⟩
  obtain ⟨ranges, hranges⟩ := hleast.1.exists_place
  obtain ⟨start', hleast', rfl⟩ := exists_isLeast_of_place hranges
  rw [hranges, hleast.unique hleast']

end Arrangements

end BusMap
