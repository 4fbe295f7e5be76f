import BusMap.Proofs.Placement.Arrangement
import Mathlib.Data.List.OfFn

/-!
# Placements of related requests

What becomes of a placement when its requests change. Fixed requests can be declared anywhere
between the open ones (`place_reordered`), open ones can be given the addresses that they have got,
from the first one on (`place_freeze`), and any request can be dropped, which moves no fixed one and
no open one upwards (`place_subsequence`).

None of these looks at the passes. The least arrangement of the one list is carried over to the
other, as `place_eq_ok_iff` allows.
-/

set_option autoImplicit false

namespace BusMap

variable {alignment alignmentBits : Nat} {requests others : List Request}
  {start : Fin requests.length → Nat} {other : Fin others.length → Nat}

section SamePlaces

variable (e : Fin requests.length ≃ Fin others.length)

/-- Starts are an arrangement of other requests at the same places when those have the same sizes,
fixed ones find their address there, and open ones nothing above them that is served before. -/
theorem IsArrangement.map (h : IsArrangement alignment requests start)
    (hsize : ∀ i, (others.get (e i)).size = (requests.get i).size)
    (hfixed : ∀ i address, (others.get (e i)).address = .fixed address → start i = address)
    (hordered : ∀ i j, (others.get (e j)).address = .auto →
      ((others.get (e i)).address = .auto → e i < e j) →
        start i + (requests.get i).size ≤ start j) :
    IsArrangement alignment others (start ∘ e.symm) := by
  refine h.comap e.symm e.symm.injective ?_ ?_ ?_
  · intro i
    obtain ⟨i, rfl⟩ := e.surjective i
    simp only [e.symm_apply_apply]
    exact hsize i
  · intro i
    obtain ⟨i, rfl⟩ := e.surjective i
    simp only [e.symm_apply_apply]
    exact hfixed i
  · intro i j
    obtain ⟨i, rfl⟩ := e.surjective i
    obtain ⟨j, rfl⟩ := e.surjective j
    simp only [e.symm_apply_apply]
    exact hordered i j

/-- The least arrangement stays the least for other requests at the same places, when it is one for
them and each of theirs is one for the requests. -/
theorem place_eq_of_equiv
    (hleast : IsLeast {start | IsArrangement (1 <<< alignmentBits) requests start} start)
    (hothers : IsArrangement (1 <<< alignmentBits) others (start ∘ e.symm))
    (hback : ∀ other, IsArrangement (1 <<< alignmentBits) others other →
      IsArrangement (1 <<< alignmentBits) requests (other ∘ e)) :
    place alignmentBits others = .ok (arranged others (start ∘ e.symm)) := by
  refine place_eq_ok_iff.2 ⟨_, ⟨hothers, fun other hother i => ?_⟩, rfl⟩
  have hle := hleast.2 (hback other hother) (e.symm i)
  rwa [Function.comp_apply, e.apply_symm_apply] at hle

end SamePlaces

/-! ## Reordering -/

/-- The second list is the first one in another order, in which the open requests follow one another
as before. -/
structure IsReordering (requests others : List Request)
    (e : Fin requests.length ≃ Fin others.length) : Prop where
  same : ∀ i, others.get (e i) = requests.get i
  order : ∀ i j, (requests.get i).address = .auto → (requests.get j).address = .auto →
    i < j → e i < e j

namespace IsReordering

variable {e : Fin requests.length ≃ Fin others.length}

theorem lt_of_lt (h : IsReordering requests others e) {i j : Fin requests.length}
    (hi : (requests.get i).address = .auto) (hj : (requests.get j).address = .auto)
    (hlt : e i < e j) : i < j := by
  by_contra hle
  rcases (not_lt.1 hle).eq_or_lt with heq | hgt
  · rw [heq] at hlt
    exact lt_irrefl _ hlt
  · exact hlt.asymm (h.order j i hj hi hgt)

/-- Requests in another order take their starts with them. -/
theorem map (h : IsReordering requests others e)
    (hstart : IsArrangement alignment requests start) :
    IsArrangement alignment others (start ∘ e.symm) := by
  refine hstart.map e ?_ ?_ ?_
  · intro i
    rw [h.same]
  · intro i address haddress
    rw [h.same] at haddress
    exact hstart.fixed i address haddress
  · intro i j hj hbefore
    rw [h.same] at hj hbefore
    exact hstart.ordered i j hj fun hi => h.lt_of_lt hi hj (hbefore hi)

/-- Requests in the first order take their starts back. -/
theorem comap (h : IsReordering requests others e)
    (hother : IsArrangement alignment others other) :
    IsArrangement alignment requests (other ∘ e) := by
  refine hother.comap e e.injective ?_ ?_ ?_
  · intro i
    rw [h.same]
  · intro i address haddress
    rw [← h.same] at haddress
    exact hother.fixed (e i) address haddress
  · intro i j hj hbefore
    refine hother.ordered (e i) (e j) (by rw [h.same, hj]) fun hi => ?_
    rw [h.same] at hi
    exact h.order i j hi hj (hbefore hi)

end IsReordering

/-- **It does not matter where fixed requests are declared.** If requests can be placed, they can in
any other order that leaves the open ones in sequence, and every request gets the same range. -/
theorem place_reordered (alignmentBits : Nat) (requests others : List Request)
    (e : Fin requests.length ≃ Fin others.length) (h : IsReordering requests others e) :
    ((∃ ranges, place alignmentBits requests = .ok ranges) ↔
      ∃ ranges, place alignmentBits others = .ok ranges) ∧
    ∀ ranges ranges', place alignmentBits requests = .ok ranges →
      place alignmentBits others = .ok ranges' → ∀ i, ∃ range,
        ranges[i.val]? = some range ∧ ranges'[(e i).val]? = some range := by
  have hplace : ∀ {start},
      IsLeast {start | IsArrangement (1 <<< alignmentBits) requests start} start →
        place alignmentBits others = .ok (arranged others (start ∘ e.symm)) :=
    fun hleast => place_eq_of_equiv e hleast (h.map hleast.1) fun _ => h.comap
  refine ⟨⟨?_, ?_⟩, ?_⟩
  · rintro ⟨ranges, hranges⟩
    obtain ⟨start, hleast, -⟩ := place_eq_ok_iff.1 hranges
    exact ⟨_, hplace hleast⟩
  · rintro ⟨ranges, hranges⟩
    obtain ⟨other, hleast, -⟩ := place_eq_ok_iff.1 hranges
    exact (h.comap hleast.1).exists_place
  · intro ranges ranges' hranges hranges' i
    obtain ⟨start, hleast, rfl⟩ := place_eq_ok_iff.1 hranges
    rw [hplace hleast, Except.ok.injEq] at hranges'
    subst hranges'
    refine ⟨_, getElem?_arranged start i, ?_⟩
    rw [getElem?_arranged, Function.comp_apply, e.symm_apply_apply, h.same]

theorem place_reordered_swapped :
    place 2 [⟨.root "a", .auto, 3⟩, ⟨.root "b", .fixed 8, 5⟩, ⟨.root "c", .auto, 4⟩] =
        .ok [⟨16, 18⟩, ⟨8, 12⟩, ⟨20, 23⟩] ∧
      place 2 [⟨.root "b", .fixed 8, 5⟩, ⟨.root "a", .auto, 3⟩, ⟨.root "c", .auto, 4⟩] =
        .ok [⟨8, 12⟩, ⟨16, 18⟩, ⟨20, 23⟩] ∧
      ∀ i : Fin 3, ∃ range,
        [⟨16, 18⟩, ⟨8, 12⟩, ⟨20, 23⟩][i.val]? = some range ∧
          ([⟨8, 12⟩, ⟨16, 18⟩, ⟨20, 23⟩] : List Interval)[(Equiv.swap 0 1 i).val]? = some range :=
  ⟨by decide, by decide, (place_reordered 2
    [⟨.root "a", .auto, 3⟩, ⟨.root "b", .fixed 8, 5⟩, ⟨.root "c", .auto, 4⟩]
    [⟨.root "b", .fixed 8, 5⟩, ⟨.root "a", .auto, 3⟩, ⟨.root "c", .auto, 4⟩]
    (Equiv.swap (0 : Fin 3) 1) ⟨by decide, by decide⟩).2 _ _ (by decide) (by decide)⟩

/-! ## Freezing -/

/-- The request for a range at a given address, whatever it asks for. -/
def Request.pinned (r : Request) (address : Nat) : Request := { r with address := .fixed address }

/-- The requests of a placement, where some of the open ones now ask for the address at which they
have been placed. -/
def freeze (frozen : Nat → Bool) (requests : List Request) (ranges : List Interval) :
    List Request :=
  (requests.zip ranges).mapIdx fun i entry =>
    if entry.1.address = .auto ∧ frozen i then entry.1.pinned entry.2.first else entry.1

/-- No open request is frozen that comes after one which is left open. -/
def FrozenFirst (frozen : Nat → Bool) (requests : List Request) : Prop :=
  ∀ i j : Fin requests.length, j < i → (requests.get i).address = .auto →
    (requests.get j).address = .auto → frozen i → frozen j

/-- The second list asks in the same order for the same sizes, and for given starts, except for open
requests that are not frozen. -/
structure IsFreezing (frozen : Nat → Bool) (start : Fin requests.length → Nat)
    (others : List Request) (e : Fin requests.length ≃ Fin others.length) : Prop where
  size_eq : ∀ i, (others.get (e i)).size = (requests.get i).size
  address_eq : ∀ i : Fin requests.length, (others.get (e i)).address =
    if (requests.get i).address = .auto ∧ ¬ frozen i then .auto else .fixed (start i)
  lt_iff : ∀ i j, e i < e j ↔ i < j

namespace IsFreezing

variable {frozen : Nat → Bool} {e : Fin requests.length ≃ Fin others.length}

theorem address_eq_auto_iff (h : IsFreezing frozen start others e) (i : Fin requests.length) :
    (others.get (e i)).address = .auto ↔ (requests.get i).address = .auto ∧ ¬ frozen i := by
  rw [h.address_eq, ite_eq_left_iff]
  refine ⟨fun himp => by_contra fun hnot => ?_, fun hopen hnot => absurd hopen hnot⟩
  exact Address.noConfusion (himp hnot)

/-- Frozen requests stay where they are, and nothing that is left open is served before them. -/
theorem map (h : IsFreezing frozen start others e) (hfirst : FrozenFirst frozen requests)
    (hstart : IsArrangement alignment requests start) :
    IsArrangement alignment others (start ∘ e.symm) := by
  refine hstart.map e h.size_eq ?_ ?_
  · intro i address haddress
    rw [h.address_eq] at haddress
    split at haddress
    · cases haddress
    · exact Address.fixed.inj haddress
  · intro i j hj hbefore
    obtain ⟨hj, hopen⟩ := (h.address_eq_auto_iff j).1 hj
    refine hstart.ordered i j hj fun hi => ?_
    by_cases hfrozen : frozen i
    · have hne : i ≠ j := fun heq => hopen (heq ▸ hfrozen)
      exact lt_of_le_of_ne (not_lt.1 fun hlt => hopen (hfirst i j hlt hi hj hfrozen)) hne
    · exact (h.lt_iff i j).1 (hbefore ((h.address_eq_auto_iff i).2 ⟨hi, hfrozen⟩))

/-- Requests that have been frozen can be opened again where they are. -/
theorem comap (h : IsFreezing frozen start others e) (hfirst : FrozenFirst frozen requests)
    (hstart : IsArrangement alignment requests start)
    (hother : IsArrangement alignment others other) :
    IsArrangement alignment requests (other ∘ e) := by
  have hkept : ∀ i : Fin requests.length, ¬ ((requests.get i).address = .auto ∧ ¬ frozen i) →
      other (e i) = start i := by
    intro i hnot
    exact hother.fixed (e i) (start i) ((h.address_eq i).trans (if_neg hnot))
  refine hother.comap e e.injective ?_ ?_ ?_
  · intro i
    rw [h.size_eq]
  · intro i address haddress
    have hnot : (requests.get i).address ≠ .auto := fun hauto => nomatch haddress.symm.trans hauto
    rw [hkept i fun hopen => hnot hopen.1]
    exact hstart.fixed i address haddress
  · intro i j hj hbefore
    by_cases hfrozen : frozen j
    -- All that is served before a frozen request is fixed or frozen.
    · have hi : ¬ ((requests.get i).address = .auto ∧ ¬ frozen i) :=
        fun hopen => hopen.2 (hfirst j i (hbefore hopen.1) hj hopen.1 hfrozen)
      rw [hkept i hi, hkept j fun hopen => hopen.2 hfrozen, h.size_eq]
      exact hstart.ordered i j hj hbefore
    · refine hother.ordered (e i) (e j) ((h.address_eq_auto_iff j).2 ⟨hj, hfrozen⟩) fun hi => ?_
      exact (h.lt_iff i j).2 (hbefore ((h.address_eq_auto_iff i).1 hi).1)

end IsFreezing

theorem length_freeze (frozen : Nat → Bool) (start : Fin requests.length → Nat) :
    (freeze frozen requests (arranged requests start)).length = requests.length := by
  simp [freeze, arranged]

theorem get_freeze (frozen : Nat → Bool) (start : Fin requests.length → Nat)
    (i : Fin requests.length) :
    (freeze frozen requests (arranged requests start)).get
        (finCongr (length_freeze frozen start).symm i) =
      if (requests.get i).address = .auto ∧ frozen i then (requests.get i).pinned (start i)
      else requests.get i := by
  simp only [freeze, arranged, List.get_eq_getElem, List.getElem_mapIdx, List.getElem_zip,
    List.getElem_ofFn, Interval.first_ofSize]
  rfl

/-- Frozen requests ask for the addresses that they have been given, and fixed ones did before. -/
theorem IsArrangement.isFreezing (h : IsArrangement alignment requests start)
    (frozen : Nat → Bool) :
    IsFreezing frozen start (freeze frozen requests (arranged requests start))
      (finCongr (length_freeze frozen start).symm) where
  size_eq i := by
    rw [get_freeze]
    split
    · rfl
    · rfl
  address_eq i := by
    rw [get_freeze]
    cases haddress : (requests.get i).address with
    | auto =>
      cases hfrozen : frozen i with
      | true => simp [Request.pinned]
      | false => simpa using haddress
    | fixed address => simpa [h.fixed i address haddress] using haddress
  lt_iff _ _ := Iff.rfl

/-- **Freezing a placement changes nothing.** When open requests, from the first one on, are given
the addresses at which they have been placed, every request is placed where it was. -/
theorem place_freeze (alignmentBits : Nat) (requests : List Request) (ranges : List Interval)
    (frozen : Nat → Bool) (h : place alignmentBits requests = .ok ranges)
    (hfirst : FrozenFirst frozen requests) :
    place alignmentBits (freeze frozen requests ranges) = .ok ranges := by
  obtain ⟨start, hleast, rfl⟩ := place_eq_ok_iff.1 h
  have hfreezing := hleast.1.isFreezing frozen
  rw [place_eq_of_equiv _ hleast (hfreezing.map hfirst hleast.1)
    fun _ => hfreezing.comap hfirst hleast.1]
  refine congrArg Except.ok ?_
  rw [arranged, List.ofFn_congr (length_freeze frozen start)]
  refine congrArg List.ofFn (funext fun i => ?_)
  exact congrArg (Interval.ofSize (start i)) (hfreezing.size_eq i)

theorem place_freeze_first :
    place 2 [⟨.root "a", .auto, 3⟩, ⟨.root "b", .fixed 8, 5⟩, ⟨.root "c", .auto, 4⟩] =
        .ok [⟨16, 18⟩, ⟨8, 12⟩, ⟨20, 23⟩] ∧
      place 2 (freeze (fun i => i == 0)
        [⟨.root "a", .auto, 3⟩, ⟨.root "b", .fixed 8, 5⟩, ⟨.root "c", .auto, 4⟩]
        [⟨16, 18⟩, ⟨8, 12⟩, ⟨20, 23⟩]) = .ok [⟨16, 18⟩, ⟨8, 12⟩, ⟨20, 23⟩] :=
  ⟨by decide, place_freeze 2
    [⟨.root "a", .auto, 3⟩, ⟨.root "b", .fixed 8, 5⟩, ⟨.root "c", .auto, 4⟩]
    [⟨16, 18⟩, ⟨8, 12⟩, ⟨20, 23⟩] (fun i => i == 0) (by decide) (by unfold FrozenFirst; decide)⟩

/-! ## Dropping requests -/

/-- **Dropping requests never breaks a placement.** What is left of requests that can be placed can
be placed, with fixed requests where they were, and open ones no further up. -/
theorem place_subsequence (alignmentBits : Nat) (requests kept : List Request)
    (f : Fin kept.length ↪o Fin requests.length) (hkept : ∀ i, kept.get i = requests.get (f i))
    (ranges : List Interval) (h : place alignmentBits requests = .ok ranges) :
    ∃ ranges', place alignmentBits kept = .ok ranges' ∧
      ∀ i, ∃ range range', ranges[(f i).val]? = some range ∧ ranges'[i.val]? = some range' ∧
        ((kept.get i).address ≠ .auto → range' = range) ∧ range'.first ≤ range.first := by
  obtain ⟨start, hleast, rfl⟩ := place_eq_ok_iff.1 h
  have hstart : IsArrangement (1 <<< alignmentBits) kept (start ∘ f) := by
    refine hleast.1.comap f f.injective ?_ ?_ ?_
    · intro i
      rw [hkept]
    · intro i address haddress
      rw [hkept] at haddress
      exact hleast.1.fixed (f i) address haddress
    · intro i j hj hbefore
      rw [hkept] at hj hbefore
      exact hleast.1.ordered (f i) (f j) hj fun hi => f.lt_iff_lt.2 (hbefore hi)
  obtain ⟨ranges', hranges'⟩ := hstart.exists_place
  obtain ⟨start', hleast', rfl⟩ := place_eq_ok_iff.1 hranges'
  refine ⟨_, hranges', fun i => ⟨_, _, getElem?_arranged start (f i), getElem?_arranged start' i,
    ?_, ?_⟩⟩
  · intro hfixed
    cases haddress : (kept.get i).address with
    | auto => exact absurd haddress hfixed
    | fixed address =>
      have hold := hstart.fixed i address haddress
      rw [Function.comp_apply] at hold
      rw [hold, hleast'.1.fixed i address haddress, hkept]
  · rw [Interval.first_ofSize, Interval.first_ofSize]
    exact hleast'.2 hstart i

theorem place_subsequence_open :
    place 2 [⟨.root "a", .auto, 3⟩, ⟨.root "b", .fixed 8, 5⟩, ⟨.root "c", .auto, 4⟩] =
        .ok [⟨16, 18⟩, ⟨8, 12⟩, ⟨20, 23⟩] ∧
      ∃ ranges', place 2 [⟨.root "a", .auto, 3⟩, ⟨.root "c", .auto, 4⟩] = .ok ranges' ∧
        ∀ i : Fin 2, ∃ range range',
          ([⟨16, 18⟩, ⟨8, 12⟩, ⟨20, 23⟩] : List Interval)[(Fin.succAbove 1 i).val]? = some range ∧
            ranges'[i.val]? = some range' ∧ range'.first ≤ range.first := by
  refine ⟨by decide, ?_⟩
  obtain ⟨ranges', hranges', hkept⟩ := place_subsequence 2
    [⟨.root "a", .auto, 3⟩, ⟨.root "b", .fixed 8, 5⟩, ⟨.root "c", .auto, 4⟩]
    [⟨.root "a", .auto, 3⟩, ⟨.root "c", .auto, 4⟩] (Fin.succAboveOrderEmb (1 : Fin 3)) (by decide)
    [⟨16, 18⟩, ⟨8, 12⟩, ⟨20, 23⟩] (by decide)
  refine ⟨ranges', hranges', fun i => ?_⟩
  obtain ⟨range, range', hrange, hrange', -, hle⟩ := hkept i
  exact ⟨range, range', hrange, hrange', hle⟩

end BusMap
