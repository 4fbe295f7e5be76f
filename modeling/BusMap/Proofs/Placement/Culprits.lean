import BusMap.Proofs.Placement.FixedPass
import BusMap.Proofs.Placement.OpenPass

/-!
# Culprits of a placement

The two passes of `place` together. A placement fails exactly when some fixed request is a culprit
or some open one overruns (`place_blames_first`). Fixed requests come first: as long as one of them
is a culprit, no open request is blamed.
-/

set_option autoImplicit false

namespace BusMap

section Place

variable {alignmentBits : Nat} {requests : List Request}

/-- Some request is a culprit exactly when one is unfit, or two meet. -/
theorem exists_isCulprit_iff {alignment : Nat} :
    (∃ pre r post, requests = pre ++ r :: post ∧ r.IsCulprit alignment pre) ↔
      (∃ r ∈ requests, r.IsUnfit alignment) ∨
        ∃ pre r post, requests = pre ++ r :: post ∧ ∃ q ∈ pre, r.Meets q := by
  constructor
  · rintro ⟨pre, r, post, rfl, hunfit | hmeets⟩
    · exact Or.inl ⟨r, List.mem_append_cons_self, hunfit⟩
    · exact Or.inr ⟨pre, r, post, rfl, hmeets⟩
  · rintro (⟨r, hr, hunfit⟩ | ⟨pre, r, post, hsplit, hmeets⟩)
    · obtain ⟨pre, post, rfl⟩ := List.append_of_mem hr
      exact ⟨pre, r, post, rfl, Or.inl hunfit⟩
    · exact ⟨pre, r, post, hsplit, Or.inr hmeets⟩

/-- The first culprit ends the placement, before any open request is served. -/
theorem place_of_isCulprit {pre post : List Request} {r : Request}
    (hsplit : requests = pre ++ r :: post) (hr : r.IsCulprit (1 <<< alignmentBits) pre) :
    ∃ pre r cause, IsFirst (Request.IsCulprit (1 <<< alignmentBits)) requests pre r ∧
      r.Conflicts (1 <<< alignmentBits) pre cause ∧
        place alignmentBits requests = .error cause := by
  have hpass := Allocator.stopsAtFirst_placeFixed (Allocator.holds_empty alignmentBits) requests
  rw [place]
  cases hfixed : (Allocator.empty alignmentBits).placeFixed requests with
  | ok served =>
    rw [hfixed] at hpass
    obtain ⟨cause, hconflicts⟩ := Request.exists_conflicts_iff.2 hr
    exact absurd hconflicts (hpass pre r post hsplit cause)
  | error cause =>
    rw [hfixed] at hpass
    obtain ⟨pre, r, hfirst, hconflicts⟩ := hpass
    simp only [List.nil_append, Request.exists_conflicts_iff] at hfirst
    exact ⟨pre, r, cause, hfirst, hconflicts, rfl⟩

/-- Without a culprit the first open request that overruns ends the placement, if there is one. -/
theorem stopsAtFirst_place
    (hnone : ∀ pre r post, requests = pre ++ r :: post →
      ¬ r.IsCulprit (1 <<< alignmentBits) pre) :
    StopsAtFirst (fun pre r cause =>
      r.Overruns (1 <<< alignmentBits) (openTop (1 <<< alignmentBits) (fixedTop requests) pre) ∧
        cause = .overflow r.path
          (min (openTop (1 <<< alignmentBits) (fixedTop requests) pre) (wordLimit - 1)) r.size)
      requests (place alignmentBits requests) := by
  have hpass := Allocator.stopsAtFirst_placeFixed (Allocator.holds_empty alignmentBits) requests
  rw [place]
  cases hfixed : (Allocator.empty alignmentBits).placeFixed requests with
  | error cause =>
    rw [hfixed] at hpass
    obtain ⟨pre, r, hfirst, -⟩ := hpass
    obtain ⟨post, hsplit⟩ := hfirst.split
    exact absurd (Request.exists_conflicts_iff.1 hfirst.holds) (hnone pre r post hsplit)
  | ok served =>
    obtain ⟨marks, b⟩ := served
    obtain ⟨hb, halignment, hmarks, -⟩ :=
      Allocator.placeFixed_spec (Allocator.wellPlaced_empty alignmentBits) hfixed
    rw [← Allocator.top_of_placeFixed hfixed]
    exact Allocator.stopsAtFirst_placeOpen hb halignment hmarks

/-- Without a culprit an open request that overruns ends the placement, and the first of them is
blamed. -/
theorem place_of_overruns
    (hnone : ∀ pre r post, requests = pre ++ r :: post →
      ¬ r.IsCulprit (1 <<< alignmentBits) pre)
    {pre post : List Request} {r : Request} (hsplit : requests = pre ++ r :: post)
    (hr : r.Overruns (1 <<< alignmentBits)
      (openTop (1 <<< alignmentBits) (fixedTop requests) pre)) :
    ∃ pre r, IsFirst (fun pre r => r.Overruns (1 <<< alignmentBits)
        (openTop (1 <<< alignmentBits) (fixedTop requests) pre)) requests pre r ∧
      place alignmentBits requests = .error (.overflow r.path
        (min (openTop (1 <<< alignmentBits) (fixedTop requests) pre) (wordLimit - 1)) r.size) := by
  have hstops := stopsAtFirst_place hnone
  cases hplace : place alignmentBits requests with
  | ok ranges =>
    rw [hplace] at hstops
    exact absurd ⟨hr, rfl⟩ (hstops pre r post hsplit _)
  | error cause =>
    rw [hplace] at hstops
    obtain ⟨pre, r, hfirst, -, rfl⟩ := hstops
    simp only [exists_and_left, exists_eq, and_true] at hfirst
    exact ⟨pre, r, hfirst, rfl⟩

/-- Where no request is to blame, requests can be placed. -/
theorem place_of_not_overruns
    (hnone : ∀ pre r post, requests = pre ++ r :: post →
      ¬ r.IsCulprit (1 <<< alignmentBits) pre)
    (hopen : ∀ pre r post, requests = pre ++ r :: post →
      ¬ r.Overruns (1 <<< alignmentBits)
        (openTop (1 <<< alignmentBits) (fixedTop requests) pre)) :
    ∃ ranges, place alignmentBits requests = .ok ranges := by
  have hstops := stopsAtFirst_place hnone
  cases hplace : place alignmentBits requests with
  | ok ranges => exact ⟨ranges, rfl⟩
  | error cause =>
    rw [hplace] at hstops
    obtain ⟨pre, r, hfirst, hoverruns, -⟩ := hstops
    obtain ⟨post, hsplit⟩ := hfirst.split
    exact absurd hoverruns (hopen pre r post hsplit)

end Place

/-- **A placement fails exactly when it must, and blames the first culprit.** It fails when a fixed
request is unfit, when two fixed requests meet, or when an open request overruns, with the open
requests one after the other above all fixed ones. The conflict is that of the first fixed request
that is unfit or meets an earlier one. If there is none, it is the overflow of the first open
request that overruns. -/
theorem place_blames_first (alignmentBits : Nat) (requests : List Request) :
    let alignment := 1 <<< alignmentBits
    let free := openTop alignment (fixedTop requests)
    let unfit := ∃ r ∈ requests, r.IsUnfit alignment
    let meeting := ∃ pre r post, requests = pre ++ r :: post ∧ ∃ q ∈ pre, r.Meets q
    let overrun := ∃ pre r post, requests = pre ++ r :: post ∧ r.Overruns alignment (free pre)
    ((∃ cause, place alignmentBits requests = .error cause) ↔ unfit ∨ meeting ∨ overrun) ∧
    (unfit ∨ meeting → ∃ pre r cause, IsFirst (Request.IsCulprit alignment) requests pre r ∧
      r.Conflicts alignment pre cause ∧ place alignmentBits requests = .error cause) ∧
    (¬ (unfit ∨ meeting) → overrun →
      ∃ pre r, IsFirst (fun pre r => r.Overruns alignment (free pre)) requests pre r ∧
        place alignmentBits requests =
          .error (.overflow r.path (min (free pre) (wordLimit - 1)) r.size)) := by
  intro alignment free unfit meeting overrun
  have hnone : ¬ (unfit ∨ meeting) → ∀ pre r post, requests = pre ++ r :: post →
      ¬ r.IsCulprit alignment pre :=
    fun h pre r post hsplit hr => h (exists_isCulprit_iff.1 ⟨pre, r, post, hsplit, hr⟩)
  refine ⟨⟨?_, ?_⟩, ?_, ?_⟩
  · rintro ⟨cause, hcause⟩
    by_contra h
    obtain ⟨hfixed, hopen⟩ := not_or.1 (mt or_assoc.1 h)
    obtain ⟨ranges, hranges⟩ := place_of_not_overruns (hnone hfixed)
      fun pre r post hsplit hr => hopen ⟨pre, r, post, hsplit, hr⟩
    exact nomatch hcause.symm.trans hranges
  · intro h
    by_cases hfixed : unfit ∨ meeting
    · obtain ⟨pre, r, post, hsplit, hr⟩ := exists_isCulprit_iff.2 hfixed
      obtain ⟨pre, r, cause, -, -, hplace⟩ := place_of_isCulprit hsplit hr
      exact ⟨cause, hplace⟩
    · obtain ⟨pre, r, post, hsplit, hr⟩ := (or_assoc.2 h).resolve_left hfixed
      obtain ⟨pre, r, -, hplace⟩ := place_of_overruns (hnone hfixed) hsplit hr
      exact ⟨_, hplace⟩
  · intro h
    obtain ⟨pre, r, post, hsplit, hr⟩ := exists_isCulprit_iff.2 h
    exact place_of_isCulprit hsplit hr
  · rintro h ⟨pre, r, post, hsplit, hr⟩
    exact place_of_overruns (hnone h) hsplit hr

-- The open request asks for nothing and comes first, but the fixed ones are served before it.
example :
    place 2 [⟨.root "a", .auto, 0⟩, ⟨.root "b", .fixed 8, 5⟩, ⟨.root "c", .fixed 12, 4⟩] =
      .error (.overlap (.root "c") ⟨12, 15⟩ (.root "b") ⟨8, 12⟩) := by
  decide

end BusMap
