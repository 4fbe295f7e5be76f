import BusMap.Proofs.Placement.Allocation
import Mathlib.Data.List.ReduceOption

/-!
# Layouts

A layout gives every request a range of its size, aligned and apart from all others. A fixed request
is where it asks to be. An open one starts at the least aligned address above every range that is
served before it: those of all fixed requests, wherever they are declared, and those of the open
requests declared earlier (`IsLayout`). The two passes of `place` give a layout whenever they
succeed (`place_isLayout`).

The first pass is described by its marks, which are the ranges of the fixed requests and nothing for
the open ones (`placeFixed_spec`). In the second pass the allocator holds all marks, so that the
next free address is above them (`placeOpen_spec`).
-/

set_option autoImplicit false

namespace BusMap

/-- What the ranges of a list of requests have to be. -/
structure IsLayout (alignment : Nat) (requests : List Request) (ranges : List Interval) : Prop where
  length_eq : ranges.length = requests.length
  /-- Each range lies in the address space and has the size that is asked for. -/
  sized : ∀ (i : Nat) r range, requests[i]? = some r → ranges[i]? = some range →
    range.first ≤ range.last ∧ range.last < wordLimit ∧ range.size = r.size
  aligned : ∀ range ∈ ranges, alignment ∣ range.first
  /-- No address lies in two of the ranges. -/
  apart : ranges.Pairwise fun r s => ∀ a, a ∈ r → a ∉ s
  fixed : ∀ (i : Nat) r range address, requests[i]? = some r → r.address = .fixed address →
    ranges[i]? = some range → range.first = address
  /-- An open request starts at the least aligned address above all that is served before it. -/
  next : ∀ (i : Nat) r range, requests[i]? = some r → r.address = .auto → ranges[i]? = some range →
    IsLeast {s | alignment ∣ s ∧ ∀ (j : Nat) q other, requests[j]? = some q →
      ranges[j]? = some other → (q.address = .auto → j < i) → other.last < s} range.first

/-- What the first pass notes for a request: nothing if it is open, else the range it asks for. -/
def IsMark (alignment : Nat) (r : Request) : Option Interval → Prop
  | none => r.address = .auto
  | some range => ∃ address, r.address = .fixed address ∧ alignment ∣ address ∧ 1 ≤ r.size ∧
    address + r.size ≤ wordLimit ∧ range = Interval.ofSize address r.size

namespace Allocator

variable {a b : Allocator}

/-- The ranges placed so far. -/
def ranges (a : Allocator) : List Interval := a.placed.map Placement.range

@[simp] theorem ranges_commit (a : Allocator) (path : EntityPath) (range : Interval) :
    (a.commit path range).ranges = a.ranges ++ [range] := by
  simp [ranges]

theorem granted_eq_ok_iff {served : Except Conflict Interval × Allocator} {range : Interval} :
    granted served = .ok (range, b) ↔ served = (.ok range, b) := by
  rcases served with ⟨cause | other, c⟩
  · simp [granted]
  · simp [granted]

/-! ## First pass -/

theorem placeFixed_cons_of_auto {r : Request} {rs : List Request} {marks : List (Option Interval)}
    (haddress : r.address = .auto) :
    a.placeFixed (r :: rs) = .ok (marks, b) ↔
      ∃ rest, a.placeFixed rs = .ok (rest, b) ∧ marks = none :: rest := by
  rw [placeFixed, haddress]
  dsimp only
  rw [bind_eq_ok_iff]
  constructor
  · rintro ⟨⟨rest, c⟩, hrest, heq⟩
    cases heq
    exact ⟨rest, hrest, rfl⟩
  · rintro ⟨rest, hrest, rfl⟩
    exact ⟨(rest, b), hrest, rfl⟩

theorem placeFixed_cons_of_fixed {r : Request} {rs : List Request}
    {marks : List (Option Interval)} {address : Nat} (haddress : r.address = .fixed address) :
    a.placeFixed (r :: rs) = .ok (marks, b) ↔
      ∃ range c rest, a.placeAt r.path address r.size = (.ok range, c) ∧
        c.placeFixed rs = .ok (rest, b) ∧ marks = some range :: rest := by
  rw [placeFixed, haddress]
  dsimp only
  rw [bind_eq_ok_iff]
  constructor
  · rintro ⟨⟨range, c⟩, hplace, htail⟩
    obtain ⟨⟨rest, d⟩, hrest, heq⟩ := bind_eq_ok_iff.1 htail
    cases heq
    exact ⟨range, c, rest, granted_eq_ok_iff.1 hplace, hrest, rfl⟩
  · rintro ⟨range, c, rest, hplace, hrest, rfl⟩
    refine ⟨(range, c), granted_eq_ok_iff.2 hplace, ?_⟩
    exact bind_eq_ok_iff.2 ⟨(rest, b), hrest, rfl⟩

/-- The first pass marks every fixed request with the range it asks for, and leaves an allocator
that holds exactly these ranges besides those before. -/
theorem placeFixed_spec {rs : List Request} {marks : List (Option Interval)} (h : a.WellPlaced)
    (hp : a.placeFixed rs = .ok (marks, b)) :
    b.WellPlaced ∧ b.alignment = a.alignment ∧ List.Forall₂ (IsMark a.alignment) rs marks ∧
      b.ranges = a.ranges ++ marks.reduceOption := by
  -- The allocator varies: each fixed request hands a larger one to the requests after it.
  induction rs generalizing a marks with
  | nil =>
    cases hp
    exact ⟨h, rfl, .nil, by simp⟩
  | cons r rs ih =>
    cases haddress : r.address with
    | auto =>
      obtain ⟨rest, hrest, rfl⟩ := (placeFixed_cons_of_auto haddress).1 hp
      obtain ⟨hb, halignment, hmarks, hranges⟩ := ih h hrest
      exact ⟨hb, halignment, .cons haddress hmarks, hranges⟩
    | fixed address =>
      obtain ⟨range, c, rest, hplace, hrest, rfl⟩ := (placeFixed_cons_of_fixed haddress).1 hp
      have hc := h.placeAt hplace
      obtain ⟨haligned, hpos, hfits, hrange, -, rfl⟩ := placeAt_eq_ok_iff.1 hplace
      obtain ⟨hb, halignment, hmarks, hranges⟩ := ih hc hrest
      refine ⟨hb, halignment, .cons ⟨address, haddress, haligned, hpos, hfits, hrange⟩ hmarks, ?_⟩
      rw [hranges, ranges_commit, List.append_assoc, List.reduceOption_cons_of_some]
      rfl

/-! ## Second pass -/

theorem placeOpen_cons_some {r : Request} {range : Interval}
    {work : List (Request × Option Interval)} {ranges : List Interval} :
    a.placeOpen ((r, some range) :: work) = .ok ranges ↔
      ∃ rest, a.placeOpen work = .ok rest ∧ ranges = range :: rest := by
  rw [placeOpen, bind_eq_ok_iff]
  constructor
  · rintro ⟨rest, hrest, heq⟩
    cases heq
    exact ⟨rest, hrest, rfl⟩
  · rintro ⟨rest, hrest, rfl⟩
    exact ⟨rest, hrest, rfl⟩

theorem placeOpen_cons_none {r : Request} {work : List (Request × Option Interval)}
    {ranges : List Interval} :
    a.placeOpen ((r, none) :: work) = .ok ranges ↔
      ∃ range rest, a.nextRange? r.size = some range ∧
        (a.commit r.path range).placeOpen work = .ok rest ∧ ranges = range :: rest := by
  rw [placeOpen, bind_eq_ok_iff]
  constructor
  · rintro ⟨⟨range, c⟩, hplace, htail⟩
    obtain ⟨rest, hrest, heq⟩ := bind_eq_ok_iff.1 htail
    obtain ⟨hrange, rfl⟩ := placeNext_eq_ok_iff.1 (granted_eq_ok_iff.1 hplace)
    cases heq
    exact ⟨range, rest, hrange, hrest, rfl⟩
  · rintro ⟨range, rest, hrange, hrest, rfl⟩
    have hplace : a.placeNext r.path r.size = (.ok range, a.commit r.path range) :=
      placeNext_eq_ok_iff.2 ⟨hrange, rfl⟩
    refine ⟨(range, a.commit r.path range), granted_eq_ok_iff.2 hplace, ?_⟩
    exact bind_eq_ok_iff.2 ⟨rest, hrest, rfl⟩

/-- `s` is aligned, above the ranges held, and above those of the open requests before place `i`. -/
def IsCandidate (alignment : Nat) (held : List Interval) (work : List (Request × Option Interval))
    (ranges : List Interval) (i s : Nat) : Prop :=
  alignment ∣ s ∧ (∀ other ∈ held, other.last < s) ∧
    ∀ (j : Nat) q other, j < i → work[j]? = some (q, none) → ranges[j]? = some other →
      other.last < s

section Candidates

variable {alignment i s : Nat} {held ranges : List Interval} {r : Request} {range : Interval}
  {work : List (Request × Option Interval)}

theorem isCandidate_zero :
    IsCandidate alignment held work ranges 0 s ↔
      alignment ∣ s ∧ ∀ other ∈ held, other.last < s := by
  simp [IsCandidate]

/-- A marked request in front is among the ranges held, and so does not count again. -/
theorem isCandidate_cons_some {mark : Interval} :
    IsCandidate alignment held ((r, some mark) :: work) (range :: ranges) (i + 1) s ↔
      IsCandidate alignment held work ranges i s := by
  apply and_congr_right
  intro _
  apply and_congr_right
  intro _
  constructor
  · intro h j q other hj hq hother
    exact h (j + 1) q other (Nat.succ_lt_succ hj) hq hother
  · intro h j q other hj hq hother
    cases j with
    | zero => cases hq
    | succ j => exact h j q other (Nat.lt_of_succ_lt_succ hj) hq hother

/-- An open request in front counts as one more range held. -/
theorem isCandidate_cons_none :
    IsCandidate alignment held ((r, none) :: work) (range :: ranges) (i + 1) s ↔
      IsCandidate alignment (held ++ [range]) work ranges i s := by
  apply and_congr_right
  intro _
  constructor
  · rintro ⟨hheld, h⟩
    refine ⟨?_, ?_⟩
    · intro other hother
      rcases List.mem_append.1 hother with hother | hother
      · exact hheld other hother
      · cases List.mem_singleton.1 hother
        exact h 0 r range (Nat.succ_pos i) rfl rfl
    · intro j q other hj hq hother
      exact h (j + 1) q other (Nat.succ_lt_succ hj) hq hother
  · rintro ⟨hheld, h⟩
    refine ⟨fun other hother => hheld other (List.mem_append_left _ hother), ?_⟩
    intro j q other hj hq hother
    cases j with
    | zero =>
      cases hother
      exact hheld range (by simp)
    | succ j => exact h j q other (Nat.lt_of_succ_lt_succ hj) hq hother

end Candidates

/-- The second pass keeps the marked ranges, and gives each open request the least aligned start
above the ranges held at first and those of the open requests before it. -/
theorem placeOpen_spec {work : List (Request × Option Interval)} {ranges : List Interval}
    (h : a.WellPlaced) (hp : a.placeOpen work = .ok ranges) :
    ranges.length = work.length ∧
    (∀ (i : Nat) r range, work[i]? = some (r, some range) → ranges[i]? = some range) ∧
    ∀ (i : Nat) r range, work[i]? = some (r, none) → ranges[i]? = some range →
      (1 ≤ r.size ∧ range.first + r.size ≤ wordLimit ∧
        range = Interval.ofSize range.first r.size) ∧
      IsLeast {s | IsCandidate a.alignment a.ranges work ranges i s} range.first := by
  induction work generalizing a ranges with
  | nil =>
    cases hp
    simp
  | cons entry work ih =>
    rcases entry with ⟨r, _ | mark⟩
    -- An open request: its range joins those that the rest of the pass has to stay above.
    · obtain ⟨range, rest, hrange, hrest, rfl⟩ := placeOpen_cons_none.1 hp
      have hplace : a.placeNext r.path r.size = (.ok range, a.commit r.path range) :=
        placeNext_eq_ok_iff.2 ⟨hrange, rfl⟩
      obtain ⟨hlength, hmarked, hopen⟩ := ih (h.placeNext hplace) hrest
      refine ⟨by simp [hlength], ?_, ?_⟩
      · intro i q mark hq
        cases i with
        | zero => cases hq
        | succ i => exact hmarked i q mark hq
      · intro i q other hq hother
        cases i with
        | zero =>
          cases hq
          cases hother
          refine ⟨?_, ?_⟩
          · obtain ⟨free, start, -, -, hpos, hfits, rfl⟩ := nextRange?_eq_some_iff.1 hrange
            exact ⟨hpos, hfits, rfl⟩
          · simp only [isCandidate_zero, ranges, List.forall_mem_map]
            exact h.isLeast_nextRange hrange
        | succ i =>
          simp only [isCandidate_cons_none]
          simpa using hopen i q other hq hother
    -- A marked request: the state does not change, for its range is held already.
    · obtain ⟨rest, hrest, rfl⟩ := placeOpen_cons_some.1 hp
      obtain ⟨hlength, hmarked, hopen⟩ := ih h hrest
      refine ⟨by simp [hlength], ?_, ?_⟩
      · intro i q other hq
        cases i with
        | zero =>
          cases hq
          rfl
        | succ i => exact hmarked i q other hq
      · intro i q other hq hother
        cases i with
        | zero => cases hq
        | succ i =>
          simp only [isCandidate_cons_some]
          exact hopen i q other hq hother

end Allocator

/-! ## Both passes -/

/-- The marks of the first pass, the ranges that it holds, and what the second pass makes of
them. -/
structure TwoPass (alignment : Nat) (requests : List Request) (marks : List (Option Interval))
    (ranges : List Interval) : Prop where
  marks_spec : List.Forall₂ (IsMark alignment) requests marks
  length_eq : ranges.length = requests.length
  marks_apart : marks.reduceOption.Pairwise fun r s => ¬ r.Overlaps s
  marked : ∀ (i : Nat) range, marks[i]? = some (some range) → ranges[i]? = some range
  opened : ∀ (i : Nat) r range, requests[i]? = some r → marks[i]? = some none →
    ranges[i]? = some range →
    (1 ≤ r.size ∧ range.first + r.size ≤ wordLimit ∧ range = Interval.ofSize range.first r.size) ∧
      IsLeast {s | Allocator.IsCandidate alignment marks.reduceOption (requests.zip marks) ranges
        i s} range.first

/-- The two passes are what `place` does. -/
theorem exists_twoPass {alignmentBits : Nat} {requests : List Request} {ranges : List Interval}
    (h : place alignmentBits requests = .ok ranges) :
    ∃ marks, TwoPass (1 <<< alignmentBits) requests marks ranges := by
  obtain ⟨⟨marks, b⟩, hfixed, hopen⟩ := bind_eq_ok_iff.1 h
  -- Nothing is held before the first pass, so that the second one starts with the marks alone.
  obtain ⟨hb, halignment, hmarks, hheld⟩ :=
    Allocator.placeFixed_spec (Allocator.wellPlaced_empty alignmentBits) hfixed
  have hheld : b.ranges = marks.reduceOption := hheld
  have halignment : b.alignment = 1 <<< alignmentBits := halignment
  obtain ⟨hlength, hmarked, hopened⟩ := Allocator.placeOpen_spec hb hopen
  rw [hheld, halignment] at hopened
  refine ⟨marks, hmarks, ?_, ?_, ?_, ?_⟩
  · rw [hlength, List.length_zip, ← hmarks.length_eq, Nat.min_self]
  · rw [← hheld]
    exact List.pairwise_map.2 hb.apart
  · intro i range hi
    obtain ⟨r, hr, -⟩ := exists_getElem?_of_forall₂ hmarks.flip hi
    exact hmarked i r range (List.getElem?_zip_eq_some.2 ⟨hr, hi⟩)
  · intro i r range hr hi hrange
    exact hopened i r range (List.getElem?_zip_eq_some.2 ⟨hr, hi⟩) hrange

namespace TwoPass

variable {alignment : Nat} {requests : List Request} {marks : List (Option Interval)}
  {ranges : List Interval}

/-- The mark of a request is its range, or it has none and the request is open. -/
theorem mark_or_open (h : TwoPass alignment requests marks ranges) {i : Nat} {r : Request}
    {range : Interval} (hr : requests[i]? = some r) (hrange : ranges[i]? = some range) :
    (marks[i]? = some (some range) ∧ IsMark alignment r (some range)) ∨
      (marks[i]? = some none ∧ r.address = .auto) := by
  obtain ⟨mark, hmark, hspec⟩ := exists_getElem?_of_forall₂ h.marks_spec hr
  cases mark with
  | none => exact Or.inr ⟨hmark, hspec⟩
  | some other =>
    have hother := h.marked i other hmark
    rw [hrange] at hother
    cases hother
    exact Or.inl ⟨hmark, hspec⟩

theorem isMark_of_fixed (h : TwoPass alignment requests marks ranges) {i address : Nat}
    {r : Request} {range : Interval} (hr : requests[i]? = some r)
    (haddress : r.address = .fixed address) (hrange : ranges[i]? = some range) :
    IsMark alignment r (some range) := by
  rcases h.mark_or_open hr hrange with ⟨-, hmark⟩ | ⟨-, hauto⟩
  · exact hmark
  · rw [haddress] at hauto
    cases hauto

theorem mark_eq_none_of_auto (h : TwoPass alignment requests marks ranges) {i : Nat}
    {r : Request} (hr : requests[i]? = some r) (haddress : r.address = .auto) :
    marks[i]? = some none := by
  obtain ⟨mark, hmark, hspec⟩ := exists_getElem?_of_forall₂ h.marks_spec hr
  cases mark with
  | none => exact hmark
  | some range =>
    obtain ⟨address, hfixed, -⟩ := hspec
    rw [haddress] at hfixed
    cases hfixed

/-- The candidates for an open request are the aligned addresses above all that is served before
it. -/
theorem isCandidate_iff (h : TwoPass alignment requests marks ranges) {i s : Nat} :
    Allocator.IsCandidate alignment marks.reduceOption (requests.zip marks) ranges i s ↔
      alignment ∣ s ∧ ∀ (j : Nat) q other, requests[j]? = some q → ranges[j]? = some other →
        (q.address = .auto → j < i) → other.last < s := by
  apply and_congr_right
  intro _
  constructor
  · rintro ⟨hheld, hopen⟩ j q other hq hother hbefore
    rcases h.mark_or_open hq hother with ⟨hmark, -⟩ | ⟨hmark, hauto⟩
    · exact hheld other (List.reduceOption_mem_iff.2 (List.mem_of_getElem? hmark))
    · exact hopen j q other (hbefore hauto) (List.getElem?_zip_eq_some.2 ⟨hq, hmark⟩) hother
  · intro hserved
    refine ⟨?_, ?_⟩
    · intro other hother
      obtain ⟨j, hj⟩ := List.mem_iff_getElem?.1 (List.reduceOption_mem_iff.1 hother)
      obtain ⟨q, hq, address, hfixed, -⟩ := exists_getElem?_of_forall₂ h.marks_spec.flip hj
      apply hserved j q other hq (h.marked j other hj)
      intro hauto
      rw [hfixed] at hauto
      cases hauto
    · intro j q other hj hentry hother
      obtain ⟨hq, hmark⟩ := List.getElem?_zip_eq_some.1 hentry
      exact hserved j q other hq hother fun _ => hj

/-- Each range is as long as asked for, starts at an aligned address and lies in the address
space. -/
theorem eq_ofSize (h : TwoPass alignment requests marks ranges) {i : Nat} {r : Request}
    {range : Interval} (hr : requests[i]? = some r) (hrange : ranges[i]? = some range) :
    alignment ∣ range.first ∧ 1 ≤ r.size ∧ range.first + r.size ≤ wordLimit ∧
      range = Interval.ofSize range.first r.size := by
  rcases h.mark_or_open hr hrange with ⟨-, address, -, haligned, hpos, hfits, rfl⟩ | ⟨hmark, -⟩
  · exact ⟨haligned, hpos, hfits, rfl⟩
  · obtain ⟨hsize, hleast⟩ := h.opened i r range hr hmark hrange
    exact ⟨hleast.1.1, hsize⟩

/-- An open request starts above every range that is served before it. -/
theorem isLeast_of_auto (h : TwoPass alignment requests marks ranges) {i : Nat} {r : Request}
    {range : Interval} (hr : requests[i]? = some r) (haddress : r.address = .auto)
    (hrange : ranges[i]? = some range) :
    IsLeast {s | alignment ∣ s ∧ ∀ (j : Nat) q other, requests[j]? = some q →
      ranges[j]? = some other → (q.address = .auto → j < i) → other.last < s} range.first := by
  have hmark := h.mark_eq_none_of_auto hr haddress
  have hleast := (h.opened i r range hr hmark hrange).2
  simpa only [h.isCandidate_iff] using hleast

theorem exists_request (h : TwoPass alignment requests marks ranges) {i : Nat} {range : Interval}
    (hrange : ranges[i]? = some range) : ∃ r, requests[i]? = some r := by
  obtain ⟨hi, -⟩ := List.getElem?_eq_some_iff.1 hrange
  exact ⟨requests.get ⟨i, h.length_eq ▸ hi⟩, List.getElem?_eq_getElem _⟩

theorem not_overlaps_of_marked (h : TwoPass alignment requests marks ranges) {i j : Nat}
    (hij : i < j) {r s : Interval} (hr : marks[i]? = some (some r))
    (hs : marks[j]? = some (some s)) : ¬ r.Overlaps s := by
  obtain ⟨hi, hri⟩ := List.getElem?_eq_some_iff.1 hr
  obtain ⟨hj, hsj⟩ := List.getElem?_eq_some_iff.1 hs
  have hpairs := List.pairwise_iff_getElem.1 (List.pairwise_filterMap.1 h.marks_apart)
  exact hpairs i j hi hj hij r hri s hsj

/-- No two ranges meet. The passes look only at fixed ones for this: an open range is above all
that is served before it. -/
theorem not_overlaps (h : TwoPass alignment requests marks ranges) {i j : Nat} (hij : i < j)
    {r s : Interval} (hr : ranges[i]? = some r) (hs : ranges[j]? = some s) : ¬ r.Overlaps s := by
  obtain ⟨p, hp⟩ := h.exists_request hr
  obtain ⟨q, hq⟩ := h.exists_request hs
  -- Of two marks the first pass has compared the ranges; else one is open, and served later.
  rcases h.mark_or_open hq hs with ⟨hmark, address, hfixed, -⟩ | ⟨-, hauto⟩
  · rcases h.mark_or_open hp hr with ⟨hmark', -⟩ | ⟨-, hauto⟩
    · exact h.not_overlaps_of_marked hij hmark' hmark
    -- A fixed range is served before an open one even when it is declared after it.
    · have hbelow : s.last < r.first := by
        apply (h.isLeast_of_auto hp hauto hr).1.2 j q s hq hs
        intro hopen
        rw [hfixed] at hopen
        cases hopen
      intro hoverlap
      exact absurd hoverlap.1 (Nat.not_le.2 hbelow)
  · have hbelow : r.last < s.first :=
      (h.isLeast_of_auto hq hauto hs).1.2 i p r hp hr fun _ => hij
    intro hoverlap
    exact absurd hoverlap.2 (Nat.not_le.2 hbelow)

end TwoPass

/-- **Placement is sound.** Whenever requests are placed, their ranges are a layout of them. -/
theorem place_isLayout (alignmentBits : Nat) (requests : List Request) (ranges : List Interval)
    (h : place alignmentBits requests = .ok ranges) :
    IsLayout (1 <<< alignmentBits) requests ranges := by
  obtain ⟨marks, hpasses⟩ := exists_twoPass h
  constructor
  case length_eq => exact hpasses.length_eq
  case sized =>
    intro i r range hr hrange
    obtain ⟨-, hpos, hfits, heq⟩ := hpasses.eq_ofSize hr hrange
    rw [heq, Interval.first_ofSize, Interval.last_ofSize, Interval.size_ofSize hpos]
    exact ⟨by omega, by omega, rfl⟩
  case aligned =>
    intro range hrange
    obtain ⟨i, hi⟩ := List.mem_iff_getElem?.1 hrange
    obtain ⟨r, hr⟩ := hpasses.exists_request hi
    exact (hpasses.eq_ofSize hr hi).1
  case apart =>
    apply List.pairwise_iff_getElem.2
    intro i j hi hj hij a hr hs
    have hapart := hpasses.not_overlaps hij (List.getElem?_eq_getElem hi)
      (List.getElem?_eq_getElem hj)
    exact hapart (Interval.overlaps_of_mem hr hs)
  case fixed =>
    intro i r range address hr haddress hrange
    obtain ⟨address', haddress', -, -, -, rfl⟩ := hpasses.isMark_of_fixed hr haddress hrange
    rw [haddress] at haddress'
    cases haddress'
    rfl
  case next =>
    intro i r range hr haddress hrange
    exact hpasses.isLeast_of_auto hr haddress hrange

/-- The open requests go above the fixed one between them. -/
theorem place_isLayout_mixed :
    place 2 [⟨.root "a", .auto, 3⟩, ⟨.root "b", .fixed 8, 5⟩, ⟨.root "c", .auto, 4⟩] =
        .ok [⟨16, 18⟩, ⟨8, 12⟩, ⟨20, 23⟩] ∧
      IsLayout 4 [⟨.root "a", .auto, 3⟩, ⟨.root "b", .fixed 8, 5⟩, ⟨.root "c", .auto, 4⟩]
        [⟨16, 18⟩, ⟨8, 12⟩, ⟨20, 23⟩] :=
  ⟨by decide, place_isLayout 2 _ _ (by decide)⟩

end BusMap
