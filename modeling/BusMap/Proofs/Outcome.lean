import Mathlib.Data.List.Forall2
import BusMap.Diagnosed

/-!
# Computations that may fail

A computation in `Except` is a chain of steps, each of which may end it. The lemmas here say when a
chain, a check of every element of a list, or a map over a list ends with a value and when with a
failure, so that no later proof takes a `do` block apart by hand.

A pass over a list stops at the first culprit (`StopsAtFirst`) when each element passes or ends it,
in view of the elements before.

`FailsOnly` is what a chain inherits from its steps when all of them fail in a certain way only. With
`NeverFaults` none of them needs a number that the machine does not have. A policy adds no fault to a
diagnosed computation (`NeverFaults.enforce`).
-/

set_option autoImplicit false

namespace BusMap

universe u v w

variable {ε : Type u} {ε' : Type w} {α β : Type v}

/-! ## Two steps -/

/-- A chain has a value exactly when both of its steps have one. -/
theorem bind_eq_ok_iff {x : Except ε α} {f : α → Except ε β} {b : β} :
    x >>= f = .ok b ↔ ∃ a, x = .ok a ∧ f a = .ok b := by
  cases x with
  | error e =>
    constructor
    · intro h
      cases h
    · rintro ⟨a, ha, -⟩
      cases ha
  | ok a =>
    constructor
    · intro h
      exact ⟨a, rfl, h⟩
    · rintro ⟨a', ha, h⟩
      cases ha
      exact h

/-- A chain fails when its first step does, or its second step on the value of the first. -/
theorem bind_eq_error_iff {x : Except ε α} {f : α → Except ε β} {e : ε} :
    x >>= f = .error e ↔ x = .error e ∨ ∃ a, x = .ok a ∧ f a = .error e := by
  cases x with
  | error e' =>
    constructor
    · intro h
      cases h
      exact Or.inl rfl
    · rintro (h | ⟨a, ha, -⟩)
      · cases h
        rfl
      · cases ha
  | ok a =>
    constructor
    · intro h
      exact Or.inr ⟨a, rfl, h⟩
    · rintro (h | ⟨a', ha, h⟩)
      · cases h
      · cases ha
        exact h

@[simp] theorem ok_bind (a : α) (f : α → Except ε β) : (.ok a >>= f : Except ε β) = f a := rfl

@[simp] theorem mapError_ok (a : α) (g : ε → ε') :
    (.ok a : Except ε α).mapError g = .ok a := rfl

/-- A check and what follows it pass exactly when both do. -/
theorem then_eq_ok_iff {x : Except ε PUnit.{v + 1}} {f : PUnit.{v + 1} → Except ε β} {b : β} :
    x >>= f = .ok b ↔ x = .ok ⟨⟩ ∧ f ⟨⟩ = .ok b := by
  rw [bind_eq_ok_iff]
  constructor
  · rintro ⟨⟨⟩, hx, hf⟩
    exact ⟨hx, hf⟩
  · rintro ⟨hx, hf⟩
    exact ⟨⟨⟩, hx, hf⟩

theorem map_eq_ok_iff {x : Except ε α} {f : α → β} {b : β} :
    f <$> x = .ok b ↔ ∃ a, x = .ok a ∧ f a = b := by
  cases x <;> simp [Functor.map, Except.map]

@[simp] theorem mapError_eq_ok_iff {x : Except ε α} {g : ε → ε'} {a : α} :
    x.mapError g = .ok a ↔ x = .ok a := by
  cases x <;> simp [Except.mapError]

@[simp] theorem mapError_eq_error_iff {x : Except ε α} {g : ε → ε'} {e : ε'} :
    x.mapError g = .error e ↔ ∃ c, x = .error c ∧ g c = e := by
  cases x <;> simp [Except.mapError]

/-! ## Lists -/

/-- A check of every element passes exactly when each element does. -/
theorem forM_eq_ok_iff {f : α → Except ε PUnit.{v + 1}} {xs : List α} :
    xs.forM f = .ok ⟨⟩ ↔ ∀ x ∈ xs, f x = .ok ⟨⟩ := by
  induction xs with
  | nil => simp [pure, Except.pure]
  | cons x xs ih =>
    rw [List.forM_eq_forM] at ih ⊢
    rw [List.forM_cons, then_eq_ok_iff, List.forall_mem_cons, ← ih]

/-- A check of every element that fails does so at some element. -/
theorem exists_of_forM_eq_error {f : α → Except ε PUnit.{v + 1}} {xs : List α} {e : ε}
    (h : xs.forM f = .error e) : ∃ x ∈ xs, f x = .error e := by
  induction xs with
  | nil => cases h
  | cons x xs ih =>
    rw [List.forM_eq_forM] at ih h
    rw [List.forM_cons, bind_eq_error_iff] at h
    rcases h with hx | ⟨-, -, hxs⟩
    · exact ⟨x, List.mem_cons_self, hx⟩
    · obtain ⟨y, hy, hfy⟩ := ih hxs
      exact ⟨y, List.mem_cons_of_mem x hy, hfy⟩

/-- Elements at one place of two related lists are related. -/
theorem exists_getElem?_of_forall₂ {R : α → β → Prop} {xs : List α} {ys : List β}
    (h : List.Forall₂ R xs ys) {i : Nat} {x : α} (hx : xs[i]? = some x) :
    ∃ y, ys[i]? = some y ∧ R x y := by
  obtain ⟨hi, rfl⟩ := List.getElem?_eq_some_iff.1 hx
  have hi' : i < ys.length := h.length_eq ▸ hi
  exact ⟨ys[i], List.getElem?_eq_getElem hi', h.get hi hi'⟩

/-- Each element of the second of two related lists is related to one of the first. -/
theorem exists_mem_of_forall₂ {R : α → β → Prop} {xs : List α} {ys : List β}
    (h : List.Forall₂ R xs ys) {y : β} (hy : y ∈ ys) : ∃ x ∈ xs, R x y := by
  obtain ⟨i, hi⟩ := List.mem_iff_getElem?.1 hy
  obtain ⟨x, hx, hxy⟩ := exists_getElem?_of_forall₂ h.flip hi
  exact ⟨x, List.mem_of_getElem? hx, hxy⟩

/-- Two lists whose elements agree in some respect have one list of it. -/
theorem map_eq_map_of_forall₂ {ι : Type w} {f : α → ι} {g : β → ι} {xs : List α} {ys : List β}
    (h : List.Forall₂ (fun x y => g y = f x) xs ys) : ys.map g = xs.map f := by
  rw [← List.forall₂_eq_eq_eq, List.forall₂_map_left_iff, List.forall₂_map_right_iff]
  exact h.flip

/-- A map over a list has the values of its elements, in their order. -/
theorem mapM_eq_ok_iff {f : α → Except ε β} {xs : List α} {ys : List β} :
    xs.mapM f = .ok ys ↔ List.Forall₂ (fun x y => f x = .ok y) xs ys := by
  -- The list of values varies: its tail belongs to the tail of the list of elements.
  induction xs generalizing ys with
  | nil => simp [pure, Except.pure, eq_comm]
  | cons x xs ih =>
    rw [List.mapM_cons, bind_eq_ok_iff, List.forall₂_cons_left_iff]
    constructor
    · rintro ⟨y, hy, hrest⟩
      obtain ⟨rest, hxs, heq⟩ := bind_eq_ok_iff.1 hrest
      cases heq
      exact ⟨y, rest, hy, ih.1 hxs, rfl⟩
    · rintro ⟨y, rest, hy, hxs, rfl⟩
      exact ⟨y, hy, bind_eq_ok_iff.2 ⟨rest, ih.2 hxs, rfl⟩⟩

/-- A map over a list, when it is known which elements have a value and which one. -/
theorem mapM_eq_ok_iff_of_forall {f : α → Except ε β} {xs : List α} {p : α → Prop} {g : α → β}
    (h : ∀ x ∈ xs, ∀ y, f x = .ok y ↔ p x ∧ y = g x) {ys : List β} :
    xs.mapM f = .ok ys ↔ (∀ x ∈ xs, p x) ∧ ys = xs.map g := by
  rw [mapM_eq_ok_iff]
  induction xs generalizing ys with
  | nil => simp
  | cons x xs ih =>
    obtain ⟨hx, hxs⟩ := List.forall_mem_cons.1 h
    rw [List.forall₂_cons_left_iff, List.forall_mem_cons, List.map_cons]
    constructor
    · rintro ⟨y, rest, hy, hrest, rfl⟩
      obtain ⟨hpx, rfl⟩ := (hx y).1 hy
      obtain ⟨hpxs, rfl⟩ := (ih hxs).1 hrest
      exact ⟨⟨hpx, hpxs⟩, rfl⟩
    · rintro ⟨⟨hpx, hpxs⟩, rfl⟩
      exact ⟨g x, xs.map g, (hx _).2 ⟨hpx, rfl⟩, (ih hxs).2 ⟨hpxs, rfl⟩, rfl⟩

/-- Maps over a list agree when they do on its elements. -/
theorem mapM_congr_of_mem {m : Type v → Type u} [Monad m] [LawfulMonad m] {ι : Type w}
    {f g : ι → m α} {xs : List ι} (h : ∀ x ∈ xs, f x = g x) : xs.mapM f = xs.mapM g := by
  induction xs with
  | nil => rfl
  | cons x xs ih =>
    obtain ⟨hx, hxs⟩ := List.forall_mem_cons.1 h
    rw [List.mapM_cons, List.mapM_cons, hx, ih hxs]

/-- Mapping every value of a map over a list maps the list of its values. -/
theorem mapM_map_eq_map_mapM {m : Type v → Type u} [Monad m] [LawfulMonad m] {ι : Type w}
    (g : α → β) (f : ι → m α) (xs : List ι) :
    (xs.mapM fun x => g <$> f x) = List.map g <$> xs.mapM f := by
  induction xs with
  | nil => simp
  | cons x xs ih => simp [List.mapM_cons, ih]

/-- A map over a list fails at the first element that fails. -/
theorem mapM_eq_error_iff {f : α → Except ε β} {xs : List α} {e : ε} :
    xs.mapM f = .error e ↔
      ∃ pre x post, xs = pre ++ x :: post ∧ (∀ y ∈ pre, ∃ b, f y = .ok b) ∧ f x = .error e := by
  induction xs with
  | nil => simp [pure, Except.pure]
  | cons x xs ih =>
    rw [List.mapM_cons, bind_eq_error_iff]
    constructor
    · rintro (hx | ⟨y, hy, hrest⟩)
      -- The head fails, and nothing stands before it.
      · exact ⟨[], x, xs, rfl, by simp, hx⟩
      -- The head has a value, and joins the elements before the one that fails.
      · rcases bind_eq_error_iff.1 hrest with hxs | ⟨rest, -, heq⟩
        · obtain ⟨pre, z, post, rfl, hpre, hz⟩ := ih.1 hxs
          exact ⟨x :: pre, z, post, rfl, List.forall_mem_cons.2 ⟨⟨y, hy⟩, hpre⟩, hz⟩
        · cases heq
    · rintro ⟨pre, z, post, hsplit, hpre, hz⟩
      cases pre with
      | nil =>
        cases hsplit
        exact Or.inl hz
      | cons y pre =>
        cases hsplit
        obtain ⟨⟨b, hb⟩, hpre⟩ := List.forall_mem_cons.1 hpre
        exact Or.inr ⟨b, hb, bind_eq_error_iff.2 (Or.inl (ih.2 ⟨pre, z, post, rfl, hpre, hz⟩))⟩

/-- A map over a list has values when each element has one. -/
theorem exists_mapM_eq_ok {f : α → Except ε β} {xs : List α} (h : ∀ x ∈ xs, ∃ y, f x = .ok y) :
    ∃ ys, xs.mapM f = .ok ys := by
  cases hmap : xs.mapM f with
  | ok ys => exact ⟨ys, rfl⟩
  | error e =>
    obtain ⟨pre, x, post, rfl, -, hx⟩ := mapM_eq_error_iff.1 hmap
    obtain ⟨y, hy⟩ := h x (List.mem_append_right pre List.mem_cons_self)
    rw [hy] at hx
    cases hx

/-! ## First errors -/

/-- The value, unless there are errors: then the first of them. -/
def firstError (errors : List ε) (a : α) : Except ε α :=
  match errors with
  | [] => .ok a
  | e :: _ => .error e

theorem firstError_eq_ok_iff {errors : List ε} {a b : α} :
    firstError errors a = .ok b ↔ errors = [] ∧ b = a := by
  cases errors with
  | nil => simp [firstError, eq_comm]
  | cons e errors => simp [firstError]

theorem firstError_eq_error_iff {errors : List ε} {a : α} {e : ε} :
    firstError errors a = .error e ↔ errors.head? = some e := by
  cases errors with
  | nil => simp [firstError]
  | cons e' errors => simp [firstError]

/-- The value of a computation that may fail with a first error can be taken further. -/
theorem firstError_bind_ok (errors : List ε) (a : α) (g : α → β) :
    (firstError errors a >>= fun a => .ok (g a)) = firstError errors (g a) := by
  cases errors with
  | nil => rfl
  | cons e errors => rfl

/-- A map over a list fails with the first of the errors of all elements, in their order. -/
theorem mapM_firstError {f : α → Except ε β} {errors : α → List ε} {g : α → β} {xs : List α}
    (h : ∀ x ∈ xs, f x = firstError (errors x) (g x)) :
    xs.mapM f = firstError (xs.flatMap errors) (xs.map g) := by
  induction xs with
  | nil => rfl
  | cons x xs ih =>
    rcases List.forall_mem_cons.1 h with ⟨hx, hxs⟩
    rw [List.mapM_cons, hx, ih hxs, List.flatMap_cons, List.map_cons]
    cases errors x with
    | cons e rest => rfl
    | nil =>
      -- The head is without errors, so that the first one is that of the tail.
      cases xs.flatMap errors with
      | nil => rfl
      | cons e rest => rfl

/-! ## First culprits -/

/-- `x` is the first element of a list with a property that looks at the elements before it, and
these are `pre`. -/
structure IsFirst (p : List α → α → Prop) (xs pre : List α) (x : α) : Prop where
  split : ∃ post, xs = pre ++ x :: post
  holds : p pre x
  least : ∀ before y after, pre = before ++ y :: after → ¬ p before y

namespace IsFirst

variable {p : List α → α → Prop} {xs pre : List α} {x y : α}

theorem head (h : p [] x) : IsFirst p (x :: xs) [] x where
  split := ⟨xs, rfl⟩
  holds := h
  least := by
    intro before y after hsplit
    cases before <;> cases hsplit

/-- What comes first in the tail comes first in the list when the head is not it. -/
theorem tail (hy : ¬ p [] y) (h : IsFirst (fun pre => p (y :: pre)) xs pre x) :
    IsFirst p (y :: xs) (y :: pre) x where
  split := by
    obtain ⟨post, hsplit⟩ := h.split
    exact ⟨post, congrArg (y :: ·) hsplit⟩
  holds := h.holds
  least := by
    intro before z after hsplit
    cases before with
    | nil =>
      cases hsplit
      exact hy
    | cons y' before =>
      cases hsplit
      exact h.least before z after rfl

/-- The head comes first, or else what comes first in the tail. -/
theorem cons_iff :
    IsFirst p (y :: xs) pre x ↔
      (p [] y ∧ pre = [] ∧ x = y) ∨
        (¬ p [] y ∧ ∃ rest, pre = y :: rest ∧ IsFirst (fun pre => p (y :: pre)) xs rest x) := by
  constructor
  · intro h
    obtain ⟨post, hsplit⟩ := h.split
    cases pre with
    | nil =>
      cases hsplit
      exact Or.inl ⟨h.holds, rfl, rfl⟩
    | cons z rest =>
      cases hsplit
      refine Or.inr ⟨h.least [] y rest rfl, rest, rfl, ⟨post, rfl⟩, h.holds, ?_⟩
      intro before z after hrest
      exact h.least (y :: before) z after (congrArg (y :: ·) hrest)
  · rintro (⟨hy, rfl, rfl⟩ | ⟨hy, rest, rfl, hrest⟩)
    · exact .head hy
    · exact hrest.tail hy

end IsFirst

/-- Where some element has the property, one is the first. -/
theorem exists_isFirst {p : List α → α → Prop} {xs pre post : List α} {x : α}
    (hsplit : xs = pre ++ x :: post) (hx : p pre x) : ∃ pre x, IsFirst p xs pre x := by
  -- The property varies: for the tail, the head is one more element before.
  induction xs generalizing p pre with
  | nil => cases pre <;> cases hsplit
  | cons y xs ih =>
    by_cases hy : p [] y
    · exact ⟨[], y, .head hy⟩
    · cases pre with
      | nil =>
        cases hsplit
        exact absurd hx hy
      | cons y' pre =>
        cases hsplit
        obtain ⟨pre', x', hfirst⟩ := ih (p := fun pre => p (y :: pre)) rfl hx
        exact ⟨y :: pre', x', hfirst.tail hy⟩

/-- A pass over a list ends with the blame of the first culprit, or with a value when there is
none. -/
def StopsAtFirst (blames : List α → α → ε → Prop) (xs : List α) : Except ε β → Prop
  | .ok _ => ∀ pre x post, xs = pre ++ x :: post → ∀ e, ¬ blames pre x e
  | .error e => ∃ pre x, IsFirst (fun pre x => ∃ e, blames pre x e) xs pre x ∧ blames pre x e

namespace StopsAtFirst

variable {γ : Type v} {blames : List α → α → ε → Prop} {xs : List α} {x : α}

theorem nil (b : β) : StopsAtFirst blames [] (.ok b) := by
  intro pre x post hsplit
  cases pre <;> cases hsplit

/-- The pass ends at the head. -/
theorem head {e : ε} (h : blames [] x e) :
    StopsAtFirst blames (x :: xs) (.error e : Except ε β) :=
  ⟨[], x, .head ⟨e, h⟩, h⟩

/-- The pass goes on after the head, and only adds to the value of the rest. -/
theorem tail (hx : ∀ e, ¬ blames [] x e) {rest : Except ε β}
    (h : StopsAtFirst (fun pre => blames (x :: pre)) xs rest) (f : β → γ) :
    StopsAtFirst blames (x :: xs) (rest >>= fun b => .ok (f b)) := by
  cases rest with
  | ok b =>
    intro pre y post hsplit
    cases pre with
    | nil =>
      cases hsplit
      exact hx
    | cons x' pre =>
      cases hsplit
      exact h pre y post rfl
  | error e =>
    obtain ⟨pre, y, hfirst, hblames⟩ := h
    exact ⟨x :: pre, y, hfirst.tail fun ⟨e, he⟩ => hx e he, hblames⟩

end StopsAtFirst

/-! ## Kinds of failures -/

/-- The computation ends with a value or with a failure that has the property. -/
def FailsOnly (p : ε → Prop) (x : Except ε α) : Prop := ∀ e, x = .error e → p e

namespace FailsOnly

variable {p : ε → Prop}

theorem ok (a : α) : FailsOnly p (.ok a) := by
  intro e h
  cases h

theorem error {e : ε} (h : p e) : FailsOnly p (.error e : Except ε α) := by
  intro e' he
  cases he
  exact h

theorem imp {q : ε → Prop} {x : Except ε α} (h : FailsOnly p x) (hpq : ∀ e, p e → q e) :
    FailsOnly q x := by
  intro e hfails
  exact hpq e (h e hfails)

/-- A chain fails as one of its steps does; the second step is only run on values of the first. -/
theorem bind {x : Except ε α} {f : α → Except ε β} (hx : FailsOnly p x)
    (hf : ∀ a, x = .ok a → FailsOnly p (f a)) : FailsOnly p (x >>= f) := by
  intro e h
  rcases bind_eq_error_iff.1 h with hx' | ⟨a, ha, hfa⟩
  · exact hx e hx'
  · exact hf a ha e hfa

theorem forM {f : α → Except ε PUnit.{v + 1}} {xs : List α} (h : ∀ x ∈ xs, FailsOnly p (f x)) :
    FailsOnly p (xs.forM f) := by
  intro e hfails
  obtain ⟨x, hx, hfx⟩ := exists_of_forM_eq_error hfails
  exact h x hx e hfx

theorem mapM {f : α → Except ε β} {xs : List α} (h : ∀ x ∈ xs, FailsOnly p (f x)) :
    FailsOnly p (xs.mapM f) := by
  intro e hfails
  obtain ⟨pre, x, post, rfl, -, hfx⟩ := mapM_eq_error_iff.1 hfails
  exact h x (List.mem_append_right pre List.mem_cons_self) e hfx

theorem mapError {x : Except ε' α} {g : ε' → ε} (h : FailsOnly (fun e => p (g e)) x) :
    FailsOnly p (x.mapError g) := by
  intro e hfails
  obtain ⟨e', he', rfl⟩ := mapError_eq_error_iff.1 hfails
  exact h e' he'

end FailsOnly

/-! ## Faults -/

/-- The computation ends with a value or with an error of the declaration. -/
def NeverFaults (x : Except Failure α) : Prop := ∀ cause, x ≠ .error (.fault cause)

theorem neverFaults_iff {x : Except Failure α} :
    NeverFaults x ↔ FailsOnly (fun e => ∀ cause, e ≠ .fault cause) x := by
  constructor
  · rintro h e he cause rfl
    exact h cause he
  · intro h cause he
    exact h _ he cause rfl

theorem neverFaults_ok (a : α) : NeverFaults (.ok a) := neverFaults_iff.2 (.ok a)

theorem neverFaults_error (cause : Error) : NeverFaults (.error (.error cause) : Except Failure α) := by
  intro fault h
  cases h

theorem neverFaults_structural (x : Except StructuralError α) :
    NeverFaults (x.mapError Failure.structural) :=
  neverFaults_iff.2 (.mapError fun _ _ _ => Failure.noConfusion)

theorem neverFaults_conflict (x : Except Conflict α) :
    NeverFaults (x.mapError Failure.conflict) :=
  neverFaults_iff.2 (.mapError fun _ _ _ => Failure.noConfusion)

namespace NeverFaults

/-- A chain of steps without faults has none; the second step is only run on values of the
first. -/
theorem bind {x : Except Failure α} {f : α → Except Failure β} (hx : NeverFaults x)
    (hf : ∀ a, x = .ok a → NeverFaults (f a)) : NeverFaults (x >>= f) :=
  neverFaults_iff.2 ((neverFaults_iff.1 hx).bind fun a ha => neverFaults_iff.1 (hf a ha))

theorem forM {f : α → Except Failure PUnit.{v + 1}} {xs : List α}
    (h : ∀ x ∈ xs, NeverFaults (f x)) : NeverFaults (xs.forM f) :=
  neverFaults_iff.2 (.forM fun x hx => neverFaults_iff.1 (h x hx))

theorem mapM {f : α → Except Failure β} {xs : List α} (h : ∀ x ∈ xs, NeverFaults (f x)) :
    NeverFaults (xs.mapM f) :=
  neverFaults_iff.2 (.mapM fun x hx => neverFaults_iff.1 (h x hx))

end NeverFaults

/-! ## Diagnosed computations -/

/-- The warnings of a chain follow one another, once the first step has a value. -/
theorem Diagnosed.warnings_bind {d : Diagnosed α} {next : α → Diagnosed β} {a : α}
    (h : d.outcome = .ok a) : (d >>= next).warnings = d.warnings ++ (next a).warnings := by
  obtain ⟨warnings, outcome⟩ := d
  cases h
  rfl

/-- A map over a list has the values of its elements and raises their warnings, in their order,
when it is known what each element gives. -/
theorem Diagnosed.mapM_spec {ι : Type u} {f : ι → Diagnosed α} {g : ι → α}
    {raised : ι → List Warning} {xs : List ι} {ys : List α}
    (hf : ∀ x ∈ xs, ∀ y, (f x).outcome = .ok y → y = g x ∧ (f x).warnings = raised x)
    (h : (xs.mapM f).outcome = .ok ys) :
    ys = xs.map g ∧ (xs.mapM f).warnings = xs.flatMap raised := by
  induction xs generalizing ys with
  | nil =>
    cases h
    exact ⟨rfl, rfl⟩
  | cons x xs ih =>
    obtain ⟨hx, hxs⟩ := List.forall_mem_cons.1 hf
    rw [List.mapM_cons, Diagnosed.outcome_bind, bind_eq_ok_iff] at h
    obtain ⟨y, hy, h⟩ := h
    rw [Diagnosed.outcome_bind, bind_eq_ok_iff] at h
    obtain ⟨rest, hrest, h⟩ := h
    cases h
    obtain ⟨rfl, hraised⟩ := hx y hy
    obtain ⟨rfl, hraisedRest⟩ := ih hxs hrest
    refine ⟨rfl, ?_⟩
    rw [List.mapM_cons, Diagnosed.warnings_bind hy, Diagnosed.warnings_bind hrest, hraised,
      hraisedRest, List.flatMap_cons]
    exact congrArg _ (List.append_nil _)

/-- What a policy makes of a computation whose value is mapped. -/
theorem Diagnosed.enforce_map (policy : Policy) (d : Diagnosed α) (g : α → β) :
    (g <$> d).enforce policy = (d.enforce policy).map fun r => ⟨g r.model, r.warnings⟩ := by
  rw [map_eq_pure_bind, Diagnosed.enforce_bind]
  cases d.enforce policy with
  | error e => rfl
  | ok r =>
    have hwarnings : r.warnings ++ [] = r.warnings := List.append_nil r.warnings
    exact congrArg (fun ws => Except.ok (Resolved.mk (g r.model) ws)) hwarnings

/-- What a policy rejects is a promoted warning or the failure of the computation. -/
theorem NeverFaults.enforce {d : Diagnosed α} (h : NeverFaults d.outcome) (policy : Policy) :
    NeverFaults (d.enforce policy) := by
  intro cause hfault
  rw [Diagnosed.enforce] at hfault
  split at hfault
  · cases hfault
  · cases houtcome : d.outcome with
    | ok a =>
      rw [houtcome] at hfault
      cases hfault
    | error failure =>
      rw [houtcome] at hfault
      cases hfault
      exact h cause houtcome

/-- A chain fails under a policy when its first step does, or its second step on the model of the
first. -/
theorem enforce_bind_eq_error_iff {policy : Policy} {d : Diagnosed α} {next : α → Diagnosed β}
    {e : Failure} :
    (d >>= next).enforce policy = .error e ↔
      d.enforce policy = .error e ∨
        ∃ r, d.enforce policy = .ok r ∧ (next r.model).enforce policy = .error e := by
  rw [Diagnosed.enforce_bind, bind_eq_error_iff]
  refine or_congr Iff.rfl (exists_congr fun r => and_congr_right fun _ => ?_)
  cases (next r.model).enforce policy with
  | ok s =>
    constructor
    · intro h
      cases h
    · intro h
      cases h
  | error e' => exact Iff.rfl

/-- A step without warnings fails under a policy when it fails. -/
theorem enforce_ofExcept_bind_eq_error_iff {policy : Policy} {x : Except Failure α}
    {next : α → Diagnosed β} {e : Failure} :
    (Diagnosed.ofExcept x >>= next).enforce policy = .error e ↔
      x = .error e ∨ ∃ a, x = .ok a ∧ (next a).enforce policy = .error e := by
  rw [enforce_bind_eq_error_iff, Diagnosed.enforce_ofExcept]
  cases x with
  | ok a => simp [Except.map]
  | error e' => simp [Except.map]

end BusMap
