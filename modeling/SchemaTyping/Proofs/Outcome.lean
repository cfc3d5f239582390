import Mathlib.Data.List.Forall2

set_option autoImplicit false

/-! # Outcomes

What it takes for a composed step to succeed: each of its parts does; and where its refusal comes from
otherwise: from one of them. The proofs about resolution and generation take their computations apart with
these. -/

namespace SchemaTyping.Outcome

variable {ε α β : Type}

theorem ok_bind (a : α) (f : α → Except ε β) : (Except.ok a >>= f) = f a := rfl

theorem bind_eq_ok {x : Except ε α} {f : α → Except ε β} {b : β} :
    (x >>= f) = .ok b ↔ ∃ a, x = .ok a ∧ f a = .ok b := by
  cases x <;> simp [bind, Except.bind]

theorem map_eq_ok {x : Except ε α} {f : α → β} {b : β} :
    x.map f = .ok b ↔ ∃ a, x = .ok a ∧ f a = b := by
  cases x <;> simp [Except.map]

theorem map_bind_pure {γ : Type} (x : Except ε α) (f : α → β) (g : β → γ) :
    (x >>= fun a => pure (f a)).map g = x >>= fun a => pure (g (f a)) := by
  cases x <;> rfl

theorem mapError_eq_ok {ε' : Type} {x : Except ε α} {f : ε → ε'} {a : α} :
    x.mapError f = .ok a ↔ x = .ok a := by
  constructor
  · intro h
    cases x <;> cases h
    rfl
  · rintro rfl
    rfl

theorem mapError_eq_error {ε' : Type} {x : Except ε α} {f : ε → ε'} {e : ε'} :
    x.mapError f = .error e ↔ ∃ e', x = .error e' ∧ f e' = e := by
  constructor
  · intro h
    cases x <;> cases h
    exact ⟨_, rfl, rfl⟩
  · rintro ⟨e', rfl, rfl⟩
    rfl

theorem mapM_nil_eq_ok {f : α → Except ε β} {ys : List β} :
    ([] : List α).mapM f = .ok ys ↔ ys = [] := by
  simp [pure, Except.pure, eq_comm]

theorem mapM_cons_eq_ok {f : α → Except ε β} {x : α} {xs : List α} {ys : List β} :
    (x :: xs).mapM f = .ok ys ↔ ∃ y ys', f x = .ok y ∧ xs.mapM f = .ok ys' ∧ ys = y :: ys' := by
  rw [List.mapM_cons, bind_eq_ok]
  constructor
  · rintro ⟨y, hy, h⟩
    obtain ⟨ys', hys, h⟩ := bind_eq_ok.1 h
    exact ⟨y, ys', hy, hys, (Except.ok.inj h).symm⟩
  · rintro ⟨y, ys', hy, hys, rfl⟩
    exact ⟨y, hy, bind_eq_ok.2 ⟨ys', hys, rfl⟩⟩

theorem mapM_congr {f g : α → Except ε β} {xs : List α} (h : ∀ x ∈ xs, f x = g x) :
    xs.mapM f = xs.mapM g := by
  induction xs with
  | nil => rfl
  | cons x xs ih =>
      rw [List.mapM_cons, List.mapM_cons, h x List.mem_cons_self,
        ih fun x' hx' => h x' (List.mem_cons_of_mem _ hx')]

/-- Going through a list succeeds with the results of its elements in turn. -/
theorem mapM_eq_ok_iff {f : α → Except ε β} {xs : List α} {ys : List β} :
    xs.mapM f = .ok ys ↔ List.Forall₂ (fun x y => f x = .ok y) xs ys := by
  induction xs generalizing ys with
  | nil => rw [mapM_nil_eq_ok, List.forall₂_nil_left_iff]
  | cons x xs ih =>
      rw [mapM_cons_eq_ok, List.forall₂_cons_left_iff]
      constructor
      · rintro ⟨y, ys', hy, hys, rfl⟩
        exact ⟨y, ys', hy, ih.1 hys, rfl⟩
      · rintro ⟨y, ys', hy, hys, rfl⟩
        exact ⟨y, ys', hy, ih.2 hys, rfl⟩

/-- Where every element succeeds the list does, with a result for each element in turn. -/
theorem exists_mapM_eq_ok {f : α → Except ε β} {P : α → β → Prop} {xs : List α}
    (h : ∀ x ∈ xs, ∃ y, f x = .ok y ∧ P x y) : ∃ ys, xs.mapM f = .ok ys ∧ List.Forall₂ P xs ys := by
  induction xs with
  | nil => exact ⟨[], mapM_nil_eq_ok.2 rfl, .nil⟩
  | cons x xs ih =>
      obtain ⟨y, hy, hxy⟩ := h x List.mem_cons_self
      obtain ⟨ys, hys, hall⟩ := ih fun x' hx' => h x' (List.mem_cons_of_mem _ hx')
      exact ⟨y :: ys, mapM_cons_eq_ok.2 ⟨y, ys, hy, hys, rfl⟩, .cons hxy hall⟩

/-! ## Refusals -/

theorem bind_eq_error {x : Except ε α} {f : α → Except ε β} {e : ε} :
    (x >>= f) = .error e ↔ x = .error e ∨ ∃ a, x = .ok a ∧ f a = .error e := by
  cases x <;> simp [bind, Except.bind]

theorem bind_pure_eq_error {x : Except ε α} {f : α → β} {e : ε} :
    (x >>= fun a => pure (f a)) = .error e ↔ x = .error e := by
  cases x <;> simp [bind, Except.bind, pure, Except.pure]

theorem map_eq_error {x : Except ε α} {f : α → β} {e : ε} : x.map f = .error e ↔ x = .error e := by
  cases x <;> simp [Except.map]

/-- Every element of a list that is gone through succeeds, with one of the results. -/
theorem exists_mem_of_mapM_eq_ok {f : α → Except ε β} {xs : List α} {ys : List β}
    (h : xs.mapM f = .ok ys) : ∀ x ∈ xs, ∃ y ∈ ys, f x = .ok y := by
  induction xs generalizing ys with
  | nil => exact fun x hx => absurd hx List.not_mem_nil
  | cons x xs ih =>
      obtain ⟨y, ys', hy, hys, rfl⟩ := mapM_cons_eq_ok.1 h
      intro x' hx'
      rcases List.mem_cons.1 hx' with rfl | hx'
      · exact ⟨y, List.mem_cons_self, hy⟩
      · obtain ⟨y', hy', hx'⟩ := ih hys x' hx'
        exact ⟨y', List.mem_cons_of_mem _ hy', hx'⟩

/-- Every result is that of one of the elements. -/
theorem exists_of_mem_of_mapM_eq_ok {f : α → Except ε β} {xs : List α} {ys : List β}
    (h : xs.mapM f = .ok ys) : ∀ y ∈ ys, ∃ x ∈ xs, f x = .ok y := by
  have hall := mapM_eq_ok_iff.1 h
  clear h
  induction hall with
  | nil => exact fun y hy => absurd hy List.not_mem_nil
  | cons hy _ ih =>
      refine List.forall_mem_cons.2 ⟨⟨_, List.mem_cons_self, hy⟩, fun y' hy' => ?_⟩
      obtain ⟨x', hx', hfx'⟩ := ih y' hy'
      exact ⟨x', List.mem_cons_of_mem _ hx', hfx'⟩

theorem exists_of_mapM_eq_ok {f : α → Except ε β} {xs : List α} {ys : List β}
    (h : xs.mapM f = .ok ys) (x : α) (hx : x ∈ xs) : ∃ y, f x = .ok y := by
  obtain ⟨y, -, hy⟩ := exists_mem_of_mapM_eq_ok h x hx
  exact ⟨y, hy⟩

/-- A list is refused at the first of its elements that is. -/
theorem mapM_eq_error_iff {f : α → Except ε β} {xs : List α} {e : ε} :
    xs.mapM f = .error e ↔
      ∃ before x after ys, xs = before ++ x :: after ∧ before.mapM f = .ok ys ∧ f x = .error e := by
  constructor
  · intro h
    induction xs with
    | nil => cases h
    | cons x xs ih =>
        rw [List.mapM_cons] at h
        rcases bind_eq_error.1 h with hx | ⟨y, hy, h⟩
        · exact ⟨[], x, xs, [], rfl, rfl, hx⟩
        rcases bind_eq_error.1 h with hxs | ⟨ys, -, h⟩
        · obtain ⟨before, x', after, ys, rfl, hbefore, hx'⟩ := ih hxs
          exact ⟨x :: before, x', after, y :: ys, rfl,
            mapM_cons_eq_ok.2 ⟨y, ys, hy, hbefore, rfl⟩, hx'⟩
        · cases h
  · rintro ⟨before, x, after, ys, rfl, hbefore, hx⟩
    rw [List.mapM_append, hbefore, List.mapM_cons, hx]
    rfl

/-- Going through a list succeeds exactly when it does with each element, in whatever order they stand. -/
theorem exists_mapM_eq_ok_iff {f : α → Except ε β} {xs : List α} :
    (∃ ys, xs.mapM f = .ok ys) ↔ ∀ x ∈ xs, ∃ y, f x = .ok y := by
  constructor
  · rintro ⟨ys, hys⟩
    exact exists_of_mapM_eq_ok hys
  · intro h
    obtain ⟨ys, hys, -⟩ := exists_mapM_eq_ok (P := fun _ _ => True) fun x hx => by
      obtain ⟨y, hy⟩ := h x hx
      exact ⟨y, hy, trivial⟩
    exact ⟨ys, hys⟩

/-- The results are those of a function that has the result of each element. -/
theorem eq_map_of_mapM_eq_ok {f : α → Except ε β} {F : α → β} (hF : ∀ x y, f x = .ok y → F x = y)
    {xs : List α} {ys : List β} (h : xs.mapM f = .ok ys) : ys = xs.map F := by
  have hall := mapM_eq_ok_iff.1 h
  clear h
  induction hall with
  | nil => rfl
  | cons hy _ ih => rw [List.map_cons, hF _ _ hy, ih]

/-- The refusal of a list is that of one of its elements. -/
theorem exists_of_mapM_eq_error {f : α → Except ε β} {xs : List α} {e : ε}
    (h : xs.mapM f = .error e) : ∃ x ∈ xs, f x = .error e := by
  obtain ⟨before, x, after, ys, rfl, -, hx⟩ := mapM_eq_error_iff.1 h
  exact ⟨x, List.mem_append_right _ List.mem_cons_self, hx⟩

/-- The results of a list are those of its parts in turn. -/
theorem mapM_append_eq_ok {f : α → Except ε β} {xs xs' : List α} {zs : List β} :
    (xs ++ xs').mapM f = .ok zs ↔
      ∃ ys ys', xs.mapM f = .ok ys ∧ xs'.mapM f = .ok ys' ∧ zs = ys ++ ys' := by
  rw [List.mapM_append, bind_eq_ok]
  constructor
  · rintro ⟨ys, hys, h⟩
    obtain ⟨ys', hys', h⟩ := bind_eq_ok.1 h
    exact ⟨ys, ys', hys, hys', (Except.ok.inj h).symm⟩
  · rintro ⟨ys, ys', hys, hys', rfl⟩
    exact ⟨ys, hys, bind_eq_ok.2 ⟨ys', hys', rfl⟩⟩

/-! ## Outcomes that agree -/

/-- The second outcome is the first, unless the first is a refusal for one of these reasons. -/
def AgreeUnless (lost : ε → Prop) (x y : Except ε α) : Prop := (∃ e, x = .error e ∧ lost e) ∨ y = x

section

variable {lost : ε → Prop}

theorem AgreeUnless.refl (x : Except ε α) : AgreeUnless lost x x := Or.inr rfl

theorem AgreeUnless.eq {x y : Except ε α} (h : AgreeUnless lost x y) (hlost : ∀ e, ¬lost e) : y = x := by
  rcases h with ⟨e, -, he⟩ | heq
  · exact absurd he (hlost e)
  · exact heq

theorem AgreeUnless.map {x y : Except ε α} (h : AgreeUnless lost x y) (f : α → β) :
    AgreeUnless lost (x.map f) (y.map f) := by
  rcases h with ⟨e, he, hlost⟩ | heq
  · exact Or.inl ⟨e, map_eq_error.2 he, hlost⟩
  · exact Or.inr (by rw [heq])

/-- The first refusal decides: what comes before it agrees, and what comes after it does not count. -/
theorem AgreeUnless.bind {x y : Except ε α} {f g : α → Except ε β} (h : AgreeUnless lost x y)
    (hf : ∀ a, AgreeUnless lost (f a) (g a)) : AgreeUnless lost (x >>= f) (y >>= g) := by
  rcases h with ⟨e, he, hlost⟩ | rfl
  · exact Or.inl ⟨e, bind_eq_error.2 (Or.inl he), hlost⟩
  · cases y with
    | error e => exact .refl _
    | ok a => exact hf a

theorem AgreeUnless.mapM {f g : α → Except ε β} {xs : List α}
    (h : ∀ x ∈ xs, AgreeUnless lost (f x) (g x)) : AgreeUnless lost (xs.mapM f) (xs.mapM g) := by
  induction xs with
  | nil => exact .refl _
  | cons x xs ih =>
      rw [List.mapM_cons, List.mapM_cons]
      obtain ⟨hx, hxs⟩ := List.forall_mem_cons.1 h
      exact hx.bind fun y => (ih hxs).bind fun ys => .refl _

end

/-! ## Outcomes that correspond -/

/-- Both outcomes are results that are related, or both are refusals that are. -/
def Corresponds {ε' : Type} (refusals : ε → ε' → Prop) (results : α → β → Prop) :
    Except ε α → Except ε' β → Prop
  | .ok a, .ok b => results a b
  | .error e, .error e' => refusals e e'
  | _, _ => False

section

variable {ε' : Type} {refusals : ε → ε' → Prop} {results : α → β → Prop}

theorem Corresponds.of_ok {x : Except ε α} {b : β} (h : Corresponds refusals results x (.ok b)) :
    ∃ a, x = .ok a ∧ results a b := by
  cases x with
  | error e => exact h.elim
  | ok a => exact ⟨a, rfl, h⟩

end

end SchemaTyping.Outcome
