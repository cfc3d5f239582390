import SchemaTyping.Document.Loader
import SchemaTyping.Proofs.Outcome

set_option autoImplicit false

/-! # Steps that may be refused

Reading a body, loading a document and running a command are steps on a state that may be refused; what they
did to the state stays done. `exec` runs such a step. The equations below run the parts a step is made of, so
that the proofs about documents and commands never open the monads. -/

namespace SchemaTyping

variable {ε σ α β : Type}

/-- Run a step: what comes of it, and the state it leaves. -/
def exec (m : ExceptT ε (StateM σ) α) (s : σ) : Except ε α × σ :=
  m.run.run s

@[simp] theorem exec_pure (a : α) (s : σ) :
    exec (pure a : ExceptT ε (StateM σ) α) s = (.ok a, s) := rfl

@[simp] theorem exec_throw (e : ε) (s : σ) :
    exec (throw e : ExceptT ε (StateM σ) α) s = (.error e, s) := rfl

@[simp] theorem exec_liftM (x : Except ε α) (s : σ) :
    exec (liftM x : ExceptT ε (StateM σ) α) s = (x, s) := rfl

theorem exec_lift (x : StateM σ α) (s : σ) :
    exec (liftM x : ExceptT ε (StateM σ) α) s = (.ok (x.run s).1, (x.run s).2) := rfl

@[simp] theorem exec_get (s : σ) :
    exec (get : ExceptT ε (StateM σ) σ) s = (.ok s, s) := rfl

@[simp] theorem exec_set (s s' : σ) :
    exec (set s' : ExceptT ε (StateM σ) PUnit) s = (.ok ⟨⟩, s') := rfl

@[simp] theorem exec_modify (f : σ → σ) (s : σ) :
    exec (modify f : ExceptT ε (StateM σ) PUnit) s = (.ok ⟨⟩, f s) := rfl

@[simp] theorem exec_modifyGet (f : σ → α × σ) (s : σ) :
    exec (modifyGet f : ExceptT ε (StateM σ) α) s = (.ok (f s).1, (f s).2) := rfl

/-- A step goes on from the state that the step before left, unless that one was refused. -/
theorem exec_bind (m : ExceptT ε (StateM σ) α)
    (f : α → ExceptT ε (StateM σ) β) (s : σ) :
    exec (m >>= f) s =
      match exec m s with
      | (.ok a, s') => exec (f a) s'
      | (.error e, s') => (.error e, s') := by
  simp only [exec, ExceptT.run_bind, StateT.run_bind]
  rcases m.run.run s with ⟨outcome, s'⟩
  cases outcome <;> rfl

theorem exec_bind_of_ok {m : ExceptT ε (StateM σ) α}
    {f : α → ExceptT ε (StateM σ) β} {s s' : σ} {a : α} (h : exec m s = (.ok a, s')) :
    exec (m >>= f) s = exec (f a) s' := by rw [exec_bind, h]

theorem exec_bind_of_error {m : ExceptT ε (StateM σ) α}
    {f : α → ExceptT ε (StateM σ) β} {s s' : σ} {e : ε}
    (h : exec m s = (.error e, s')) : exec (m >>= f) s = (.error e, s') := by rw [exec_bind, h]

theorem exec_bind_eq_ok {m : ExceptT ε (StateM σ) α}
    {f : α → ExceptT ε (StateM σ) β} {s s' : σ} {b : β} :
    exec (m >>= f) s = (.ok b, s') ↔
      ∃ a s₁, exec m s = (.ok a, s₁) ∧ exec (f a) s₁ = (.ok b, s') := by
  rcases hrun : exec m s with ⟨outcome, s₁⟩
  cases outcome with
  | error e => simp [exec_bind_of_error hrun]
  | ok a =>
      rw [exec_bind_of_ok hrun]
      constructor
      · exact fun h => ⟨a, s₁, rfl, h⟩
      · rintro ⟨a', s₁', heq, h⟩
        cases heq
        exact h

theorem exec_bind_eq_error {m : ExceptT ε (StateM σ) α}
    {f : α → ExceptT ε (StateM σ) β} {s : σ} {e : ε} :
    (exec (m >>= f) s).1 = .error e ↔
      (exec m s).1 = .error e ∨ ∃ a s₁, exec m s = (.ok a, s₁) ∧ (exec (f a) s₁).1 = .error e := by
  rcases hrun : exec m s with ⟨outcome, s₁⟩
  cases outcome with
  | error e' => simp [exec_bind_of_error hrun]
  | ok a =>
      rw [exec_bind_of_ok hrun]
      constructor
      · exact fun h => Or.inr ⟨a, s₁, rfl, h⟩
      · rintro (h | ⟨a', s₁', heq, h⟩)
        · cases h
        · cases heq
          exact h

/-- The same run with its result replaced, if there is one. -/
def onOk (f : α → β) (run : Except ε α × σ) : Except ε β × σ :=
  (run.1.map f, run.2)

theorem onOk_eq_ok {f : α → β} {run : Except ε α × σ} {b : β} {s : σ} :
    onOk f run = (.ok b, s) ↔ ∃ a, run = (.ok a, s) ∧ f a = b := by
  obtain ⟨outcome, s'⟩ := run
  cases outcome with
  | ok a =>
      constructor
      · intro h
        cases h
        exact ⟨a, rfl, rfl⟩
      · rintro ⟨a', h, rfl⟩
        cases h
        rfl
  | error e => simp [onOk, Except.map]

theorem onOk_eq_error {f : α → β} {run : Except ε α × σ} {e : ε} :
    (onOk f run).1 = .error e ↔ run.1 = .error e := by
  obtain ⟨outcome, s⟩ := run
  cases outcome <;> simp [onOk, Except.map]

theorem exec_bind_pure (m : ExceptT ε (StateM σ) α) (f : α → β) (s : σ) :
    exec (do let a ← m; return f a) s = onOk f (exec m s) := by
  rw [exec_bind]
  rcases exec m s with ⟨outcome, s'⟩
  cases outcome <;> rfl

/-! ## Two runs -/

variable {τ γ δ : Type} {R : σ → τ → Prop} {refusals : DocumentError → DocumentError → Prop}

/-- The second run gives what the first one gives, up to `f`, and the states they leave are related; or both
    are refused, for related reasons. -/
def RunCorresponds (refusals : DocumentError → DocumentError → Prop) (R : σ → τ → Prop) (f : α → β)
    (run : Except DocumentError α × σ) (run' : Except DocumentError β × τ) : Prop :=
  Outcome.Corresponds refusals (fun a b => b = f a ∧ R run.2 run'.2) run.1 run'.1

/-- The runs of two steps from related states correspond. -/
def Corresponds (refusals : DocumentError → DocumentError → Prop) (R : σ → τ → Prop) (f : α → β)
    (m : ExceptT DocumentError (StateM σ) α) (m' : ExceptT DocumentError (StateM τ) β) : Prop :=
  ∀ s t, R s t → RunCorresponds refusals R f (exec m s) (exec m' t)

theorem runCorresponds_ok {f : α → β} {a : α} {s : σ} {t : τ} (h : R s t) :
    RunCorresponds refusals R f (.ok a, s) (.ok (f a), t) := ⟨rfl, h⟩

theorem runCorresponds_error {f : α → β} {e e' : DocumentError} {s : σ} {t : τ} (h : refusals e e') :
    RunCorresponds refusals R f (.error e, s) (.error e', t) := h

/-- What the second run gives the first one gives. -/
theorem RunCorresponds.of_eq_ok {f : α → β} {run : Except DocumentError α × σ} {b : β} {t : τ}
    (h : RunCorresponds refusals R f run (.ok b, t)) : ∃ a s, run = (.ok a, s) ∧ b = f a ∧ R s t := by
  obtain ⟨outcome, s⟩ := run
  obtain ⟨a, ha, hb, hR⟩ := h.of_ok
  exact ⟨a, s, by rw [show outcome = .ok a from ha], hb, hR⟩

/-- Runs that correspond with equal refusals have one outcome. -/
theorem RunCorresponds.of_eq {run : Except DocumentError α × σ} {run' : Except DocumentError α × τ}
    (h : RunCorresponds (· = ·) R id run run') :
    run'.1 = run.1 ∧ ∀ a, run.1 = .ok a → R run.2 run'.2 := by
  obtain ⟨outcome, s⟩ := run
  obtain ⟨outcome', t⟩ := run'
  cases outcome <;> cases outcome'
  · exact ⟨congrArg Except.error (Eq.symm h), nofun⟩
  · exact h.elim
  · exact h.elim
  · obtain ⟨rfl, hR⟩ := h
    exact ⟨rfl, fun _ _ => hR⟩

theorem RunCorresponds.onOk {f : α → β} {g : γ → δ} {k : α → γ} {k' : β → δ}
    {run : Except DocumentError α × σ} {run' : Except DocumentError β × τ}
    (h : RunCorresponds refusals R f run run') (hk : ∀ a, k' (f a) = g (k a)) :
    RunCorresponds refusals R g (onOk k run) (onOk k' run') := by
  obtain ⟨outcome, s⟩ := run
  obtain ⟨outcome', t⟩ := run'
  cases outcome <;> cases outcome'
  · exact h
  · exact h.elim
  · exact h.elim
  · obtain ⟨rfl, hR⟩ := h
    exact ⟨hk _, hR⟩

theorem corresponds_pure (f : α → β) (a : α) : Corresponds refusals R f (pure a) (pure (f a)) :=
  fun _ _ h => runCorresponds_ok h

/-- A step corresponds to itself. -/
theorem corresponds_self (m : ExceptT DocumentError (StateM σ) α) :
    Corresponds (· = ·) (· = ·) id m m := by
  rintro s _ rfl
  rcases exec m s with ⟨outcome, s'⟩
  cases outcome
  · exact runCorresponds_error rfl
  · exact runCorresponds_ok rfl

theorem corresponds_bind {f : α → β} {g : γ → δ} {m : ExceptT DocumentError (StateM σ) α}
    {m' : ExceptT DocumentError (StateM τ) β} {k : α → ExceptT DocumentError (StateM σ) γ}
    {k' : β → ExceptT DocumentError (StateM τ) δ} (hm : Corresponds refusals R f m m')
    (hk : ∀ a, Corresponds refusals R g (k a) (k' (f a))) :
    Corresponds refusals R g (m >>= k) (m' >>= k') := by
  intro s t h
  have hrun := hm s t h
  rcases hs : exec m s with ⟨outcome, s₁⟩
  rcases ht : exec m' t with ⟨outcome', t₁⟩
  rw [hs, ht] at hrun
  cases outcome <;> cases outcome'
  · rw [exec_bind_of_error hs, exec_bind_of_error ht]
    exact hrun
  · exact hrun.elim
  · exact hrun.elim
  · obtain ⟨rfl, hR⟩ := hrun
    rw [exec_bind_of_ok hs, exec_bind_of_ok ht]
    exact hk _ _ _ hR

/-! ## Two runs with one outcome -/

/-- Both runs give the same, up to `f`, and the states they leave are related; or both are refused for the
    same reason. -/
def RunAlike (R : σ → τ → Prop) (f : α → β) (run : Except DocumentError α × σ)
    (run' : Except DocumentError β × τ) : Prop :=
  (∃ a s t, run = (.ok a, s) ∧ run' = (.ok (f a), t) ∧ R s t) ∨
    ∃ e s t, run = (.error e, s) ∧ run' = (.error e, t)

/-- The runs of two steps from related states have one outcome. -/
def Alike (R : σ → τ → Prop) (f : α → β) (m : ExceptT DocumentError (StateM σ) α)
    (m' : ExceptT DocumentError (StateM τ) β) : Prop :=
  ∀ s t, R s t → RunAlike R f (exec m s) (exec m' t)

theorem runAlike_ok {f : α → β} {a : α} {s : σ} {t : τ} (h : R s t) :
    RunAlike R f (.ok a, s) (.ok (f a), t) := Or.inl ⟨a, s, t, rfl, rfl, h⟩

theorem runAlike_error {f : α → β} {e : DocumentError} {s : σ} {t : τ} :
    RunAlike R f (.error e, s) (.error e, t) := Or.inr ⟨e, s, t, rfl, rfl⟩

/-- The runs of two steps from related states have one outcome, unless the first is refused for one of these
    reasons. -/
def AlikeUnless (lost : DocumentError → Prop) (R : σ → τ → Prop) (f : α → β)
    (m : ExceptT DocumentError (StateM σ) α) (m' : ExceptT DocumentError (StateM τ) β) : Prop :=
  ∀ s t, R s t → RunAlike R f (exec m s) (exec m' t) ∨ ∃ e, (exec m s).1 = .error e ∧ lost e

section

variable {lost : DocumentError → Prop}

theorem alikeUnless_pure (f : α → β) (a : α) : AlikeUnless lost R f (pure a) (pure (f a)) :=
  fun _ _ h => Or.inl (runAlike_ok h)

theorem alikeUnless_throw (f : α → β) (e : DocumentError) :
    AlikeUnless lost R f (throw e) (throw e) := fun _ _ _ => Or.inl runAlike_error

theorem alikeUnless_lost (f : α → β) {e : DocumentError} (he : lost e)
    (m' : ExceptT DocumentError (StateM τ) β) : AlikeUnless lost R f (throw e) m' :=
  fun _ _ _ => Or.inr ⟨e, rfl, he⟩

theorem alikeUnless_liftM (f : α → β) (x : Except DocumentError α) :
    AlikeUnless lost R f (liftM x) (liftM (x.map f)) := by
  intro s t h
  rw [exec_liftM, exec_liftM]
  cases x with
  | error e => exact Or.inl runAlike_error
  | ok a => exact Or.inl (runAlike_ok h)

theorem alikeUnless_bind {f : α → β} {g : γ → δ} {m : ExceptT DocumentError (StateM σ) α}
    {m' : ExceptT DocumentError (StateM τ) β} {k : α → ExceptT DocumentError (StateM σ) γ}
    {k' : β → ExceptT DocumentError (StateM τ) δ} (hm : AlikeUnless lost R f m m')
    (hk : ∀ a, AlikeUnless lost R g (k a) (k' (f a))) :
    AlikeUnless lost R g (m >>= k) (m' >>= k') := by
  intro s t h
  rcases hm s t h with (⟨a, s₁, t₁, hs, ht, h₁⟩ | ⟨e, s₁, t₁, hs, ht⟩) | ⟨e, he, hlost⟩
  · rw [exec_bind_of_ok hs, exec_bind_of_ok ht]
    exact hk a s₁ t₁ h₁
  · rw [exec_bind_of_error hs, exec_bind_of_error ht]
    exact Or.inl runAlike_error
  · exact Or.inr ⟨e, exec_bind_eq_error.2 (Or.inl he), hlost⟩

end

/-- Where no reason is excepted the runs are alike. -/
theorem AlikeUnless.alike {lost : DocumentError → Prop} {f : α → β}
    {m : ExceptT DocumentError (StateM σ) α} {m' : ExceptT DocumentError (StateM τ) β}
    (h : AlikeUnless lost R f m m') (hlost : ∀ e, ¬lost e) : Alike R f m m' := by
  intro s t hR
  rcases h s t hR with hrun | ⟨e, -, he⟩
  · exact hrun
  · exact absurd he (hlost e)

theorem Alike.corresponds {f : α → β} {m : ExceptT DocumentError (StateM σ) α}
    {m' : ExceptT DocumentError (StateM τ) β} (h : Alike R f m m') (hrefl : ∀ e, refusals e e) :
    Corresponds refusals R f m m' := by
  intro s t hR
  rcases h s t hR with ⟨a, s₁, t₁, hs, ht, h₁⟩ | ⟨e, s₁, t₁, hs, ht⟩
  · rw [hs, ht]
    exact runCorresponds_ok h₁
  · rw [hs, ht]
    exact runCorresponds_error (hrefl e)

end SchemaTyping
