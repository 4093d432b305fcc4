import PipeShell.Store.Entry

/-!
# Running actions

What an action does to a state, step by step: a step that fails ends it. Attempts that touch no state
run likewise.
-/

namespace PipeShell

/-! ## Attempts -/

namespace Attempt

variable {ε α β : Type}

@[simp] theorem pure_eq_ok (a : α) : (pure a : Except ε α) = .ok a := rfl

@[simp] theorem throw_eq_error (e : ε) : (throw e : Except ε α) = .error e := rfl

@[simp] theorem ok_bind (a : α) (f : α → Except ε β) : (Except.ok a >>= f) = f a := rfl

@[simp] theorem error_bind (e : ε) (f : α → Except ε β) : (Except.error e >>= f) = .error e := rfl

/-- What the attempt gives has `P`, and what it fails with has `E`. -/
def Gives (r : Except ε α) (P : α → Prop) (E : ε → Prop) : Prop :=
  match r with
  | .ok a => P a
  | .error e => E e

variable {P P' : α → Prop} {Q : β → Prop} {E E' : ε → Prop}

theorem gives_ok {a : α} (h : P a) : Gives (.ok a) P E := h

theorem gives_error {e : ε} (h : E e) : Gives (.error e) P E := h

theorem gives_of {r : Except ε α} (hok : ∀ a, r = .ok a → P a)
    (herror : ∀ e, r = .error e → E e) : Gives r P E := by
  cases r with
  | ok a => exact hok a rfl
  | error e => exact herror e rfl

theorem Gives.given {r : Except ε α} (h : Gives r P E) {a : α} (hr : r = .ok a) : P a := by
  rwa [hr] at h

theorem Gives.failed {r : Except ε α} (h : Gives r P E) {e : ε} (hr : r = .error e) : E e := by
  rwa [hr] at h

theorem Gives.mono {r : Except ε α} (h : Gives r P E) (hP : ∀ a, P a → P' a)
    (hE : ∀ e, E e → E' e) : Gives r P' E' :=
  gives_of (fun a ha => hP a (h.given ha)) fun e he => hE e (h.failed he)

theorem Gives.bind {r : Except ε α} {f : α → Except ε β} (h : Gives r P E)
    (hf : ∀ a, P a → Gives (f a) Q E) : Gives (r >>= f) Q E := by
  cases r with
  | ok a => exact hf a h
  | error e => exact h

/-! ### Failing -/

/-- The attempt fails. -/
def Fails (r : Except ε α) : Prop :=
  ∃ e, r = .error e

@[simp] theorem not_fails_ok (a : α) : ¬Fails (.ok a : Except ε α) :=
  fun ⟨_, h⟩ => nomatch h

@[simp] theorem fails_error (e : ε) : Fails (.error e : Except ε α) :=
  ⟨e, rfl⟩

@[simp] theorem fails_map {r : Except ε α} {f : α → β} : Fails (r.map f) ↔ Fails r := by
  cases r <;> simp [Except.map]

/-- What follows has to be known only where the first attempt succeeds. -/
theorem fails_bind {r : Except ε α} {f : α → Except ε β} {p : Prop}
    (h : ∀ a, r = .ok a → (Fails (f a) ↔ p)) : Fails (r >>= f) ↔ Fails r ∨ p := by
  cases r with
  | ok a => simp [h a rfl]
  | error e => simp

end Attempt

/-! ## Actions -/

namespace Action

variable {σ α β : Type}

/-- What an action gives in a state, with the state that it leaves. -/
def outcome (x : Action σ α) (s : σ) : Except Failure α × σ :=
  x s

@[simp] theorem outcome_pure (a : α) (s : σ) : outcome (pure a) s = (.ok a, s) := rfl

@[simp] theorem outcome_throw (f : Failure) (s : σ) :
    outcome (throw f : Action σ α) s = (.error f, s) := rfl

@[simp] theorem outcome_get (s : σ) : outcome (get : Action σ σ) s = (.ok s, s) := rfl

@[simp] theorem outcome_set (s s' : σ) : outcome (set s' : Action σ PUnit) s = (.ok ⟨⟩, s') := rfl

@[simp] theorem outcome_liftM_except (r : Except Failure α) (s : σ) :
    outcome (liftM r : Action σ α) s = (r, s) := by
  cases r <;> rfl

@[simp] theorem outcome_ite (c : Prop) [Decidable c] (x y : Action σ α) (s : σ) :
    outcome (if c then x else y) s = if c then x.outcome s else y.outcome s := by
  split <;> rfl

theorem outcome_bind (x : Action σ α) (f : α → Action σ β) (s : σ) :
    outcome (x >>= f) s = match x.outcome s with
      | (.ok a, s') => (f a).outcome s'
      | (.error e, s') => (.error e, s') := by
  change ExceptT.bindCont f (x.outcome s).1 (x.outcome s).2 = _
  cases x.outcome s with
  | mk r s' => cases r <;> rfl

@[simp] theorem outcome_map (f : α → β) (x : Action σ α) (s : σ) :
    outcome (f <$> x) s = ((x.outcome s).1.map f, (x.outcome s).2) := by
  change outcome (x >>= fun a => pure (f a)) s = _
  rw [outcome_bind]
  cases x.outcome s with
  | mk r s' => cases r <;> rfl

theorem outcome_tryCatch (x : Action σ α) (handle : Failure → Action σ α) (s : σ) :
    outcome (tryCatch x handle) s = match x.outcome s with
      | (.ok a, s') => (.ok a, s')
      | (.error e, s') => (handle e).outcome s' := by
  simp only [outcome, tryCatch, tryCatchThe, MonadExceptOf.tryCatch, ExceptT.tryCatch, ExceptT.mk,
    bind, StateT.bind]
  change _ = match x s with
    | (.ok a, s') => ((.ok a, s') : Except Failure α × σ)
    | (.error e, s') => handle e s'
  generalize x s = r
  obtain ⟨r, s'⟩ := r
  cases r <;> rfl

theorem outcome_bind_ok {x : Action σ α} {f : α → Action σ β} {s s' : σ} {a : α}
    (h : x.outcome s = (.ok a, s')) : outcome (x >>= f) s = (f a).outcome s' := by
  rw [outcome_bind, h]

theorem outcome_bind_error {x : Action σ α} {f : α → Action σ β} {s s' : σ} {e : Failure}
    (h : x.outcome s = (.error e, s')) : outcome (x >>= f) s = (.error e, s') := by
  rw [outcome_bind, h]

theorem bind_eq_ok {x : Action σ α} {f : α → Action σ β} {s s' : σ} {b : β}
    (h : outcome (x >>= f) s = (.ok b, s')) :
    ∃ a t, x.outcome s = (.ok a, t) ∧ (f a).outcome t = (.ok b, s') := by
  rw [outcome_bind] at h
  cases hx : x.outcome s with
  | mk r t =>
      cases r with
      | ok a => exact ⟨a, t, rfl, by simpa [hx] using h⟩
      | error e => simp [hx] at h

theorem liftM_eq_ok {r : Except Failure α} {s s' : σ} {a : α}
    (h : outcome (liftM r : Action σ α) s = (.ok a, s')) : r = .ok a ∧ s = s' := by
  rw [outcome_liftM_except] at h
  exact ⟨congrArg Prod.fst h, congrArg Prod.snd h⟩

/-! ## What runs keep and give -/

/-- From states with `I` the action leads to such states; what it gives has `P`, and what it fails
with has `E`. -/
structure Yields (x : Action σ α) (I : σ → Prop) (P : α → Prop) (E : Failure → Prop) : Prop where
  kept : ∀ s, I s → I (x.outcome s).2
  result : ∀ s, I s → Attempt.Gives (x.outcome s).1 P E

variable {I : σ → Prop} {P : α → Prop} {Q : β → Prop} {E E' : Failure → Prop}

theorem yields_of_outcome {x : Action σ α}
    (h : ∀ s, I s → I (x.outcome s).2 ∧ Attempt.Gives (x.outcome s).1 P E) : x.Yields I P E :=
  ⟨fun s hs => (h s hs).1, fun s hs => (h s hs).2⟩

theorem yields_pure {a : α} (h : P a) : (pure a : Action σ α).Yields I P E :=
  yields_of_outcome fun _ hs => ⟨hs, h⟩

theorem yields_throw {f : Failure} (h : E f) : (throw f : Action σ α).Yields I P E :=
  yields_of_outcome fun _ hs => ⟨hs, h⟩

theorem yields_get : (get : Action σ σ).Yields I I E :=
  yields_of_outcome fun _ hs => ⟨hs, hs⟩

theorem yields_set {s : σ} (h : I s) : (set s : Action σ PUnit).Yields I (fun _ => True) E :=
  yields_of_outcome fun _ _ => ⟨h, trivial⟩

theorem yields_modify {change : σ → σ} (h : ∀ s, I s → I (change s)) :
    (modify change : Action σ PUnit).Yields I (fun _ => True) E :=
  yields_of_outcome fun s hs => ⟨h s hs, trivial⟩

theorem yields_liftM_except {r : Except Failure α} (h : Attempt.Gives r P E) :
    (liftM r : Action σ α).Yields I P E := by
  refine yields_of_outcome fun s hs => ?_
  rw [outcome_liftM_except]
  exact ⟨hs, h⟩

theorem yields_ite {c : Prop} [Decidable c] {x y : Action σ α} (hx : c → x.Yields I P E)
    (hy : ¬c → y.Yields I P E) : (if c then x else y).Yields I P E := by
  by_cases hc : c
  · rw [if_pos hc]
    exact hx hc
  · rw [if_neg hc]
    exact hy hc

theorem Yields.mono {x : Action σ α} {P' : α → Prop} (h : x.Yields I P E) (hP : ∀ a, P a → P' a)
    (hE : ∀ f, E f → E' f) : x.Yields I P' E' :=
  ⟨h.kept, fun s hs => (h.result s hs).mono hP hE⟩

theorem Yields.of_ok {x : Action σ α} (h : x.Yields I P E) {s s' : σ} {a : α} (hs : I s)
    (ho : x.outcome s = (.ok a, s')) : I s' ∧ P a := by
  have hk := h.kept s hs
  have hr := h.result s hs
  rw [ho] at hk hr
  exact ⟨hk, hr⟩

theorem Yields.of_error {x : Action σ α} (h : x.Yields I P E) {s s' : σ} {f : Failure} (hs : I s)
    (ho : x.outcome s = (.error f, s')) : I s' ∧ E f := by
  have hk := h.kept s hs
  have hr := h.result s hs
  rw [ho] at hk hr
  exact ⟨hk, hr⟩

theorem Yields.bind {x : Action σ α} {f : α → Action σ β} (hx : x.Yields I P E)
    (hf : ∀ a, P a → (f a).Yields I Q E) : (x >>= f).Yields I Q E := by
  refine yields_of_outcome fun s hs => ?_
  have hk := hx.kept s hs
  have hr := hx.result s hs
  rw [outcome_bind]
  generalize x.outcome s = out at hk hr
  obtain ⟨r, t⟩ := out
  cases r with
  | ok a => exact ⟨(hf a hr).kept t hk, (hf a hr).result t hk⟩
  | error e => exact ⟨hk, hr⟩

theorem Yields.map {x : Action σ α} {f : α → β} (hx : x.Yields I P E) (hf : ∀ a, P a → Q (f a)) :
    (f <$> x).Yields I Q E :=
  hx.bind fun a ha => yields_pure (hf a ha)

theorem Yields.tryCatch {x : Action σ α} {handle : Failure → Action σ α} (hx : x.Yields I P E')
    (hh : ∀ f, E' f → (handle f).Yields I P E) :
    Yields (MonadExcept.tryCatch x handle) I P E := by
  refine yields_of_outcome fun s hs => ?_
  have hk := hx.kept s hs
  have hr := hx.result s hs
  rw [outcome_tryCatch]
  generalize x.outcome s = out at hk hr
  obtain ⟨r, t⟩ := out
  cases r with
  | ok a => exact ⟨hk, hr⟩
  | error e => exact ⟨(hh e hr).kept t hk, (hh e hr).result t hk⟩

/-! ## Runs from one state -/

theorem yields_at {x : Action σ α} {s : σ} {r : Except Failure α} (ho : x.outcome s = (r, s))
    (hr : Attempt.Gives r P E) : x.Yields (· = s) P E := by
  refine yields_of_outcome ?_
  rintro _ rfl
  rw [ho]
  exact ⟨rfl, hr⟩

/-- What gives nothing and keeps the state fails in it. -/
theorem Yields.failure {x : Action σ α} {s : σ} (h : x.Yields (· = s) (fun _ => False) E) :
    ∃ f, x.outcome s = (.error f, s) ∧ E f := by
  have hkept : (x.outcome s).2 = s := h.kept s rfl
  have hresult := h.result s rfl
  generalize x.outcome s = out at hkept hresult ⊢
  obtain ⟨r, t⟩ := out
  cases r with
  | ok a => exact hresult.elim
  | error f => exact ⟨f, by rw [← hkept], hresult⟩

end Action

end PipeShell
