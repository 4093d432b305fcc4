import PipeShell.Proofs.Store.Action
import PipeShell.Store.Basic

/-!
# Runs side by side

Two actions that run in two states, which differ in ways that a tie allows: they give related values
and leave related states, or they fail together.
-/

namespace PipeShell

/-- What is compared of two runs: how their states are related, whether they may fail differently,
and the failures of the first run after which nothing is compared any more. -/
structure Tie (σ : Type) where
  states : σ → σ → Prop
  lax : Prop
  excused : Failure → Prop

namespace Tie

variable {σ α β γ δ : Type}

/-- How two runs end. -/
inductive Ends (tie : Tie σ) (V : α → β → Prop) : Except Failure α × σ → Except Failure β × σ → Prop
  | gave {a b s t} : V a b → tie.states s t → Ends tie V (.ok a, s) (.ok b, t)
  | failed {f g s t} : f = g ∨ tie.lax → tie.states s t → Ends tie V (.error f, s) (.error g, t)
  | excused {f s out} : tie.excused f → Ends tie V (.error f, s) out

/-- From related states the two actions end as the tie says, and what they give is related. -/
def Pairs (tie : Tie σ) (x : Action σ α) (y : Action σ β) (V : α → β → Prop) : Prop :=
  ∀ s t, tie.states s t → tie.Ends V (x.outcome s) (y.outcome t)

/-- From related states the action gives the same in both runs, and what it gives has `P`. -/
def Alike (tie : Tie σ) (x : Action σ α) (P : α → Prop) : Prop :=
  tie.Pairs x x fun a b => a = b ∧ P a

/-- Two attempts end in the same way, and what they give has `P`. -/
def SameAttempts (tie : Tie σ) (r r' : Except Failure α) (P : α → Prop) : Prop :=
  (∃ a, r = .ok a ∧ r' = .ok a ∧ P a) ∨ ∃ f g, r = .error f ∧ r' = .error g ∧ (f = g ∨ tie.lax)

variable {tie : Tie σ} {V W : α → β → Prop} {V' : γ → δ → Prop} {P Q : α → Prop} {R : β → Prop}

theorem Ends.mono {r : Except Failure α × σ} {r' : Except Failure β × σ} (h : tie.Ends V r r')
    (hV : ∀ a b, V a b → W a b) : tie.Ends W r r' := by
  cases h with
  | gave hv hs => exact .gave (hV _ _ hv) hs
  | failed hf hs => exact .failed hf hs
  | excused hf => exact .excused hf

/-! ## Pairs of actions -/

theorem pairs_pure {a : α} {b : β} (h : V a b) : tie.Pairs (pure a) (pure b) V :=
  fun _ _ hs => .gave h hs

theorem pairs_get : tie.Pairs (get : Action σ σ) (get : Action σ σ) tie.states :=
  fun _ _ hs => .gave hs hs

theorem Pairs.mono {x : Action σ α} {y : Action σ β} (h : tie.Pairs x y V)
    (hV : ∀ a b, V a b → W a b) : tie.Pairs x y W :=
  fun s t hs => (h s t hs).mono hV

theorem Pairs.bind {x : Action σ α} {y : Action σ β} {f : α → Action σ γ} {g : β → Action σ δ}
    (hx : tie.Pairs x y V) (hf : ∀ a b, V a b → tie.Pairs (f a) (g b) V') :
    tie.Pairs (x >>= f) (y >>= g) V' := by
  intro s t hs
  have h := hx s t hs
  rw [Action.outcome_bind, Action.outcome_bind]
  generalize x.outcome s = r at h
  generalize y.outcome t = r' at h
  cases h with
  | gave hv hs => exact hf _ _ hv _ _ hs
  | failed hf hs => exact .failed hf hs
  | excused hf => exact .excused hf

theorem pairs_ite {c : Prop} [Decidable c] {x x' : Action σ α} {y y' : Action σ β}
    (hx : c → tie.Pairs x y V) (hy : ¬c → tie.Pairs x' y' V) :
    tie.Pairs (if c then x else x') (if c then y else y') V := by
  by_cases hc : c
  · rw [if_pos hc, if_pos hc]
    exact hx hc
  · rw [if_neg hc, if_neg hc]
    exact hy hc

/-! ## One action in both runs -/

theorem alike_pure {a : α} (h : P a) : tie.Alike (pure a) P :=
  pairs_pure ⟨rfl, h⟩

theorem alike_throw (f : Failure) : tie.Alike (throw f : Action σ α) P :=
  fun _ _ hs => .failed (.inl rfl) hs

theorem alike_ite {c : Prop} [Decidable c] {x y : Action σ α} (hx : c → tie.Alike x P)
    (hy : ¬c → tie.Alike y P) : tie.Alike (if c then x else y) P :=
  pairs_ite hx hy

theorem Alike.mono {x : Action σ α} (h : tie.Alike x P) (hP : ∀ a, P a → Q a) : tie.Alike x Q :=
  Pairs.mono h fun a _ hv => ⟨hv.1, hP a hv.2⟩

theorem Alike.bind {x : Action σ α} {f : α → Action σ γ} {g : α → Action σ δ} (hx : tie.Alike x P)
    (hf : ∀ a, P a → tie.Pairs (f a) (g a) V') : tie.Pairs (x >>= f) (x >>= g) V' := by
  refine Pairs.bind hx ?_
  rintro a _ ⟨rfl, ha⟩
  exact hf a ha

theorem pairs_liftM {r r' : Except Failure α} (h : tie.SameAttempts r r' P) :
    tie.Pairs (liftM r) (liftM r') fun a b => a = b ∧ P a := by
  intro s t hs
  rw [Action.outcome_liftM_except, Action.outcome_liftM_except]
  rcases h with ⟨a, rfl, rfl, ha⟩ | ⟨f, g, rfl, rfl, hfg⟩
  · exact .gave ⟨rfl, ha⟩ hs
  · exact .failed hfg hs

theorem sameAttempts_self {r : Except Failure α} (h : ∀ a, r = .ok a → P a) :
    tie.SameAttempts r r P := by
  cases r with
  | ok a => exact .inl ⟨a, rfl, rfl, h a rfl⟩
  | error f => exact .inr ⟨f, f, rfl, rfl, .inl rfl⟩

theorem alike_liftM {r : Except Failure α} (h : ∀ a, r = .ok a → P a) :
    tie.Alike (liftM r) P :=
  pairs_liftM (sameAttempts_self h)

/-- When the runs fail alike, they go on alike from there. -/
theorem Alike.tryCatch {x : Action σ α} {handle : Failure → Action σ α} (hlax : ¬tie.lax)
    (hexcused : ∀ f, ¬tie.excused f) (hx : tie.Alike x P) (hh : ∀ f, tie.Alike (handle f) P) :
    tie.Alike (MonadExcept.tryCatch x handle) P := by
  intro s t hs
  have h := hx s t hs
  rw [Action.outcome_tryCatch, Action.outcome_tryCatch]
  generalize x.outcome s = r at h
  generalize x.outcome t = r' at h
  cases h with
  | gave hv hs => exact .gave hv hs
  | failed hf hs =>
      obtain rfl := hf.resolve_right hlax
      exact hh _ _ _ hs
  | excused hf => exact absurd hf (hexcused _)

/-- Runs in equal states end alike. -/
theorem alike_of_yields {I : σ → Prop} {lax : Prop} {excused : Failure → Prop} {x : Action σ α}
    (h : x.Yields I P fun _ => True) : Alike ⟨fun s t => s = t ∧ I s, lax, excused⟩ x P := by
  rintro s _ ⟨rfl, hs⟩
  have hkept := h.kept s hs
  have hresult := h.result s hs
  generalize x.outcome s = r at hkept hresult
  obtain ⟨r, s'⟩ := r
  cases r with
  | ok a => exact .gave ⟨rfl, hresult⟩ ⟨rfl, hkept⟩
  | error f => exact .failed (.inl rfl) ⟨rfl, hkept⟩

/-- Copies end alike when reading the source and creating its copy do. -/
theorem alike_copy {tie : Tie World} {source dest : Text} {P : Text → Prop}
    (hdir : tie.Alike (Store.isDirectory source) fun _ => True)
    (hread : tie.Alike (Store.read source) P)
    (hcreate : ∀ content, P content → tie.Alike (Store.createFile dest content) fun _ => True) :
    tie.Alike (Store.copy source dest) fun _ => True := by
  refine hdir.bind fun d _ => ?_
  refine alike_ite (fun _ => alike_throw _) fun _ => ?_
  exact hread.bind hcreate

end Tie

end PipeShell
