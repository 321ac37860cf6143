import MiniSurveillance.Base.Outcome
import MiniSurveillance.Base.Runs

/-!
# Two programs that do the same on related data

`Values` compares reads that may raise, `Calls` compares calls on states: both return,
with related values, both raise, with related faults, or both crash; the states they
leave are related in every case. `Values.bind`, `Calls.bind` and `Calls.ofExcept` take
two bodies apart side by side. `Calls.after` is what that means for a step of a run, and
`exec_map` takes it along the run.
-/

namespace Agreement

variable {φ ψ σ τ α β γ δ : Type} {E : φ → ψ → Prop} {A A' : α → β → Prop} {B : γ → δ → Prop}
  {R : σ → τ → Prop}

def Values (E : φ → ψ → Prop) (A : α → β → Prop) : Except φ α → Except ψ β → Prop
  | .ok a, .ok b => A a b
  | .error e, .error f => E e f
  | _, _ => False

theorem Values.cases {x : Except φ α} {y : Except ψ β} (h : Values E A x y) :
    (∃ a b, x = .ok a ∧ y = .ok b ∧ A a b) ∨ (∃ e f, x = .error e ∧ y = .error f ∧ E e f) := by
  cases x with
  | ok a =>
    cases y with
    | ok b => exact .inl ⟨a, b, rfl, rfl, h⟩
    | error f => exact h.elim
  | error e =>
    cases y with
    | ok b => exact h.elim
    | error f => exact .inr ⟨e, f, rfl, rfl, h⟩

theorem Values.bind {x : Except φ α} {y : Except ψ β} {f : α → Except φ γ} {g : β → Except ψ δ}
    (h : Values E A x y) (hfg : ∀ a b, A a b → Values E B (f a) (g b)) :
    Values E B (x >>= f) (y >>= g) := by
  obtain ⟨a, b, rfl, rfl, hab⟩ | ⟨e, f, rfl, rfl, hef⟩ := h.cases
  · exact hfg a b hab
  · exact hef

theorem Values.imp {x : Except φ α} {y : Except ψ β} (hA : ∀ a b, A a b → A' a b)
    (h : Values E A x y) : Values E A' x y := by
  obtain ⟨a, b, rfl, rfl, hab⟩ | ⟨e, f, rfl, rfl, hef⟩ := h.cases
  · exact hA a b hab
  · exact hef

theorem Values.ite {p q : Prop} [Decidable p] [Decidable q] {x x' : Except φ α} {y y' : Except ψ β}
    (hpq : p ↔ q) (h : Values E A x y) (h' : Values E A x' y') :
    Values E A (if p then x else x') (if q then y else y') := by
  by_cases hp : p
  · rw [if_pos hp, if_pos (hpq.mp hp)]
    exact h
  · rw [if_neg hp, if_neg (mt hpq.mpr hp)]
    exact h'

def Calls (E : φ → ψ → Prop) (A : α → β → Prop) (R : σ → τ → Prop) :
    Outcome φ σ α → Outcome ψ τ β → Prop
  | .ok a s, .ok b t => A a b ∧ R s t
  | .raised e s, .raised f t => E e f ∧ R s t
  | .crashed, .crashed => True
  | _, _ => False

theorem Calls.cases {o : Outcome φ σ α} {p : Outcome ψ τ β} (h : Calls E A R o p) :
    (∃ a b s t, o = .ok a s ∧ p = .ok b t ∧ A a b ∧ R s t) ∨
    (∃ e f s t, o = .raised e s ∧ p = .raised f t ∧ E e f ∧ R s t) ∨
    (o = .crashed ∧ p = .crashed) := by
  cases o with
  | ok a s =>
    cases p with
    | ok b t => exact .inl ⟨a, b, s, t, rfl, rfl, h⟩
    | raised f t => exact h.elim
    | crashed => exact h.elim
  | raised e s =>
    cases p with
    | ok b t => exact h.elim
    | raised f t => exact .inr (.inl ⟨e, f, s, t, rfl, rfl, h⟩)
    | crashed => exact h.elim
  | crashed =>
    cases p with
    | ok b t => exact h.elim
    | raised f t => exact h.elim
    | crashed => exact .inr (.inr ⟨rfl, rfl⟩)

theorem Calls.bind {o : Outcome φ σ α} {p : Outcome ψ τ β} {f : α → σ → Outcome φ σ γ}
    {g : β → τ → Outcome ψ τ δ} (h : Calls E A R o p)
    (hfg : ∀ a b s t, A a b → R s t → Calls E B R (f a s) (g b t)) :
    Calls E B R (o.bind f) (p.bind g) := by
  obtain ⟨a, b, s, t, rfl, rfl, hab, hst⟩ | ⟨e, f, s, t, rfl, rfl, hraised⟩ | ⟨rfl, rfl⟩ := h.cases
  · exact hfg a b s t hab hst
  · exact hraised
  · trivial

theorem Calls.ofExcept {x : Except φ α} {y : Except ψ β} {s : σ} {t : τ} (h : Values E A x y)
    (hst : R s t) : Calls E A R (.ofExcept x s) (.ofExcept y t) := by
  obtain ⟨a, b, rfl, rfl, hab⟩ | ⟨e, f, rfl, rfl, hef⟩ := h.cases
  · exact ⟨hab, hst⟩
  · exact ⟨hef, hst⟩

/-- A read that only the first program makes, and that does not fail. -/
theorem Calls.bind_ok {x : Except φ γ} {s : σ} {f : γ → σ → Outcome φ σ α} {p : Outcome ψ τ β}
    {c : γ} (hx : x = .ok c) (h : Calls E A R (f c s) p) :
    Calls E A R ((Outcome.ofExcept x s).bind f) p := by
  subst hx
  exact h

theorem Calls.ite {p q : Prop} [Decidable p] [Decidable q] {o o' : Outcome φ σ α}
    {r r' : Outcome ψ τ β} (hpq : p ↔ q) (h : Calls E A R o r) (h' : Calls E A R o' r') :
    Calls E A R (if p then o else o') (if q then r else r') := by
  by_cases hp : p
  · rw [if_pos hp, if_pos (hpq.mp hp)]
    exact h
  · rw [if_neg hp, if_neg (mt hpq.mpr hp)]
    exact h'

/-- Where the first program leaves a state the second one leaves a related state. -/
theorem Calls.after {o : Outcome φ σ α} {p : Outcome ψ τ β} {s : σ} (h : Calls E A R o p)
    (hs : o.after = some s) : ∃ t, p.after = some t ∧ R s t := by
  obtain ⟨a, b, u, t, rfl, rfl, -, hst⟩ | ⟨e, f, u, t, rfl, rfl, -, hst⟩ | ⟨rfl, -⟩ := h.cases
  · obtain rfl : u = s := Option.some.inj hs
    exact ⟨t, rfl, hst⟩
  · obtain rfl : u = s := Option.some.inj hs
    exact ⟨t, rfl, hst⟩
  · cases hs

/-- A run that goes step by step with another one. -/
theorem exec_map {ε ζ : Type} {step : σ → ε → Option σ} {step' : τ → ζ → Option τ} {f : ε → ζ}
    (hstep : ∀ s t e s', R s t → step s e = some s' → ∃ t', step' t (f e) = some t' ∧ R s' t')
    {es : List ε} {s s' : σ} {t : τ} (h : R s t) (hexec : Runs.exec step s es = some s') :
    ∃ t', Runs.exec step' t (es.map f) = some t' ∧ R s' t' := by
  induction es generalizing s t with
  | nil =>
    obtain rfl := Option.some.inj hexec
    exact ⟨t, rfl, h⟩
  | cons e es ih =>
    rw [Runs.exec_cons] at hexec
    obtain ⟨u, hu, hexec⟩ := Option.bind_eq_some_iff.mp hexec
    obtain ⟨v, hv, hR⟩ := hstep s t e u h hu
    obtain ⟨t', ht, hR'⟩ := ih hR hexec
    refine ⟨t', ?_, hR'⟩
    rw [List.map_cons, Runs.exec_cons, hv]
    exact ht

end Agreement
