import Mathlib.Data.Set.Basic
import MiniSurveillance.Base.Runs

/-!
# What is seen of a run

Of an event only some is seen from outside: `seen s e` lists it. `trace` collects what
is seen of a list of events, and `Traces` is the set of all that can be seen from a
state of the runs whose events all meet a condition.

* `Traces.cons`: what a step shows comes first.
* `Traces.subset`: a simulation step by step takes traces to traces.
* `Traces.mono`: a weaker condition shows more.
* `Traces.first`: a run of which something is seen has a first step that shows it.
-/

namespace Runs

variable {σ τ ε ω : Type} {step : σ → ε → Option σ} {ok : σ → ε → Prop} {seen : σ → ε → List ω}

/-- What is seen of a list of events. -/
def trace (step : σ → ε → Option σ) (seen : σ → ε → List ω) : σ → List ε → List ω
  | _, [] => []
  | s, e :: es => seen s e ++ (step s e).elim [] fun t => trace step seen t es

/-- All that can be seen from a state while the events meet a condition. -/
def Traces (step : σ → ε → Option σ) (ok : σ → ε → Prop) (seen : σ → ε → List ω) (s : σ) :
    Set (List ω) :=
  { w | ∃ es t, exec step s es = some t ∧ Along step ok s es ∧ trace step seen s es = w }

theorem trace_cons {s t : σ} {e : ε} (h : step s e = some t) (es : List ε) :
    trace step seen s (e :: es) = seen s e ++ trace step seen t es := by
  rw [trace, h]
  rfl

theorem along_cons {s t : σ} {e : ε} (h : step s e = some t) {es : List ε} :
    Along step ok s (e :: es) ↔ ok s e ∧ Along step ok t es := by
  rw [Along, h]
  rfl

theorem Traces.nil (s : σ) : [] ∈ Traces step ok seen s := ⟨[], s, rfl, trivial, rfl⟩

/-- What a step shows stands in front of what is seen behind it. -/
theorem Traces.cons {s t : σ} {e : ε} {v w : List ω} (h : step s e = some t) (hok : ok s e)
    (hseen : seen s e = v) (hw : w ∈ Traces step ok seen t) : v ++ w ∈ Traces step ok seen s := by
  obtain ⟨es, u, hexec, halong, rfl⟩ := hw
  refine ⟨e :: es, u, ?_, (along_cons h).mpr ⟨hok, halong⟩, ?_⟩
  · rw [exec_cons, h]
    exact hexec
  · rw [trace_cons h, hseen]

/-- A state that follows another one step by step, and shows the same, shows all that
the other one shows. -/
theorem Traces.subset {step' : τ → ε → Option τ} {ok' : τ → ε → Prop} {seen' : τ → ε → List ω}
    {R : σ → τ → Prop}
    (hstep : ∀ s t e s', R s t → ok s e → step s e = some s' →
      ∃ t', step' t e = some t' ∧ ok' t e ∧ seen' t e = seen s e ∧ R s' t')
    {s : σ} {t : τ} (h : R s t) : Traces step ok seen s ⊆ Traces step' ok' seen' t := by
  have hruns : ∀ (es : List ε) (s s' : σ) (t : τ), R s t → exec step s es = some s' →
      Along step ok s es → ∃ t', exec step' t es = some t' ∧ Along step' ok' t es ∧
        trace step' seen' t es = trace step seen s es := by
    intro es
    induction es with
    | nil => exact fun s s' t _ _ _ => ⟨t, rfl, trivial, rfl⟩
    | cons e es ih =>
      intro s s' t h hexec halong
      rw [exec_cons] at hexec
      obtain ⟨u, hu, hexec⟩ := Option.bind_eq_some_iff.mp hexec
      obtain ⟨hok, halong⟩ := (along_cons hu).mp halong
      obtain ⟨v, hv, hok', hseen, hR⟩ := hstep s t e u h hok hu
      obtain ⟨t', ht, halong', htrace⟩ := ih u s' v hR hexec halong
      refine ⟨t', ?_, (along_cons hv).mpr ⟨hok', halong'⟩, ?_⟩
      · rw [exec_cons, hv]
        exact ht
      · rw [trace_cons hu, trace_cons hv, hseen, htrace]
  rintro w ⟨es, s', hexec, halong, rfl⟩
  obtain ⟨t', ht, halong', htrace⟩ := hruns es s s' t h hexec halong
  exact ⟨es, t', ht, halong', htrace⟩

/-- A condition that more events meet lets more be seen. -/
theorem Traces.mono {ok' : σ → ε → Prop} (h : ∀ s e, ok s e → ok' s e) (s : σ) :
    Traces step ok seen s ⊆ Traces step ok' seen s := by
  refine Traces.subset (R := Eq) ?_ rfl
  rintro s t e s' rfl hok hs
  exact ⟨s', hs, h s e hok, rfl, rfl⟩

/-- Where events show one thing at most, a run of which `w` is seen first goes unseen up to
the event that shows `w`; what unseen steps keep holds in front of it. -/
theorem Traces.first (hone : ∀ s e, (seen s e).length ≤ 1) {I : σ → Prop}
    (hkeep : ∀ s e t, I s → step s e = some t → seen s e = [] → I t) {w : ω} {rest : List ω}
    {s : σ} (hI : I s) (h : w :: rest ∈ Traces step ok seen s) :
    ∃ u e v, I u ∧ step u e = some v ∧ seen u e = [w] ∧ rest ∈ Traces step ok seen v := by
  obtain ⟨es, t, hexec, halong, htrace⟩ := h
  induction es generalizing s with
  | nil => cases htrace
  | cons e es ih =>
    rw [exec_cons] at hexec
    obtain ⟨u, hu, hexec⟩ := Option.bind_eq_some_iff.mp hexec
    obtain ⟨_, halong⟩ := (along_cons hu).mp halong
    rw [trace_cons hu] at htrace
    cases hseen : seen s e with
    | nil =>
      rw [hseen, List.nil_append] at htrace
      exact ih (hkeep s e u hI hu hseen) hexec halong htrace
    | cons w' ws =>
      have hlen := hone s e
      rw [hseen] at hlen htrace
      obtain rfl : ws = [] := List.eq_nil_of_length_eq_zero (by simpa using hlen)
      obtain ⟨rfl, hrest⟩ := List.cons.inj htrace
      exact ⟨s, e, u, hI, hu, hseen, es, t, hexec, halong, hrest⟩

/-- Behind a state without steps nothing is seen. -/
theorem Traces.eq_nil_of_stuck {s : σ} (hstuck : ∀ e, step s e = none) {w : List ω}
    (h : w ∈ Traces step ok seen s) : w = [] := by
  obtain ⟨es, t, hexec, _, htrace⟩ := h
  cases es with
  | nil => exact htrace.symm
  | cons e es =>
    rw [exec_cons, hstuck] at hexec
    cases hexec

end Runs
