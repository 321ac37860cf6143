import Mathlib.Data.List.Induction

/-!
# Runs of a system with named events

A system is a partial step function `step : σ → ε → Option σ`: `step s e` is the
state after the event `e`, or `none` when `e` cannot happen in `s` (the process
is gone, or a thread that must wait has nothing to wait for yet).

* `exec` runs a list of events.
* `Reach` is the set of states reached by events that all meet a condition `ok`.
* `Reach.invariant` is the induction rule: what one step preserves, a whole run
  preserves.
* `exec_invariant` is the rule for an invariant that looks at the events so far.
* `AtEvents` is a property of every event of a run, `atEvents_iff` compares two of them.
* `holds_along_iff` is the rule for a property that each step keeps exactly under
  a condition: it holds all along a run exactly when every step meets that;
  `holds_along_iff_atEvents` is the same for runs that may stop early.
-/

namespace Runs

variable {σ ε : Type}

/-- The state after a list of events, taken from the left. -/
def exec (step : σ → ε → Option σ) (s : σ) (es : List ε) : Option σ :=
  es.foldlM step s

@[simp] theorem exec_nil (step : σ → ε → Option σ) (s : σ) : exec step s [] = some s := rfl

/-- The last event of a run acts on the state the events before it lead to. -/
theorem exec_snoc (step : σ → ε → Option σ) (s : σ) (es : List ε) (e : ε) :
    exec step s (es ++ [e]) = (exec step s es).bind fun t => step t e := by
  unfold exec
  rw [List.foldlM_append]
  simp

theorem exec_snoc_of {step : σ → ε → Option σ} {s t : σ} {es : List ε} (e : ε)
    (h : exec step s es = some t) : exec step s (es ++ [e]) = step t e := by
  rw [exec_snoc, h]
  rfl

/-- `Reach step ok s₀ s`: `s` is reached from `s₀` by events each of which meets
`ok` in the state it acts on. -/
inductive Reach (step : σ → ε → Option σ) (ok : σ → ε → Prop) (s₀ : σ) : σ → Prop
  | start : Reach step ok s₀ s₀
  | next {s t : σ} {e : ε} :
      Reach step ok s₀ s → ok s e → step s e = some t → Reach step ok s₀ t

/-- Every state reachable by any events at all. -/
abbrev Reachable (step : σ → ε → Option σ) (s₀ : σ) : σ → Prop :=
  Reach step (fun _ _ => True) s₀

/-- A property that holds at the start and is kept by every step that meets `ok`
holds in every state reached. -/
theorem Reach.invariant {step : σ → ε → Option σ} {ok : σ → ε → Prop} {s₀ s : σ}
    {I : σ → Prop} (hinit : I s₀)
    (hstep : ∀ s e t, I s → ok s e → step s e = some t → I t)
    (h : Reach step ok s₀ s) : I s := by
  induction h with
  | start => exact hinit
  | next _ hok hs ih => exact hstep _ _ _ ih hok hs

/-- A run goes on with another. -/
theorem Reach.trans {step : σ → ε → Option σ} {ok : σ → ε → Prop} {s t u : σ}
    (h : Reach step ok s t) (h' : Reach step ok t u) : Reach step ok s u := by
  induction h' with
  | start => exact h
  | next _ hok hu ih => exact .next ih hok hu

/-- A run made of a list of events reaches its last state. -/
theorem reachable_of_exec {step : σ → ε → Option σ} {s₀ s : σ} {es : List ε}
    (h : exec step s₀ es = some s) : Reachable step s₀ s := by
  induction es using List.reverseRecOn generalizing s with
  | nil =>
    cases h
    exact .start
  | append_singleton es e ih =>
    rw [exec_snoc] at h
    obtain ⟨t, ht, hs⟩ := Option.bind_eq_some_iff.mp h
    exact .next (ih ht) trivial hs

theorem exec_cons (step : σ → ε → Option σ) (s : σ) (e : ε) (es : List ε) :
    exec step s (e :: es) = (step s e).bind fun t => exec step t es := rfl

/-- Every event of a run meets `ok` in the state it acts on. -/
def Along (step : σ → ε → Option σ) (ok : σ → ε → Prop) : σ → List ε → Prop
  | _, [] => True
  | s, e :: es => ok s e ∧ (step s e).elim True fun t => Along step ok t es

instance Along.decide (step : σ → ε → Option σ) (ok : σ → ε → Prop) [∀ s e, Decidable (ok s e)] :
    ∀ (s : σ) (es : List ε), Decidable (Along step ok s es)
  | _, [] => .isTrue trivial
  | s, e :: es =>
    have : Decidable ((step s e).elim True fun t => Along step ok t es) :=
      match step s e with
      | none => .isTrue trivial
      | some t => Along.decide step ok t es
    inferInstanceAs (Decidable (_ ∧ _))

/-- A run whose events all meet `ok` goes on along reachable states. -/
theorem Reach.exec {step : σ → ε → Option σ} {ok : σ → ε → Prop} {s₀ s t : σ} {es : List ε}
    (hs : Reach step ok s₀ s) (ht : Runs.exec step s es = some t)
    (hok : Along step ok s es) : Reach step ok s₀ t := by
  induction es generalizing s with
  | nil =>
    cases ht
    exact hs
  | cons e es ih =>
    rw [exec_cons] at ht
    obtain ⟨u, hu, ht⟩ := Option.bind_eq_some_iff.mp ht
    obtain ⟨he, hrest⟩ := hok
    rw [hu] at hrest
    exact ih (.next hs he hu) ht hrest

/-- Events that meet `ok` in every state meet it along any run. -/
theorem along_of_forall {step : σ → ε → Option σ} {ok : σ → ε → Prop} {s : σ} {es : List ε}
    (h : ∀ e ∈ es, ∀ s, ok s e) : Along step ok s es := by
  induction es generalizing s with
  | nil => trivial
  | cons e es ih =>
    refine ⟨h e (List.mem_cons_self ..) s, ?_⟩
    cases step s e with
    | none => trivial
    | some t => exact ih fun f hf => h f (List.mem_cons_of_mem e hf)

/-! ## Conditions that look at the past -/

theorem exec_append (step : σ → ε → Option σ) (s : σ) (es fs : List ε) :
    exec step s (es ++ fs) = (exec step s es).bind fun t => exec step t fs :=
  List.foldlM_append

/-- The beginning of a run that happens happens. -/
theorem exec_of_prefix {step : σ → ε → Option σ} {s t : σ} {es fs : List ε} (h : es <+: fs)
    (ht : exec step s fs = some t) : ∃ u, exec step s es = some u := by
  obtain ⟨rest, rfl⟩ := h
  rw [exec_append] at ht
  obtain ⟨u, hu, _⟩ := Option.bind_eq_some_iff.mp ht
  exact ⟨u, hu⟩

/-- An invariant that looks at the events so far. -/
theorem exec_invariant {step : σ → ε → Option σ} {s₀ s : σ} {I : List ε → σ → Prop}
    (hinit : I [] s₀) (hstep : ∀ es s e t, I es s → step s e = some t → I (es ++ [e]) t)
    {es : List ε} (hrun : exec step s₀ es = some s) : I es s := by
  induction es using List.reverseRecOn generalizing s with
  | nil =>
    cases hrun
    exact hinit
  | append_singleton es e ih =>
    rw [exec_snoc] at hrun
    obtain ⟨t, ht, hs⟩ := Option.bind_eq_some_iff.mp hrun
    exact hstep es t e s (ih ht) hs

/-- Every event of a run has a property where it happens; the property may look at the
events before it. -/
def AtEvents (step : σ → ε → Option σ) (s₀ : σ) (es : List ε) (P : List ε → σ → ε → Prop) : Prop :=
  ∀ fs e s t, fs ++ [e] <+: es → exec step s₀ fs = some s → step s e = some t → P fs s e

theorem atEvents_iff {step : σ → ε → Option σ} {s₀ : σ} {es : List ε}
    {P Q : List ε → σ → ε → Prop}
    (h : ∀ fs s e, exec step s₀ fs = some s → (P fs s e ↔ Q fs s e)) :
    AtEvents step s₀ es P ↔ AtEvents step s₀ es Q := by
  constructor
  · exact fun hP fs e s t hprefix hs ht => (h fs s e hs).mp (hP fs e s t hprefix hs ht)
  · exact fun hQ fs e s t hprefix hs ht => (h fs s e hs).mpr (hQ fs e s t hprefix hs ht)

/-- If a step keeps the invariant exactly under a condition, where both may look at
the events so far, then along a run the invariant holds exactly when every step
meets the condition. -/
theorem holds_along_iff {step : σ → ε → Option σ} {s₀ : σ} {I : List ε → σ → Prop}
    {ok : List ε → σ → ε → Prop} (hinit : I [] s₀)
    (hstep : ∀ es s e t, I es s → step s e = some t → (I (es ++ [e]) t ↔ ok es s e))
    {es : List ε} {s : σ} (hrun : exec step s₀ es = some s) :
    (∀ fs t, fs <+: es → exec step s₀ fs = some t → I fs t) ↔
      ∀ fs e t, fs ++ [e] <+: es → exec step s₀ fs = some t → ok fs t e := by
  constructor
  · intro hall fs e t hprefix ht
    obtain ⟨u, hu⟩ := exec_of_prefix hprefix hrun
    have hnow := hall fs t ((List.prefix_append fs [e]).trans hprefix) ht
    exact (hstep fs t e u hnow (exec_snoc_of e ht ▸ hu)).mp (hall _ u hprefix hu)
  · intro hok fs
    induction fs using List.reverseRecOn with
    | nil =>
      rintro t _ ht
      cases ht
      exact hinit
    | append_singleton fs e ih =>
      intro t hprefix ht
      obtain ⟨u, hu⟩ := exec_of_prefix ((List.prefix_append fs [e]).trans hprefix) hrun
      have hbefore := ih u ((List.prefix_append fs [e]).trans hprefix) hu
      rw [exec_snoc_of e hu] at ht
      exact (hstep fs u e t hbefore ht).mpr (hok fs e u hprefix hu)

/-- The same rule along any list of events, as far as it happens. The step may rest on what is
known of every state reached. -/
theorem holds_along_iff_atEvents {step : σ → ε → Option σ} {s₀ : σ} {I : List ε → σ → Prop}
    {ok : List ε → σ → ε → Prop} (hinit : I [] s₀)
    (hstep : ∀ es s e t, exec step s₀ es = some s → I es s → step s e = some t →
      (I (es ++ [e]) t ↔ ok es s e)) (es : List ε) :
    (∀ fs t, fs <+: es → exec step s₀ fs = some t → I fs t) ↔ AtEvents step s₀ es ok := by
  constructor
  · intro hall fs e s t hprefix hs ht
    have hnow := hall fs s ((List.prefix_append fs [e]).trans hprefix) hs
    exact (hstep fs s e t hs hnow ht).mp (hall _ t hprefix ((exec_snoc_of e hs).trans ht))
  · intro hok fs
    induction fs using List.reverseRecOn with
    | nil =>
      rintro t _ ht
      cases ht
      exact hinit
    | append_singleton fs e ih =>
      intro t hprefix ht
      rw [exec_snoc] at ht
      obtain ⟨s, hs, ht⟩ := Option.bind_eq_some_iff.mp ht
      have hbefore := ih s ((List.prefix_append fs [e]).trans hprefix) hs
      exact (hstep fs s e t hs hbefore ht).mpr (hok fs e s t hprefix hs ht)

end Runs
