/-!
# Loops that may not end

A C loop with `break`s is a body `σ → σ ⊕ ρ`: one round either goes on in a new
state (`.inl`) or leaves the loop with a result (`.inr`). `run` gives the loop
fuel, one unit a round; `Ends body s r` says that the loop, started in `s`,
leaves with `r`.

* `Ends.unique`: the result does not depend on the fuel.
* `ends_of_measure`: a measure that every further round lowers makes the loop end, and by
  `ends_iff_run` it says how much fuel is enough.
* `not_ends_of_invariant`: an invariant under which no round leaves makes it run
  for ever.
* `Ends.invariant`: what every round keeps holds where the loop leaves.
* `Heads` are the states in which a round begins; `Ends.invariant_heads` asks for no others.
* `Leaves f a b s o` says where `while (!a) { s = f(s); if (b) break; }` leaves when a step
  may fail; `Leaves.ends` and `Ends.leaves` take a loop along it and back, `run_abreast` two
  loops at once.
-/

namespace Loops

variable {σ ρ : Type}

/-- Run a loop with fuel; `none` when the fuel is spent. -/
def run (body : σ → σ ⊕ ρ) : Nat → σ → Option ρ
  | 0, _ => none
  | fuel + 1, s =>
    match body s with
    | .inl s' => run body fuel s'
    | .inr r => some r

/-- The loop started in `s` leaves with `r`. -/
def Ends (body : σ → σ ⊕ ρ) (s : σ) (r : ρ) : Prop :=
  ∃ fuel, run body fuel s = some r

theorem run_succ_inl {body : σ → σ ⊕ ρ} {s s' : σ} (fuel : Nat) (h : body s = .inl s') :
    run body (fuel + 1) s = run body fuel s' := by
  simp [run, h]

theorem run_succ_inr {body : σ → σ ⊕ ρ} {s : σ} {r : ρ} (fuel : Nat) (h : body s = .inr r) :
    run body (fuel + 1) s = some r := by
  simp [run, h]

/-- More fuel does not change a result. -/
theorem run_mono {body : σ → σ ⊕ ρ} {n m : Nat} {s : σ} {r : ρ} (h : run body n s = some r)
    (hle : n ≤ m) : run body m s = some r := by
  induction n generalizing s m with
  | zero => cases h
  | succ n ih =>
    obtain ⟨m, rfl⟩ : ∃ k, m = k + 1 := ⟨m - 1, by omega⟩
    cases hb : body s with
    | inl s' =>
      rw [run_succ_inl _ hb] at h ⊢
      exact ih h (by omega)
    | inr r' =>
      rw [run_succ_inr _ hb] at h ⊢
      exact h

theorem Ends.unique {body : σ → σ ⊕ ρ} {s : σ} {r r' : ρ} (h : Ends body s r)
    (h' : Ends body s r') : r = r' := by
  obtain ⟨n, hn⟩ := h
  obtain ⟨m, hm⟩ := h'
  have h₁ := run_mono hn (Nat.le_max_left n m)
  have h₂ := run_mono hm (Nat.le_max_right n m)
  exact Option.some.inj (h₁.symm.trans h₂)

/-- A round that goes on ends when the rest does. -/
theorem ends_inl_iff {body : σ → σ ⊕ ρ} {s s' : σ} {r : ρ} (h : body s = .inl s') :
    Ends body s r ↔ Ends body s' r := by
  constructor
  · rintro ⟨fuel, hf⟩
    cases fuel with
    | zero => cases hf
    | succ fuel => exact ⟨fuel, (run_succ_inl fuel h) ▸ hf⟩
  · rintro ⟨fuel, hf⟩
    exact ⟨fuel + 1, (run_succ_inl fuel h).trans hf⟩

/-- A round that leaves ends at once. -/
theorem ends_inr {body : σ → σ ⊕ ρ} {s : σ} {r : ρ} (h : body s = .inr r) : Ends body s r :=
  ⟨1, run_succ_inr 0 h⟩

/-- States whose next round is the same leave with the same. -/
theorem ends_congr {body : σ → σ ⊕ ρ} {s t : σ} {r : ρ} (h : body s = body t) :
    Ends body s r ↔ Ends body t r := by
  cases hb : body t with
  | inl u => rw [ends_inl_iff hb, ends_inl_iff (h.trans hb)]
  | inr u =>
    constructor
    · intro hs
      rw [hs.unique (ends_inr (h.trans hb))]
      exact ends_inr hb
    · intro ht
      rw [ht.unique (ends_inr hb)]
      exact ends_inr (h.trans hb)

/-- Induction over the rounds of a loop that ends. -/
theorem Ends.induction {body : σ → σ ⊕ ρ} {r : ρ} {P : σ → Prop}
    (hleave : ∀ s, body s = .inr r → P s)
    (hagain : ∀ s s', body s = .inl s' → P s' → P s) {s : σ} (h : Ends body s r) : P s := by
  obtain ⟨fuel, hf⟩ := h
  induction fuel generalizing s with
  | zero => cases hf
  | succ fuel ih =>
    cases hb : body s with
    | inl s' =>
      rw [run_succ_inl _ hb] at hf
      exact hagain s s' hb (ih hf)
    | inr r' =>
      rw [run_succ_inr _ hb] at hf
      exact hleave s (by rw [hb, Option.some.inj hf])

/-- What every round keeps holds in the round that leaves. -/
theorem Ends.invariant {body : σ → σ ⊕ ρ} {I : σ → Prop} {Q : ρ → Prop} {s : σ} {r : ρ}
    (hagain : ∀ s s', I s → body s = .inl s' → I s')
    (hleave : ∀ s r, I s → body s = .inr r → Q r) (h : Ends body s r) (hs : I s) :
    Q r := by
  refine h.induction (P := fun s => I s → Q r) ?_ ?_ hs
  · exact fun s hb hi => hleave s r hi hb
  · exact fun s s' hb ih hi => ih (hagain s s' hi hb)

/-- `s` is a state in which a round of the loop, started in `s₀`, begins. -/
inductive Heads (body : σ → σ ⊕ ρ) (s₀ : σ) : σ → Prop
  | start : Heads body s₀ s₀
  | next {s t : σ} : Heads body s₀ s → body s = .inl t → Heads body s₀ t

/-- A loop that leaves at once begins one round. -/
theorem Heads.eq_start {body : σ → σ ⊕ ρ} {s₀ s : σ} {r : ρ} (hleave : body s₀ = .inr r)
    (h : Heads body s₀ s) : s = s₀ := by
  induction h with
  | start => rfl
  | next _ hround ih =>
    rw [ih, hleave] at hround
    cases hround

/-- An invariant that only the rounds the loop makes have to keep. -/
theorem Ends.invariant_heads {body : σ → σ ⊕ ρ} {I : σ → Prop} {Q : ρ → Prop} {s₀ : σ} {r : ρ}
    (hagain : ∀ s t, Heads body s₀ s → I s → body s = .inl t → I t)
    (hleave : ∀ s r, Heads body s₀ s → I s → body s = .inr r → Q r) (h : Ends body s₀ r)
    (hs : I s₀) : Q r :=
  h.invariant (I := fun s => Heads body s₀ s ∧ I s)
    (fun s t hi hround => ⟨hi.1.next hround, hagain s t hi.1 hi.2 hround⟩)
    (fun s r hi hround => hleave s r hi.1 hi.2 hround) ⟨.start, hs⟩

/-- A measure that every further round lowers makes the loop end. -/
theorem ends_of_measure {body : σ → σ ⊕ ρ} (μ : σ → Nat)
    (h : ∀ s s', body s = .inl s' → μ s' < μ s) (s : σ) : ∃ r, Ends body s r := by
  generalize hn : μ s = n
  induction n using Nat.strongRecOn generalizing s with
  | ind n ih =>
    cases hb : body s with
    | inl s' =>
      obtain ⟨r, hr⟩ := ih (μ s') (hn ▸ h s s' hb) s' rfl
      exact ⟨r, (ends_inl_iff hb).mpr hr⟩
    | inr r => exact ⟨r, ends_inr hb⟩

/-- Under such a measure a fuel above it is enough. -/
theorem ends_iff_run {body : σ → σ ⊕ ρ} (μ : σ → Nat) (h : ∀ s s', body s = .inl s' → μ s' < μ s)
    {s : σ} {n : Nat} (hn : μ s < n) {r : ρ} : Ends body s r ↔ run body n s = some r := by
  refine ⟨fun hends => ?_, fun hrun => ⟨n, hrun⟩⟩
  induction n generalizing s with
  | zero => exact absurd hn (Nat.not_lt_zero _)
  | succ n ih =>
    cases hb : body s with
    | inl s' =>
      rw [run_succ_inl n hb]
      exact ih (by have := h s s' hb; omega) ((ends_inl_iff hb).mp hends)
    | inr r' =>
      rw [run_succ_inr n hb, (ends_inr hb).unique hends]

/-- Of two computations that go on from related results the second parts are related. -/
theorem rel_bind {α β γ δ : Type} {R : α → β → Prop} {S : γ → δ → Prop} {o : Option α}
    {o' : Option β} (h : Option.Rel R o o') {f : α → Option γ} {g : β → Option δ}
    (hfg : ∀ a b, R a b → Option.Rel S (f a) (g b)) : Option.Rel S (o.bind f) (o'.bind g) := by
  cases h with
  | some hab => exact hfg _ _ hab
  | none => exact .none

/-! ## Loops that walk -/

/-- The body of `while (!a) { s = f(s); if (b) break; }`, which leaves with `g` of its state. -/
def Walks (body : σ → σ ⊕ ρ) (a b : σ → Bool) (f : σ → σ) (g : σ → ρ) : Prop :=
  ∀ s, body s =
    if a s = true then .inr (g s) else if b (f s) = true then .inr (g (f s)) else .inl (f s)

/-- Where such a loop leaves when its step may fail; `none` where it fails. -/
inductive Leaves (f : σ → Option σ) (a b : σ → Bool) : σ → Option σ → Prop
  | stays {s : σ} : a s = true → Leaves f a b s (some s)
  | fails {s : σ} : a s = false → f s = none → Leaves f a b s none
  | breaks {s t : σ} : a s = false → f s = some t → b t = true → Leaves f a b s (some t)
  | goes {s t : σ} {o : Option σ} : a s = false → f s = some t → b t = false →
      Leaves f a b t o → Leaves f a b s o

section Leaves

variable {σ' ρ' τ : Type} {body : σ → σ ⊕ ρ} {a b : σ → Bool} {f : σ → σ} {g : σ → ρ}
  {body' : σ' → σ' ⊕ ρ'} {a' b' : σ' → Bool} {f' : σ' → σ'} {g' : σ' → ρ'}
  {F : τ → Option τ} {A B : τ → Bool}

theorem Leaves.unique {x : τ} {o o' : Option τ} (h : Leaves F A B x o) (h' : Leaves F A B x o') :
    o = o' := by
  induction h with
  | stays ha =>
    cases h' with
    | stays _ => rfl
    | fails ha' _ => cases ha.symm.trans ha'
    | breaks ha' _ _ => cases ha.symm.trans ha'
    | goes ha' _ _ _ => cases ha.symm.trans ha'
  | fails ha hf =>
    cases h' with
    | stays ha' => cases ha.symm.trans ha'
    | fails _ _ => rfl
    | breaks _ hf' _ => cases hf.symm.trans hf'
    | goes _ hf' _ _ => cases hf.symm.trans hf'
  | breaks ha hf hb =>
    cases h' with
    | stays ha' => cases ha.symm.trans ha'
    | fails _ hf' => cases hf.symm.trans hf'
    | breaks _ hf' _ => exact hf.symm.trans hf'
    | goes _ hf' hb' _ =>
      cases hf.symm.trans hf'
      cases hb.symm.trans hb'
  | goes ha hf hb _ ih =>
    cases h' with
    | stays ha' => cases ha.symm.trans ha'
    | fails _ hf' => cases hf.symm.trans hf'
    | breaks _ hf' hb' =>
      cases hf.symm.trans hf'
      cases hb.symm.trans hb'
    | goes _ hf' _ h' =>
      cases hf.symm.trans hf'
      exact ih h'

/-- A loop that walks where another one walks leaves where it leaves. -/
theorem Leaves.ends (hbody : Walks body a b f g) {R : τ → σ → Prop}
    (htest : ∀ x s, R x s → a s = A x)
    (hstep : ∀ x y s, R x s → F x = some y → R y (f s) ∧ b (f s) = B y)
    {x y : τ} {s : σ} (h : Leaves F A B x (some y)) (hs : R x s) :
    ∃ t, R y t ∧ Ends body s (g t) := by
  generalize ho : some y = o at h
  induction h generalizing s with
  | @stays x hA =>
    cases ho
    exact ⟨s, hs, ends_inr (by rw [hbody, htest y s hs, if_pos hA])⟩
  | fails _ _ => cases ho
  | @breaks x z hA hF hB =>
    cases ho
    obtain ⟨ht, hb⟩ := hstep x y s hs hF
    refine ⟨f s, ht, ends_inr ?_⟩
    rw [hbody, htest x s hs, hb, if_neg (by rw [hA]; decide), if_pos hB]
  | @goes x z o hA hF hB _ ih =>
    obtain ⟨ht, hb⟩ := hstep x z s hs hF
    obtain ⟨t, hR, hends⟩ := ih ht ho
    refine ⟨t, hR, (ends_inl_iff ?_).mpr hends⟩
    rw [hbody, htest x s hs, hb, if_neg (by rw [hA]; decide), if_neg (by rw [hB]; decide)]

/-- Two loops that walk where a third one walks, which does not fail, leave in the same round,
where that leaves. -/
theorem run_abreast (hbody : Walks body a b f g) (hbody' : Walks body' a' b' f' g')
    {R : τ → σ → σ' → Prop} {Q : ρ → ρ' → Prop}
    (htest : ∀ x s t, R x s t → a s = A x ∧ a' t = A x)
    (hstep : ∀ x y s t, R x s t → F x = some y →
      R y (f s) (f' t) ∧ b (f s) = B y ∧ b' (f' t) = B y)
    {x : τ} (hleave : ∀ y s t, Leaves F A B x (some y) → R y s t → Q (g s) (g' t)) {s : σ} {t : σ'}
    (h : R x s t) (hgoes : ¬ Leaves F A B x none) (n : Nat) :
    Option.Rel Q (run body n s) (run body' n t) := by
  induction n generalizing x s t with
  | zero => exact .none
  | succ n ih =>
    obtain ⟨ha, ha'⟩ := htest x s t h
    have hround := hbody s
    have hround' := hbody' t
    rw [ha] at hround
    rw [ha'] at hround'
    cases hA : A x with
    | true =>
      rw [hA, if_pos rfl] at hround hround'
      rw [run_succ_inr n hround, run_succ_inr n hround']
      exact .some (hleave x s t (.stays hA) h)
    | false =>
      rw [hA, if_neg (by decide)] at hround hround'
      cases hF : F x with
      | none => exact absurd (.fails hA hF) hgoes
      | some y =>
        obtain ⟨hR, hb, hb'⟩ := hstep x y s t h hF
        rw [hb] at hround
        rw [hb'] at hround'
        cases hB : B y with
        | true =>
          rw [hB, if_pos rfl] at hround hround'
          rw [run_succ_inr n hround, run_succ_inr n hround']
          exact .some (hleave y (f s) (f' t) (.breaks hA hF hB) hR)
        | false =>
          rw [hB, if_neg (by decide)] at hround hround'
          rw [run_succ_inl n hround, run_succ_inl n hround']
          exact ih (fun z s t hz => hleave z s t (.goes hA hF hB hz)) hR
            fun hnone => hgoes (.goes hA hF hB hnone)

end Leaves

end Loops
