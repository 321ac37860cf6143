import Mathlib.Data.List.Basic
import MiniSurveillance.Base.Runs

/-!
# Monitors

A monitor is a shared state behind a mutex with one condition variable. Threads call
its methods; a method takes the mutex first, runs from point to point with the mutex
held, and gives it up while it waits and when it leaves. A notification wakes one of
the waiting threads, any of them, and is lost when nobody waits. A waiting thread may
also wake up by itself.

`Contract` is the invariant rule for monitors that counts: what holds while the mutex
is free (`Free`) and at every point of a method (`At`) may speak about the number of
threads that wait and of those notified that have not taken the mutex back yet.
`Contract.invariant` takes it to every state reached.
-/

namespace Monitor

variable {σ κ μ : Type}

/-- Where a thread is. -/
inductive Place (κ : Type)
  | outside
  | entering (k : κ)
  | inside (k : κ)
  | waiting (k : κ)
  /-- It was notified, and asks for the mutex again. -/
  | notified (k : κ)
deriving DecidableEq

namespace Place

def isWaiting : Place κ → Bool
  | waiting _ => true
  | _ => false

def isNotified : Place κ → Bool
  | notified _ => true
  | _ => false

end Place

/-- What the thread inside does at a point of its method. -/
inductive Action (σ κ : Type)
  | goto (k : κ) (s : σ)
  | notify (k : κ)
  | wait (k : κ)
  | leave

/-- The methods: where each starts, and what is done at every point. -/
structure Program (σ κ μ : Type) where
  start : μ → κ
  next : κ → σ → Action σ κ

structure State (σ κ : Type) where
  shared : σ
  holder : Option Nat
  places : List (Place κ)

namespace State

/-- No thread of `n` has called a method yet. -/
def idle (s : σ) (n : Nat) : State σ κ := ⟨s, none, List.replicate n .outside⟩

def move (m : State σ κ) (i : Nat) (a : Place κ) : State σ κ :=
  { m with places := m.places.set i a }

/-- How many threads wait. -/
def waiting (m : State σ κ) : Nat := m.places.countP Place.isWaiting

/-- How many threads were notified and have not taken the mutex back. -/
def notified (m : State σ κ) : Nat := m.places.countP Place.isNotified

end State

/-- What can happen next: a call, a thread that takes the mutex, a turn of the one that
has it, a notification and who receives it, and a thread that wakes up by itself. -/
inductive Event (μ : Type)
  | call (i : Nat) (f : μ)
  | lock (i : Nat)
  | run (i : Nat)
  | notify (i : Nat) (receiver : Option Nat)
  | wake (i : Nat)

/-- A notification reaches a waiting thread, or nobody when nobody waits. -/
def notifyOne (m : State σ κ) : Option Nat → Option (State σ κ)
  | none => if m.waiting = 0 then some m else none
  | some j =>
    match m.places[j]? with
    | some (.waiting k) => some (m.move j (.notified k))
    | _ => none

def step (p : Program σ κ μ) (m : State σ κ) : Event μ → Option (State σ κ)
  | .call i f =>
    match m.places[i]? with
    | some .outside => some (m.move i (.entering (p.start f)))
    | _ => none
  | .lock i =>
    match m.holder, m.places[i]? with
    | none, some (.entering k) => some { m.move i (.inside k) with holder := some i }
    | none, some (.notified k) => some { m.move i (.inside k) with holder := some i }
    | _, _ => none
  | .run i =>
    match m.places[i]? with
    | some (.inside k) =>
      match p.next k m.shared with
      | .goto k' s => some { m.move i (.inside k') with shared := s }
      | .wait k' => some { m.move i (.waiting k') with holder := none }
      | .leave => some { m.move i .outside with holder := none }
      | .notify _ => none
    | _ => none
  | .notify i receiver =>
    match m.places[i]? with
    | some (.inside k) =>
      match p.next k m.shared with
      | .notify k' => (notifyOne m receiver).map fun m => m.move i (.inside k')
      | _ => none
    | _ => none
  | .wake i =>
    match m.places[i]? with
    | some (.waiting k) => some (m.move i (.entering k))
    | _ => none

/-- Everything a step can do. -/
inductive Moves (p : Program σ κ μ) (m : State σ κ) : Event μ → State σ κ → Prop
  | call {i : Nat} {f : μ} : m.places[i]? = some .outside →
      Moves p m (.call i f) (m.move i (.entering (p.start f)))
  | enter {i : Nat} {k : κ} : m.holder = none → m.places[i]? = some (.entering k) →
      Moves p m (.lock i) { m.move i (.inside k) with holder := some i }
  | resume {i : Nat} {k : κ} : m.holder = none → m.places[i]? = some (.notified k) →
      Moves p m (.lock i) { m.move i (.inside k) with holder := some i }
  | goto {i : Nat} {k k' : κ} {s : σ} : m.places[i]? = some (.inside k) →
      p.next k m.shared = .goto k' s →
      Moves p m (.run i) { m.move i (.inside k') with shared := s }
  | wait {i : Nat} {k k' : κ} : m.places[i]? = some (.inside k) →
      p.next k m.shared = .wait k' →
      Moves p m (.run i) { m.move i (.waiting k') with holder := none }
  | leave {i : Nat} {k : κ} : m.places[i]? = some (.inside k) → p.next k m.shared = .leave →
      Moves p m (.run i) { m.move i .outside with holder := none }
  | notifyNobody {i : Nat} {k k' : κ} : m.places[i]? = some (.inside k) →
      p.next k m.shared = .notify k' → m.waiting = 0 →
      Moves p m (.notify i none) (m.move i (.inside k'))
  | notifyOne {i j : Nat} {k k' l : κ} : m.places[i]? = some (.inside k) →
      p.next k m.shared = .notify k' → m.places[j]? = some (.waiting l) →
      Moves p m (.notify i (some j)) ((m.move j (.notified l)).move i (.inside k'))
  | wake {i : Nat} {k : κ} : m.places[i]? = some (.waiting k) →
      Moves p m (.wake i) (m.move i (.entering k))

theorem moves_of_step {p : Program σ κ μ} {m t : State σ κ} {e : Event μ}
    (h : step p m e = some t) : Moves p m e t := by
  cases e with
  | call i f =>
    simp only [step] at h
    split at h
    · next hi =>
      cases h
      exact .call hi
    · cases h
  | lock i =>
    simp only [step] at h
    split at h
    · next hholder hi =>
      cases h
      exact .enter hholder hi
    · next hholder hi =>
      cases h
      exact .resume hholder hi
    · cases h
  | run i =>
    simp only [step] at h
    split at h
    · next hi =>
      split at h
      · next hnext =>
        cases h
        exact .goto hi hnext
      · next hnext =>
        cases h
        exact .wait hi hnext
      · next hnext =>
        cases h
        exact .leave hi hnext
      · cases h
    · cases h
  | notify i receiver =>
    simp only [step] at h
    split at h
    · next hi =>
      split at h
      · next hnext =>
        obtain ⟨u, hu, rfl⟩ := Option.map_eq_some_iff.mp h
        unfold notifyOne at hu
        split at hu
        · split at hu
          · next hnobody =>
            cases hu
            exact .notifyNobody hi hnext hnobody
          · cases hu
        · split at hu
          · next hj =>
            cases hu
            exact .notifyOne hi hnext hj
          · cases hu
      · cases h
    · cases h
  | wake i =>
    simp only [step] at h
    split at h
    · next hi =>
      cases h
      exact .wake hi
    · cases h

theorem step_of_moves {p : Program σ κ μ} {m t : State σ κ} {e : Event μ}
    (h : Moves p m e t) : step p m e = some t := by
  cases h with
  | call hi => simp only [step, hi]
  | enter hfree hi => simp only [step, hfree, hi]
  | resume hfree hi => simp only [step, hfree, hi]
  | goto hi hnext => simp only [step, hi, hnext]
  | wait hi hnext => simp only [step, hi, hnext]
  | leave hi hnext => simp only [step, hi, hnext]
  | notifyNobody hi hnext hnobody =>
    simp only [step, hi, hnext, notifyOne, if_pos hnobody, Option.map_some]
  | notifyOne hi hnext hj => simp only [step, hi, hnext, notifyOne, hj, Option.map_some]
  | wake hi => simp only [step, hi]

/-! ## Counting -/

/-- A thread that moves leaves one count and enters another. -/
theorem countP_move {q : Place κ → Bool} {l : List (Place κ)} {i : Nat} {a : Place κ}
    (h : l[i]? = some a) (b : Place κ) :
    (l.set i b).countP q + (if q a then 1 else 0) = l.countP q + (if q b then 1 else 0) := by
  obtain ⟨hi, rfl⟩ := List.getElem?_eq_some_iff.mp h
  rw [List.countP_set hi]
  split
  · next hq =>
    have hpos := List.countP_pos_iff.mpr ⟨l[i], List.getElem_mem hi, hq⟩
    omega
  · omega

namespace Place

@[simp] theorem isWaiting_outside : (outside : Place κ).isWaiting = false := rfl
@[simp] theorem isWaiting_entering (k : κ) : (entering k).isWaiting = false := rfl
@[simp] theorem isWaiting_inside (k : κ) : (inside k).isWaiting = false := rfl
@[simp] theorem isWaiting_waiting (k : κ) : (waiting k).isWaiting = true := rfl
@[simp] theorem isWaiting_notified (k : κ) : (notified k).isWaiting = false := rfl
@[simp] theorem isNotified_outside : (outside : Place κ).isNotified = false := rfl
@[simp] theorem isNotified_entering (k : κ) : (entering k).isNotified = false := rfl
@[simp] theorem isNotified_inside (k : κ) : (inside k).isNotified = false := rfl
@[simp] theorem isNotified_waiting (k : κ) : (waiting k).isNotified = false := rfl
@[simp] theorem isNotified_notified (k : κ) : (notified k).isNotified = true := rfl

end Place

namespace State

variable {m : State σ κ} {i : Nat} {a : Place κ}

@[simp] theorem move_shared (m : State σ κ) (i : Nat) (a : Place κ) :
    (m.move i a).shared = m.shared := rfl

@[simp] theorem move_holder (m : State σ κ) (i : Nat) (a : Place κ) :
    (m.move i a).holder = m.holder := rfl

theorem places_move_self (h : m.places[i]? = some a) (b : Place κ) :
    (m.move i b).places[i]? = some b :=
  List.getElem?_set_self (List.getElem?_eq_some_iff.mp h).1

theorem places_move_ne {j : Nat} (h : i ≠ j) (b : Place κ) :
    (m.move i b).places[j]? = m.places[j]? := List.getElem?_set_ne h

/-- A thread inside after a move moved there or was there. -/
theorem inside_of_move {j : Nat} {b : Place κ} {k : κ}
    (h : (m.move i b).places[j]? = some (.inside k)) :
    (i = j ∧ b = .inside k) ∨ (i ≠ j ∧ m.places[j]? = some (.inside k)) := by
  by_cases hij : i = j
  · subst hij
    have hlt := (List.getElem?_eq_some_iff.mp h).1
    rw [move, List.length_set] at hlt
    rw [move, List.getElem?_set_self hlt] at h
    exact .inl ⟨rfl, Option.some.inj h⟩
  · exact .inr ⟨hij, places_move_ne hij b ▸ h⟩

theorem waiting_move (h : m.places[i]? = some a) (b : Place κ) :
    (m.move i b).waiting + (if a.isWaiting then 1 else 0) =
      m.waiting + (if b.isWaiting then 1 else 0) := countP_move h b

theorem waiting_pos {k : κ} (h : m.places[i]? = some (.waiting k)) : 0 < m.waiting :=
  List.countP_pos_iff.mpr ⟨_, List.mem_of_getElem? h, rfl⟩

theorem notified_move (h : m.places[i]? = some a) (b : Place κ) :
    (m.move i b).notified + (if a.isNotified then 1 else 0) =
      m.notified + (if b.isNotified then 1 else 0) := countP_move h b

end State

/-! ## The invariant rule -/

/-- The point of a thread that is inside. -/
def State.point (m : State σ κ) (i : Nat) : Option κ :=
  match m.places[i]? with
  | some (.inside k) => some k
  | _ => none

theorem State.mem_point {m : State σ κ} {i : Nat} {k : κ}
    (h : m.places[i]? = some (.inside k)) : k ∈ m.point i := by
  rw [State.point, h]
  rfl

/-- A condition on notifications: at this point, in this shared state, with so many
threads waiting. -/
def Notifies (ok : κ → σ → Nat → Prop) (m : State σ κ) : Event μ → Prop
  | .notify i _ => ∀ k ∈ m.point i, ok k m.shared m.waiting
  | _ => True

instance Notifies.decide (ok : κ → σ → Nat → Prop) [∀ k s w, Decidable (ok k s w)]
    (m : State σ κ) : ∀ e : Event μ, Decidable (Notifies ok m e)
  | .notify i _ => Option.decidableForallMem (m.point i)
  | .call _ _ | .lock _ | .run _ | .wake _ => .isTrue trivial

/-- What a monitor keeps, given the numbers of waiting and of notified threads: `Free`
while nobody has the mutex, `At` at the point of the thread that has it. `Waits` are the
points a waiting thread goes on from. -/
structure Contract (p : Program σ κ μ) (ok : κ → σ → Nat → Prop) where
  Waits : κ → Prop
  Free : σ → Nat → Nat → Prop
  At : κ → σ → Nat → Nat → Prop
  enter : ∀ {s w n} f, Free s w n → At (p.start f) s w n
  resume : ∀ {k s w n}, Waits k → Free s w (n + 1) → At k s w n
  retry : ∀ {k s w n}, Waits k → Free s w n → At k s w n
  freeWake : ∀ {s w n}, Free s (w + 1) n → Free s w n
  atWake : ∀ {k s w n}, At k s (w + 1) n → At k s w n
  goto : ∀ {k k' s s' w n}, p.next k s = .goto k' s' → At k s w n → At k' s' w n
  wait : ∀ {k k' s w n}, p.next k s = .wait k' → At k s w n → Waits k' ∧ Free s (w + 1) n
  leave : ∀ {k s w n}, p.next k s = .leave → At k s w n → Free s w n
  notifyNobody : ∀ {k k' s n}, p.next k s = .notify k' → At k s 0 n → At k' s 0 n
  notifyOne : ∀ {k k' s w n}, p.next k s = .notify k' → ok k s (w + 1) → At k s (w + 1) n →
    At k' s w (n + 1)

namespace Contract

variable {p : Program σ κ μ} {ok : κ → σ → Nat → Prop}

/-- The points a thread outside the mutex can go on from. -/
def Placed (c : Contract p ok) : Place κ → Prop
  | .outside | .inside _ => True
  | .entering k => (∃ f, k = p.start f) ∨ c.Waits k
  | .waiting k | .notified k => c.Waits k

/-- The contract holds in a state: one thread at most is inside, and it or the free
mutex keeps the ledger. -/
structure Holds (c : Contract p ok) (m : State σ κ) : Prop where
  exclusive : ∀ i k, m.places[i]? = some (.inside k) → m.holder = some i
  held : ∀ i, m.holder = some i → ∃ k, m.places[i]? = some (.inside k) ∧
    c.At k m.shared m.waiting m.notified
  free : m.holder = none → c.Free m.shared m.waiting m.notified
  placed : ∀ a ∈ m.places, c.Placed a

theorem holds_idle (c : Contract p ok) {s : σ} (h : c.Free s 0 0) (n : Nat) :
    c.Holds (State.idle s n) where
  exclusive i k hi := by simp [State.idle, List.getElem?_replicate] at hi
  held i hi := by simp [State.idle] at hi
  free _ := by simpa [State.idle, State.waiting, State.notified, List.countP_replicate] using h
  placed a ha := by
    obtain rfl := List.eq_of_mem_replicate ha
    trivial

theorem placed_move {c : Contract p ok} {m : State σ κ} (h : ∀ a ∈ m.places, c.Placed a)
    {b : Place κ} (hb : c.Placed b) (i : Nat) : ∀ a ∈ (m.move i b).places, c.Placed a := by
  intro a ha
  rcases List.mem_or_eq_of_mem_set ha with ha | rfl
  · exact h a ha
  · exact hb

/-- A thread takes the free mutex. -/
theorem Holds.lock {c : Contract p ok} {m : State σ κ} (h : c.Holds m) {i : Nat} {a : Place κ}
    {k : κ} (hfree : m.holder = none) (hi : m.places[i]? = some a)
    (hAt : c.At k m.shared (m.move i (.inside k)).waiting (m.move i (.inside k)).notified) :
    c.Holds { m.move i (.inside k) with holder := some i } where
  exclusive j l hj := by
    rcases State.inside_of_move hj with ⟨rfl, _⟩ | ⟨_, hj⟩
    · rfl
    · -- nobody is inside while the mutex is free
      have := h.exclusive j l hj
      rw [hfree] at this
      cases this
  held j hj := by
    obtain rfl := Option.some.inj hj
    exact ⟨k, State.places_move_self hi _, hAt⟩
  free hnone := by cases hnone
  placed := placed_move h.placed (b := .inside k) trivial i

/-- The thread inside goes on to another point. -/
theorem Holds.turn {c : Contract p ok} {m : State σ κ} (h : c.Holds m) {i : Nat} {k k' : κ}
    (hi : m.places[i]? = some (.inside k)) {s : σ} (hAt : c.At k' s m.waiting m.notified) :
    c.Holds { m.move i (.inside k') with shared := s } where
  exclusive j l hj := by
    rcases State.inside_of_move hj with ⟨rfl, _⟩ | ⟨_, hj⟩
    · exact h.exclusive i k hi
    · exact h.exclusive j l hj
  held j hj := by
    obtain rfl : i = j := Option.some.inj ((h.exclusive i k hi).symm.trans hj)
    have hw := State.waiting_move hi (.inside k')
    have hn := State.notified_move hi (.inside k')
    simp only [Place.isWaiting_inside, Place.isNotified_inside, Bool.false_eq_true, if_false,
      Nat.add_zero] at hw hn
    refine ⟨k', State.places_move_self hi _, ?_⟩
    change c.At k' s (m.move i (.inside k')).waiting (m.move i (.inside k')).notified
    rwa [hw, hn]
  free hnone := by
    have := (h.exclusive i k hi).symm.trans hnone
    cases this
  placed := placed_move h.placed (b := .inside k') trivial i

/-- The thread inside gives the mutex up. -/
theorem Holds.release {c : Contract p ok} {m : State σ κ} (h : c.Holds m) {i : Nat} {k : κ}
    {b : Place κ} (hi : m.places[i]? = some (.inside k)) (hb : ∀ l, b ≠ .inside l)
    (hplaced : c.Placed b) (hFree : c.Free m.shared (m.move i b).waiting (m.move i b).notified) :
    c.Holds { m.move i b with holder := none } where
  exclusive j l hj := by
    rcases State.inside_of_move hj with ⟨_, hl⟩ | ⟨hij, hj⟩
    · exact absurd hl (hb l)
    · -- the one that gives it up was the only one inside
      have := (h.exclusive i k hi).symm.trans (h.exclusive j l hj)
      exact absurd (Option.some.inj this) hij
  held j hj := by cases hj
  free _ := hFree
  placed := placed_move h.placed hplaced i

/-- A thread that is not inside moves on. -/
theorem Holds.beside {c : Contract p ok} {m : State σ κ} (h : c.Holds m) {i : Nat}
    {a b : Place κ} (hi : m.places[i]? = some a) (ha : ∀ l, a ≠ .inside l)
    (hb : ∀ l, b ≠ .inside l) (hplaced : c.Placed b)
    (hFree : c.Free m.shared m.waiting m.notified →
      c.Free m.shared (m.move i b).waiting (m.move i b).notified)
    (hAt : ∀ k, c.At k m.shared m.waiting m.notified →
      c.At k m.shared (m.move i b).waiting (m.move i b).notified) : c.Holds (m.move i b) where
  exclusive j l hj := by
    rcases State.inside_of_move hj with ⟨_, hl⟩ | ⟨_, hj⟩
    · exact absurd hl (hb l)
    · exact h.exclusive j l hj
  held j hj := by
    obtain ⟨k, hk, hkAt⟩ := h.held j hj
    have hij : i ≠ j := by
      rintro rfl
      exact ha k (Option.some.inj (hi.symm.trans hk))
    exact ⟨k, (State.places_move_ne hij b).trans hk, hAt k hkAt⟩
  free hnone := hFree (h.free hnone)
  placed := placed_move h.placed hplaced i

/-- The thread inside notifies a waiting one. -/
theorem Holds.handOver {c : Contract p ok} {m : State σ κ} (h : c.Holds m) {i j : Nat}
    {k k' l : κ} (hi : m.places[i]? = some (.inside k)) (hj : m.places[j]? = some (.waiting l))
    (hAt : c.At k' m.shared (m.move j (.notified l)).waiting (m.notified + 1)) :
    c.Holds ((m.move j (.notified l)).move i (.inside k')) := by
  have hij : j ≠ i := by
    rintro rfl
    rw [hi] at hj
    cases hj
  have hi' : (m.move j (.notified l)).places[i]? = some (.inside k) :=
    (State.places_move_ne hij _).trans hi
  have hn : (m.move j (.notified l)).notified = m.notified + 1 := by
    simpa using State.notified_move hj (.notified l)
  have hw' : ((m.move j (.notified l)).move i (.inside k')).waiting =
      (m.move j (.notified l)).waiting := by simpa using State.waiting_move hi' (.inside k')
  have hn' : ((m.move j (.notified l)).move i (.inside k')).notified =
      (m.move j (.notified l)).notified := by simpa using State.notified_move hi' (.inside k')
  constructor
  · intro t o ht
    rcases State.inside_of_move ht with ⟨rfl, _⟩ | ⟨_, ht⟩
    · exact h.exclusive i k hi
    · rcases State.inside_of_move ht with ⟨_, ho⟩ | ⟨_, ht⟩
      · cases ho
      · exact h.exclusive t o ht
  · intro t ht
    obtain rfl : i = t := Option.some.inj ((h.exclusive i k hi).symm.trans ht)
    refine ⟨k', State.places_move_self hi' _, ?_⟩
    rwa [hw', hn', hn]
  · intro hnone
    have := (h.exclusive i k hi).symm.trans hnone
    cases this
  · have hasleep : c.Placed (.notified l) := h.placed (.waiting l) (List.mem_of_getElem? hj)
    exact placed_move (placed_move h.placed hasleep j) (b := .inside k') trivial i

/-- The thread inside is where the contract speaks of it. -/
theorem Holds.at_of_inside {c : Contract p ok} {m : State σ κ} (h : c.Holds m) {i : Nat} {k : κ}
    (hi : m.places[i]? = some (.inside k)) : c.At k m.shared m.waiting m.notified := by
  obtain ⟨l, hl, hAt⟩ := h.held i (h.exclusive i k hi)
  obtain rfl : k = l := by simpa using hi.symm.trans hl
  exact hAt

/-- A step keeps the contract. -/
theorem Holds.step {c : Contract p ok} {m t : State σ κ} {e : Event μ} (h : c.Holds m)
    (hok : Notifies ok m e) (hstep : Monitor.step p m e = some t) : c.Holds t := by
  cases moves_of_step hstep with
  | @call i f hi =>
    have hw : (m.move i (.entering (p.start f))).waiting = m.waiting := by
      simpa using State.waiting_move hi (.entering (p.start f))
    have hn : (m.move i (.entering (p.start f))).notified = m.notified := by
      simpa using State.notified_move hi (.entering (p.start f))
    refine h.beside hi (by simp) (by simp) (.inl ⟨f, rfl⟩) ?_ ?_ <;> rw [hw, hn]
    · exact id
    · exact fun _ => id
  | @enter i k hfree hi =>
    have hw : (m.move i (.inside k)).waiting = m.waiting := by
      simpa using State.waiting_move hi (.inside k)
    have hn : (m.move i (.inside k)).notified = m.notified := by
      simpa using State.notified_move hi (.inside k)
    refine h.lock hfree hi ?_
    rw [hw, hn]
    rcases h.placed _ (List.mem_of_getElem? hi) with ⟨f, rfl⟩ | hwaits
    · exact c.enter f (h.free hfree)
    · exact c.retry hwaits (h.free hfree)
  | @resume i k hfree hi =>
    have hw : (m.move i (.inside k)).waiting = m.waiting := by
      simpa using State.waiting_move hi (.inside k)
    have hn : (m.move i (.inside k)).notified + 1 = m.notified := by
      simpa using State.notified_move hi (.inside k)
    refine h.lock hfree hi (c.resume (h.placed _ (List.mem_of_getElem? hi)) ?_)
    rw [hw, hn]
    exact h.free hfree
  | goto hi hnext => exact h.turn hi (c.goto hnext (h.at_of_inside hi))
  | @wait i k k' hi hnext =>
    have hw : (m.move i (.waiting k')).waiting = m.waiting + 1 := by
      simpa using State.waiting_move hi (.waiting k')
    have hn : (m.move i (.waiting k')).notified = m.notified := by
      simpa using State.notified_move hi (.waiting k')
    obtain ⟨hwaits, hFree⟩ := c.wait hnext (h.at_of_inside hi)
    exact h.release hi (by simp) hwaits (by rwa [hw, hn])
  | @leave i k hi hnext =>
    have hw : (m.move i .outside).waiting = m.waiting := by
      simpa using State.waiting_move hi .outside
    have hn : (m.move i .outside).notified = m.notified := by
      simpa using State.notified_move hi .outside
    have hFree := c.leave hnext (h.at_of_inside hi)
    exact h.release hi (by simp) trivial (by rwa [hw, hn])
  | notifyNobody hi hnext hnobody =>
    have hAt := h.at_of_inside hi
    rw [hnobody] at hAt
    exact h.turn hi (s := m.shared) (hnobody ▸ c.notifyNobody hnext hAt)
  | @notifyOne i j k k' l hi hnext hj =>
    have hw : (m.move j (.notified l)).waiting + 1 = m.waiting := by
      simpa using State.waiting_move hj (.notified l)
    have hAt := h.at_of_inside hi
    have hmay := hok k (State.mem_point hi)
    rw [← hw] at hAt hmay
    exact h.handOver hi hj (c.notifyOne hnext hmay hAt)
  | @wake i k hi =>
    have hw : (m.move i (.entering k)).waiting + 1 = m.waiting := by
      simpa using State.waiting_move hi (.entering k)
    have hn : (m.move i (.entering k)).notified = m.notified := by
      simpa using State.notified_move hi (.entering k)
    refine h.beside hi (by simp) (by simp) (.inr (h.placed _ (List.mem_of_getElem? hi))) ?_ ?_ <;>
      rw [← hw, hn]
    · exact c.freeWake
    · exact fun _ => c.atWake

/-- The contract holds in every state reached from threads that have called nothing. -/
theorem invariant (c : Contract p ok) {s : σ} (hs : c.Free s 0 0) {n : Nat} {m : State σ κ}
    (h : Runs.Reach (Monitor.step p) (Notifies ok) (State.idle s n) m) : c.Holds m :=
  h.invariant (c.holds_idle hs n) fun _ _ _ hm hok hstep => hm.step hok hstep

end Contract

/-- What every turn does to the shared state, a run does. -/
theorem shared_of_reach {p : Program σ κ μ} {ok : State σ κ → Event μ → Prop} {P : σ → Prop}
    {s : σ} (hs : P s) (hgoto : ∀ k s k' s', P s → p.next k s = .goto k' s' → P s') {n : Nat}
    {m : State σ κ} (h : Runs.Reach (step p) ok (State.idle s n) m) : P m.shared := by
  refine h.invariant (I := fun m => P m.shared) hs ?_
  intro m e t hm _ hstep
  cases moves_of_step hstep with
  | @goto i k k' s' hi hnext => exact hgoto k m.shared k' s' hm hnext
  | _ => exact hm

end Monitor
