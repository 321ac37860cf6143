import MiniSurveillance.Base.Monitor
import MiniSurveillance.SafeQueue

/-!
# Who waits at the queue

The methods of `SafeQueue` as a monitor: the mutex is taken, the statements run from
point to point, and `pop` gives it up while it waits. `push` and `setWork` notify one
waiting thread, whichever it is.

* `reachable_act`: the queue goes through critical sections, one after another.
* `waits_of_reach`: while nobody has the mutex, a thread that waits without a
  notification waits for an element, and the elements are promised to notified ones.
  `setWork(0)` has to find one waiting thread at most, since it wakes one.
* `lost_of_notify`: with two of them it leaves one behind.
* `pop_returns`: when the queue does not work, a notified `pop` returns once it gets
  the mutex.
-/

namespace MiniSurveillance
namespace SafeQueue
open Monitor

variable {α : Type}

/-- The points of the methods at which something is done. -/
inductive Point (α : Type)
  | push (element : α)
  /-- The test of the loop in `pop`. -/
  | pop
  | setWork (flag : Int)
  | clear
  /-- `_cond.notify_one()`. -/
  | notify
  /-- The lock goes out of scope. -/
  | done
deriving DecidableEq

/-- The point behind the lock of a method. -/
def Section.point : Section α → Point α
  | .push element => .push element
  | .pop => .pop
  | .setWork flag => .setWork flag
  | .clear => .clear

/-- What is done at a point. -/
def nextAction : Point α → History α → Action (History α) (Point α)
  | .push element, h =>
    .goto (if h.queue.workFlag ≠ 0 then .notify else .done) (h.push element)
  | .pop, h =>
    match h.pop with
    | none => .wait .pop
    | some (h, _) => .goto .done h
  | .setWork flag, h => .goto .notify (h.setWork flag)
  | .clear, h => .goto .done h.clear
  | .notify, _ => .notify .done
  | .done, _ => .leave

/-- The methods, each from its lock on. -/
def methods : Program (History α) (Point α) (Section α) := ⟨Section.point, nextAction⟩

abbrev Threads (α : Type) := State (History α) (Point α)

/-- Threads that have called nothing yet, and a new queue. -/
def start (n : Nat) : Threads α := State.idle {} n

/-- Only `pop` waits, and comes back to its loop. -/
theorem pop_of_wait {k k' : Point α} {h : History α} (hnext : nextAction k h = .wait k') :
    k = .pop ∧ k' = .pop ∧ h.pop = none := by
  cases k with
  | pop =>
    simp only [nextAction] at hnext
    split at hnext
    · next hpop =>
      cases hnext
      exact ⟨rfl, rfl, hpop⟩
    · cases hnext
  | _ => cases hnext

theorem done_of_leave {k : Point α} {h : History α} (hnext : nextAction k h = .leave) :
    k = .done := by
  cases k with
  | done => rfl
  | pop =>
    simp only [nextAction] at hnext
    split at hnext <;> cases hnext
  | _ => cases hnext

theorem done_of_notify {k k' : Point α} {h : History α} (hnext : nextAction k h = .notify k') :
    k = .notify ∧ k' = .done := by
  cases k with
  | notify =>
    cases hnext
    exact ⟨rfl, rfl⟩
  | pop =>
    simp only [nextAction] at hnext
    split at hnext <;> cases hnext
  | _ => cases hnext

/-- What is done with the mutex held is a critical section. -/
theorem act_of_goto {k k' : Point α} {h h' : History α} (hnext : nextAction k h = .goto k' h') :
    ∃ e, act h e = some h' := by
  cases k with
  | push element =>
    cases hnext
    exact ⟨.push element, rfl⟩
  | pop =>
    refine ⟨.pop, ?_⟩
    simp only [nextAction] at hnext
    split at hnext
    · cases hnext
    · next hpop =>
      cases hnext
      rw [act, hpop]
      rfl
  | setWork flag =>
    cases hnext
    exact ⟨.setWork flag, rfl⟩
  | clear =>
    cases hnext
    exact ⟨.clear, rfl⟩
  | notify => cases hnext
  | done => cases hnext

/-- Whatever the threads do, the queue goes through critical sections. -/
theorem reachable_act {ok : Threads α → Event (Section α) → Prop} {n : Nat} {m : Threads α}
    (h : Runs.Reach (step methods) ok (start n) m) : Runs.Reachable act {} m.shared :=
  shared_of_reach (P := Runs.Reachable act {}) .start
    (fun _ _ _ _ hs hnext => by
      obtain ⟨e, he⟩ := act_of_goto hnext
      exact .next hs trivial he) h

/-- Every pushed element is accounted for, at every point of every interleaving. -/
theorem accounts_of_reach {ok : Threads α → Event (Section α) → Prop} {n : Nat} {m : Threads α}
    (h : Runs.Reach (step methods) ok (start n) m) : m.shared.Accounts :=
  (reachable_act h).invariant .init fun _ _ _ hh _ hact => hh.act hact

/-! ## Nobody waits in vain -/

/-- A thread waits for an element only, and no more elements are queued than threads
were notified. -/
def Promised (h : History α) (waiting notified : Nat) : Prop :=
  0 < waiting → h.queue.workFlag ≠ 0 ∧ h.queue.que.length ≤ notified

/-- The thread at the loop of `pop` may be the one an element was promised to, the one
at `notify_one` may still owe a promise. -/
def PromisedAt : Point α → History α → Nat → Nat → Prop
  | .pop, h, waiting, notified => Promised h waiting (notified + 1)
  | .notify, h, waiting, notified =>
    0 < waiting → h.queue.workFlag ≠ 0 → h.queue.que.length ≤ notified + 1
  | .push _, h, waiting, notified => Promised h waiting notified
  | .setWork _, h, waiting, notified => Promised h waiting notified
  | .clear, h, waiting, notified => Promised h waiting notified
  | .done, h, waiting, notified => Promised h waiting notified

/-- A notification of a queue that does not work finds one waiting thread at most. -/
def OneAtStop (_ : Point α) (h : History α) (waiting : Nat) : Prop :=
  h.queue.workFlag = 0 → waiting ≤ 1

instance (k : Point α) (h : History α) (waiting : Nat) : Decidable (OneAtStop k h waiting) :=
  inferInstanceAs (Decidable (_ → _))

theorem Promised.mono {h : History α} {w n n' : Nat} (hh : Promised h w n) (hle : n ≤ n') :
    Promised h w n' := fun hpos => ⟨(hh hpos).1, Nat.le_trans (hh hpos).2 hle⟩

theorem Promised.wake {h : History α} {w n : Nat} (hh : Promised h (w + 1) n) :
    Promised h w n := fun _ => hh (Nat.succ_pos w)

/-- A `pop` waits for an element only. -/
theorem pop_waits {h : History α} (hpop : h.pop = none) :
    h.queue.workFlag ≠ 0 ∧ h.queue.que = [] := by
  rcases History.pop_queue h with ⟨hwork, hque, -⟩ | ⟨t, value, hfound, -⟩
  · exact ⟨hwork, hque⟩
  · rw [hpop] at hfound
    cases hfound

/-- A `pop` that does not wait takes an element, unless the queue does not work. -/
theorem pop_takes {h t : History α} {value : Option α} (hpop : h.pop = some (t, value)) :
    t.queue.workFlag = h.queue.workFlag ∧
      (h.queue.workFlag = 0 ∨ h.queue.que.length = t.queue.que.length + 1) := by
  rcases pop_cases h.queue with ⟨_, _, hq⟩ | ⟨hidle, _, hq⟩ | ⟨front, rest, hque, hq⟩
  · simp [History.pop, hq] at hpop
  · simp only [History.pop, hq, Option.map_some, Option.some.injEq, Prod.mk.injEq] at hpop
    obtain ⟨rfl, -⟩ := hpop
    exact ⟨rfl, .inl hidle⟩
  · simp only [History.pop, hq, Option.map_some, Option.some.injEq, Prod.mk.injEq] at hpop
    obtain ⟨rfl, -⟩ := hpop
    exact ⟨rfl, .inr (by simp [History.found, hque])⟩

theorem promisedAt_goto {k k' : Point α} {h h' : History α} {w n : Nat}
    (hnext : nextAction k h = .goto k' h') (hh : PromisedAt k h w n) : PromisedAt k' h' w n := by
  cases k with
  | push element =>
    cases hnext
    by_cases hwork : h.queue.workFlag = 0
    · rw [if_neg (not_not.mpr hwork)]
      exact fun hpos => absurd hwork (hh hpos).1
    · rw [if_pos hwork]
      intro hpos _
      have hlen := (hh hpos).2
      simp only [History.push, push_of_work hwork, List.length_append, List.length_singleton]
      omega
  | pop =>
    simp only [nextAction] at hnext
    split at hnext
    · cases hnext
    · next hpop =>
      cases hnext
      obtain ⟨hflag, htakes⟩ := pop_takes hpop
      intro hpos
      obtain ⟨hwork, hlen⟩ := hh hpos
      rw [hflag]
      exact ⟨hwork, by have := htakes.resolve_left hwork; omega⟩
  | setWork flag =>
    cases hnext
    exact fun hpos _ => Nat.le_trans (hh hpos).2 (Nat.le_succ n)
  | clear =>
    cases hnext
    intro hpos
    simp only [History.clear, clear_eq]
    exact ⟨(hh hpos).1, Nat.zero_le n⟩
  | notify => cases hnext
  | done => cases hnext

theorem PromisedAt.wake {k : Point α} {h : History α} {w n : Nat}
    (hh : PromisedAt k h (w + 1) n) : PromisedAt k h w n := by
  cases k with
  | notify => exact fun _ => hh (Nat.succ_pos w)
  | _ => exact Promised.wake hh

/-- The thread that was notified is the one an element is promised to. -/
theorem promised_of_notify {h : History α} {w n : Nat} {k : Point α}
    (hone : OneAtStop k h (w + 1)) (hh : PromisedAt .notify h (w + 1) n) :
    Promised h w (n + 1) := by
  intro hpos
  have hwork : h.queue.workFlag ≠ 0 := by
    intro hidle
    have := hone hidle
    omega
  exact ⟨hwork, hh (Nat.succ_pos w) hwork⟩

/-- Promises are kept by every method, as long as a queue that stops working has one
waiting thread at most. -/
def promises : Contract (methods (α := α)) OneAtStop where
  Waits k := k = .pop
  Free := Promised
  At := PromisedAt
  enter e hh := by
    cases e with
    | pop => exact hh.mono (Nat.le_succ _)
    | _ => exact hh
  resume hk hh := by
    subst hk
    exact hh
  retry hk hh := by
    subst hk
    exact hh.mono (Nat.le_succ _)
  freeWake := Promised.wake
  atWake := PromisedAt.wake
  goto := promisedAt_goto
  wait hnext _ := by
    obtain ⟨-, rfl, hpop⟩ := pop_of_wait hnext
    obtain ⟨hwork, hque⟩ := pop_waits hpop
    exact ⟨rfl, fun _ => ⟨hwork, by simp [hque]⟩⟩
  leave hnext hh := by
    obtain rfl := done_of_leave hnext
    exact hh
  notifyNobody hnext _ := by
    obtain ⟨rfl, rfl⟩ := done_of_notify hnext
    exact fun hpos => absurd hpos (Nat.lt_irrefl 0)
  notifyOne hnext hone hh := by
    obtain ⟨rfl, rfl⟩ := done_of_notify hnext
    exact promised_of_notify hone hh

/-- While nobody has the mutex, a thread that waits without a notification waits at a
queue that works, and the elements are promised to notified threads; a queue that does
not work has nobody waiting. -/
theorem waits_of_reach {n : Nat} {m : Threads α}
    (h : Runs.Reach (step methods) (Notifies OneAtStop) (start n) m) (hfree : m.holder = none) :
    (∀ (i : Nat) (k : Point α), m.places[i]? = some (.waiting k) →
      m.shared.queue.workFlag ≠ 0 ∧ m.shared.queue.que.length ≤ m.notified) ∧
    (m.shared.queue.workFlag = 0 →
      ∀ (i : Nat) (k : Point α), m.places[i]? ≠ some (.waiting k)) := by
  have hholds := promises.invariant (fun hpos => absurd hpos (Nat.lt_irrefl 0)) h
  have hpromised : Promised m.shared m.waiting m.notified := hholds.free hfree
  have hwaits : ∀ (i : Nat) (k : Point α), m.places[i]? = some (.waiting k) →
      m.shared.queue.workFlag ≠ 0 ∧ m.shared.queue.que.length ≤ m.notified :=
    fun i k hi => hpromised (State.waiting_pos hi)
  exact ⟨hwaits, fun hidle i k hi => (hwaits i k hi).1 hidle⟩

/-! ## What the condition is for -/

/-- With two threads waiting, the notification of a queue that stops working leaves one
of them behind: nobody has the mutex then, and nobody is told. -/
theorem lost_of_notify {m t : Threads α} {i : Nat} {receiver : Option Nat}
    (hi : m.places[i]? = some (.inside .notify)) (hidle : m.shared.queue.workFlag = 0)
    (htwo : 2 ≤ m.waiting) (hstep : step methods m (.notify i receiver) = some t) :
    ∃ u, step methods t (.run i) = some u ∧ u.holder = none ∧ u.shared.queue.workFlag = 0 ∧
      0 < u.waiting := by
  cases moves_of_step hstep with
  | notifyNobody _ _ hnobody => omega
  | @notifyOne _ j k k' l hk hnext hj =>
    obtain ⟨rfl, rfl⟩ := done_of_notify hnext
    have hij : j ≠ i := by
      rintro rfl
      rw [hi] at hj
      cases hj
    have hi' : (m.move j (.notified l)).places[i]? = some (.inside .notify) :=
      (State.places_move_ne hij _).trans hi
    have hdone := State.places_move_self hi' (.inside .done)
    have hone : (m.move j (.notified l)).waiting + 1 = m.waiting := by
      simpa using State.waiting_move hj (.notified l)
    have hstay : ((m.move j (.notified l)).move i (.inside .done)).waiting =
        (m.move j (.notified l)).waiting := by simpa using State.waiting_move hi' (.inside .done)
    have hleft : (((m.move j (.notified l)).move i (.inside .done)).move i .outside).waiting =
        ((m.move j (.notified l)).move i (.inside .done)).waiting := by
      simpa using State.waiting_move hdone .outside
    refine ⟨_, step_of_moves (.leave hdone rfl), rfl, hidle, ?_⟩
    change 0 < (((m.move j (.notified l)).move i (.inside .done)).move i .outside).waiting
    omega

/-- When the queue does not work, a `pop` that asks for the mutex returns once it gets it. -/
theorem pop_returns {m : Threads α} {i : Nat} (hfree : m.holder = none)
    (hidle : m.shared.queue.workFlag = 0)
    (hi : m.places[i]? = some (.entering .pop) ∨ m.places[i]? = some (.notified .pop)) :
    ∃ t, Runs.exec (step methods) m [.lock i, .run i, .run i] = some t ∧
      t.places[i]? = some .outside := by
  obtain ⟨t, hlock, hshared, hin⟩ : ∃ t, step methods m (.lock i) = some t ∧
      t.shared = m.shared ∧ t.places[i]? = some (.inside .pop) := by
    rcases hi with hi | hi
    · exact ⟨_, step_of_moves (.enter hfree hi), rfl, State.places_move_self hi _⟩
    · exact ⟨_, step_of_moves (.resume hfree hi), rfl, State.places_move_self hi _⟩
  obtain ⟨h, hnext⟩ : ∃ h, nextAction .pop t.shared = .goto .done h := by
    rw [hshared]
    simp only [nextAction]
    split
    · next hpop => exact absurd hidle (pop_waits hpop).1
    · next h value hpop => exact ⟨h, rfl⟩
  obtain ⟨u, hturn, hdone⟩ : ∃ u, step methods t (.run i) = some u ∧
      u.places[i]? = some (.inside .done) :=
    ⟨_, step_of_moves (.goto hin hnext), State.places_move_self hin _⟩
  obtain ⟨v, hleave, hout⟩ : ∃ v, step methods u (.run i) = some v ∧
      v.places[i]? = some .outside :=
    ⟨_, step_of_moves (.leave hdone rfl), State.places_move_self hdone _⟩
  refine ⟨v, ?_, hout⟩
  rw [Runs.exec_cons, hlock, Option.bind_some, Runs.exec_cons, hturn, Option.bind_some,
    Runs.exec_cons, hleave, Option.bind_some, Runs.exec_nil]

/-- `setWork(1)` by thread 2, and two `pop`s that wait. -/
def twoWait : List (Event (Section Nat)) :=
  [.call 2 (.setWork 1), .lock 2, .run 2, .notify 2 none, .run 2,
    .call 0 .pop, .lock 0, .run 0, .call 1 .pop, .lock 1, .run 1]

/-- `setWork(0)`, which notifies thread 0. -/
def stop : List (Event (Section Nat)) :=
  [.call 2 (.setWork 0), .lock 2, .run 2, .notify 2 (some 0), .run 2]

/-- The threads that `twoWait` leaves behind wait for an element. -/
theorem waits_twoWait : ∃ m : Threads Nat,
    Runs.exec (step methods) (start 3) twoWait = some m ∧ m.holder = none ∧
      m.places[1]? = some (.waiting .pop) ∧
      m.shared.queue.workFlag ≠ 0 ∧ m.shared.queue.que.length ≤ m.notified := by
  have hok : Runs.Along (step methods) (Notifies OneAtStop) (start 3) twoWait := by decide
  refine ⟨_, rfl, rfl, rfl, ?_⟩
  exact (waits_of_reach (Runs.Reach.start.exec (t := _) rfl hok) rfl).1 1 .pop rfl

/-- `setWork(0)` wakes one of two waiting threads; the other waits at a queue that does
not work. -/
theorem waits_forever : ∃ m : Threads Nat, Runs.Reachable (step methods) (start 3) m ∧
    m.holder = none ∧ m.places[1]? = some (.waiting .pop) ∧ m.shared.queue.workFlag = 0 := by
  have hrun : Runs.exec (step methods) (start 3) (twoWait ++ stop) = some _ := rfl
  exact ⟨_, Runs.reachable_of_exec hrun, rfl, rfl, rfl⟩

end SafeQueue
end MiniSurveillance
