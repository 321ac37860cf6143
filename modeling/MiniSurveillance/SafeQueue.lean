import Mathlib.Data.List.Perm.Basic
import MiniSurveillance.Base.Runs

/-!
# The queue between the producers and the push thread

Each method of `SafeQueue` holds the mutex from its first line to its last, so it is
one step here: a critical section. Only `pop` gives the mutex up in between, while it
waits; what runs before it waits changes nothing, so the section of a `pop` is its
last turn of the loop.

A `History` is a queue with the record of all that went in and came out so far.

* `accounts_of_exec`: in any order of sections the accepted elements are the removed
  ones followed by those queued, and each pushed element is queued, popped or
  released.
-/

namespace MiniSurveillance

structure SafeQueue (α : Type) where
  que : List α
  workFlag : Int
deriving DecidableEq

namespace SafeQueue

variable {α : Type}

def init : SafeQueue α := ⟨[], 0⟩

/-- The queue behind `push`, and what it passed to the release handle. -/
def push (q : SafeQueue α) (element : α) : SafeQueue α × List α :=
  if q.workFlag ≠ 0 then ({ q with que := q.que ++ [element] }, []) else (q, [element])

/-- The queue behind `pop`, and the value it found; `none` while it waits. -/
def pop (q : SafeQueue α) : Option (SafeQueue α × Option α) :=
  if q.workFlag ≠ 0 ∧ q.que.isEmpty then none
  else match q.que with
    | [] => some (q, none)
    | value :: rest => some ({ q with que := rest }, some value)

def setWork (q : SafeQueue α) (flag : Int) : SafeQueue α := { q with workFlag := flag }

/-- The loop of `clear`: what is left of the queue, and what was released. -/
def releaseLoop : Nat → List α → List α × List α
  | 0, que => (que, [])
  -- there are as many elements as turns
  | _ + 1, [] => ([], [])
  | n + 1, value :: que => ((releaseLoop n que).1, value :: (releaseLoop n que).2)

/-- The queue behind `clear`, and what it passed to the release handle. -/
def clear (q : SafeQueue α) : SafeQueue α × List α :=
  ({ q with que := (releaseLoop q.que.length q.que).1 }, (releaseLoop q.que.length q.que).2)

theorem releaseLoop_length (que : List α) : releaseLoop que.length que = ([], que) := by
  induction que with
  | nil => rfl
  | cons value que ih => rw [List.length_cons, releaseLoop, ih]

theorem clear_eq (q : SafeQueue α) : q.clear = (⟨[], q.workFlag⟩, q.que) := by
  rw [clear, releaseLoop_length]

theorem push_of_work {q : SafeQueue α} (h : q.workFlag ≠ 0) (element : α) :
    q.push element = (⟨q.que ++ [element], q.workFlag⟩, []) := if_pos h

theorem push_of_idle {q : SafeQueue α} (h : q.workFlag = 0) (element : α) :
    q.push element = (q, [element]) := if_neg (not_not.mpr h)

/-- `pop` waits on an empty queue that works, and takes the front of any other. -/
theorem pop_cases (q : SafeQueue α) :
    (q.workFlag ≠ 0 ∧ q.que = [] ∧ q.pop = none) ∨
    (q.workFlag = 0 ∧ q.que = [] ∧ q.pop = some (q, none)) ∨
    ∃ value rest, q.que = value :: rest ∧ q.pop = some (⟨rest, q.workFlag⟩, some value) := by
  obtain ⟨que, workFlag⟩ := q
  cases que with
  | cons value rest => exact .inr (.inr ⟨value, rest, rfl, by simp [pop]⟩)
  | nil =>
    by_cases hwork : workFlag = 0
    · exact .inr (.inl ⟨hwork, rfl, by simp [pop, hwork]⟩)
    · exact .inl ⟨hwork, rfl, by simp [pop, hwork]⟩

/-! ## What went in and came out -/

/-- A queue and its past. -/
structure History (α : Type) where
  queue : SafeQueue α := init
  /-- The arguments of `push`. -/
  pushed : List α := []
  /-- Those of them that went into the queue. -/
  accepted : List α := []
  /-- What `pop` and `clear` took out of the queue. -/
  removed : List α := []
  popped : List α := []
  /-- What was passed to the release handle. -/
  released : List α := []
deriving DecidableEq

namespace History

def push (h : History α) (element : α) : History α :=
  { h with
    queue := (h.queue.push element).1
    pushed := h.pushed ++ [element]
    accepted := h.accepted ++ if h.queue.workFlag ≠ 0 then [element] else []
    released := h.released ++ (h.queue.push element).2 }

/-- `pop` found `value`. -/
def found (h : History α) (queue : SafeQueue α) (value : Option α) : History α :=
  { h with
    queue
    removed := h.removed ++ value.toList
    popped := h.popped ++ value.toList }

def pop (h : History α) : Option (History α × Option α) :=
  h.queue.pop.map fun (queue, value) => (h.found queue value, value)

def setWork (h : History α) (flag : Int) : History α := { h with queue := h.queue.setWork flag }

def clear (h : History α) : History α :=
  { h with
    queue := h.queue.clear.1
    removed := h.removed ++ h.queue.clear.2
    released := h.released ++ h.queue.clear.2 }

/-- Every element that was ever pushed is accounted for. -/
structure Accounts (h : History α) : Prop where
  accepted : h.accepted = h.removed ++ h.queue.que
  pushed : h.pushed.Perm (h.queue.que ++ h.popped ++ h.released)

theorem Accounts.init : Accounts ({} : History α) := ⟨rfl, .refl _⟩

theorem Accounts.push {h : History α} (hh : h.Accounts) (element : α) :
    (h.push element).Accounts := by
  obtain ⟨haccepted, hpushed⟩ := hh
  by_cases hwork : h.queue.workFlag = 0
  · constructor
    · simpa [History.push, push_of_idle hwork, hwork] using haccepted
    · simpa [History.push, push_of_idle hwork] using hpushed.append_right [element]
  · constructor
    · simp [History.push, push_of_work hwork, hwork, haccepted]
    · simp only [History.push, push_of_work hwork, List.append_nil]
      -- the new element is last of all pushed ones, and last of those queued
      refine (hpushed.append_right [element]).trans ?_
      simp only [List.append_assoc]
      refine .append_left _ ?_
      rw [← List.append_assoc h.popped]
      exact List.perm_append_comm

theorem Accounts.pop {h t : History α} {value : Option α} (hh : h.Accounts)
    (hpop : h.pop = some (t, value)) : t.Accounts := by
  obtain ⟨haccepted, hpushed⟩ := hh
  rcases pop_cases h.queue with ⟨_, _, hq⟩ | ⟨_, hque, hq⟩ | ⟨front, rest, hque, hq⟩
  · simp [History.pop, hq] at hpop
  · simp only [History.pop, hq, Option.map_some, Option.some.injEq, Prod.mk.injEq] at hpop
    obtain ⟨rfl, rfl⟩ := hpop
    exact ⟨by simpa [found] using haccepted, by simpa [found] using hpushed⟩
  · simp only [History.pop, hq, Option.map_some, Option.some.injEq, Prod.mk.injEq] at hpop
    obtain ⟨rfl, rfl⟩ := hpop
    rw [hque] at haccepted hpushed
    constructor
    · simp [found, haccepted]
    · refine hpushed.trans ?_
      -- the front of the queue becomes the last one popped
      simp only [found, Option.toList_some, List.append_assoc, List.cons_append, List.nil_append]
      refine List.perm_middle.symm.trans ?_
      exact .append_left _ List.perm_middle.symm

/-- A `pop` that does not wait leaves the queue without what it found. -/
theorem pop_queue (h : History α) :
    (h.queue.workFlag ≠ 0 ∧ h.queue.que = [] ∧ h.pop = none) ∨
    ∃ t value, h.pop = some (t, value) ∧ h.queue.que = value.toList ++ t.queue.que := by
  rcases pop_cases h.queue with ⟨hwork, hque, hq⟩ | ⟨_, hque, hq⟩ | ⟨front, rest, hque, hq⟩
  · exact .inl ⟨hwork, hque, by simp [History.pop, hq]⟩
  · exact .inr ⟨h.found h.queue none, none, by simp [History.pop, hq], rfl⟩
  · exact .inr ⟨h.found ⟨rest, h.queue.workFlag⟩ (some front), some front,
      by simp [History.pop, hq], hque⟩

/-- `pop` records what it found. -/
theorem pop_found {h t : History α} {value : Option α} (hpop : h.pop = some (t, value)) :
    t.pushed = h.pushed ∧ t.popped = h.popped ++ value.toList ∧ t.released = h.released := by
  obtain ⟨⟨queue, front⟩, _, heq⟩ := Option.map_eq_some_iff.mp hpop
  obtain ⟨rfl, rfl⟩ := Prod.mk.inj heq
  exact ⟨rfl, rfl, rfl⟩

theorem Accounts.setWork {h : History α} (hh : h.Accounts) (flag : Int) :
    (h.setWork flag).Accounts := ⟨hh.accepted, hh.pushed⟩

theorem Accounts.clear {h : History α} (hh : h.Accounts) : h.clear.Accounts := by
  obtain ⟨haccepted, hpushed⟩ := hh
  constructor
  · simpa [History.clear, clear_eq] using haccepted
  · simp only [History.clear, clear_eq, List.nil_append]
    refine hpushed.trans ?_
    rw [List.append_assoc, ← List.append_assoc h.popped]
    exact List.perm_append_comm

end History

/-! ## Any order of sections -/

/-- A critical section, run by any thread. -/
inductive Section (α : Type)
  | push (element : α)
  | pop
  | setWork (flag : Int)
  | clear

/-- A section; none of a `pop` that waits. -/
def act (h : History α) : Section α → Option (History α)
  | .push element => some (h.push element)
  | .pop => h.pop.map Prod.fst
  | .setWork flag => some (h.setWork flag)
  | .clear => some h.clear

theorem History.Accounts.act {h t : History α} {e : Section α} (hh : h.Accounts)
    (hact : act h e = some t) : t.Accounts := by
  cases e with
  | push element =>
    cases hact
    exact hh.push element
  | pop =>
    obtain ⟨⟨t', value⟩, hpop, rfl⟩ := Option.map_eq_some_iff.mp hact
    exact hh.pop hpop
  | setWork flag =>
    cases hact
    exact hh.setWork flag
  | clear =>
    cases hact
    exact hh.clear

theorem accounts_of_exec {es : List (Section α)} {t : History α}
    (h : Runs.exec act {} es = some t) : t.Accounts :=
  (Runs.reachable_of_exec h).invariant .init fun _ _ _ hh _ hact => hh.act hact

end SafeQueue

end MiniSurveillance
