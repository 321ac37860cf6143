/-!
# Threads and the handle that joins them

A pool is the list of all threads of one kind ever started, each at its program
counter; a `std::thread` handle is the index of the thread it joins, or `none`. A
thread that ran to its end (`done`) stays joinable until it is joined.

* `Owned done handle pool`: every thread still running is the one the handle joins.
* `AllDone done pool`: no thread is running.

The lemmas say how starting a thread, moving one and joining the handle's one keep
these.
-/

namespace Threads

variable {π : Type} {done : π}

/-- No thread of the pool is running. -/
def AllDone (done : π) (pool : List π) : Prop :=
  ∀ (i : Nat) (pc : π), pool[i]? = some pc → pc = done

/-- Every running thread of the pool is the one the handle joins. -/
def Owned (done : π) (handle : Option Nat) (pool : List π) : Prop :=
  ∀ (i : Nat) (pc : π), pool[i]? = some pc → pc ≠ done → handle = some i

theorem allDone_nil : AllDone done ([] : List π) := by
  intro i pc h
  simp at h

theorem AllDone.owned {pool : List π} (h : AllDone done pool) (handle : Option Nat) :
    Owned done handle pool := fun i pc hi hpc => absurd (h i pc hi) hpc

/-- Without a handle no thread is running. -/
theorem Owned.allDone {pool : List π} (h : Owned done none pool) : AllDone done pool := by
  intro i pc hi
  by_cases hpc : pc = done
  · exact hpc
  · exact nomatch h i pc hi hpc

/-- At most one thread is running. -/
theorem Owned.unique {handle : Option Nat} {pool : List π} (h : Owned done handle pool)
    {i j : Nat} {pc pc' : π} (hi : pool[i]? = some pc) (hpc : pc ≠ done)
    (hj : pool[j]? = some pc') (hpc' : pc' ≠ done) : i = j :=
  Option.some.inj ((h i pc hi hpc).symm.trans (h j pc' hj hpc'))

/-- When the handle's thread is done, all are. -/
theorem Owned.allDone_of_done {i : Nat} {pool : List π} (h : Owned done (some i) pool)
    (hi : pool[i]? = some done) : AllDone done pool := by
  intro j pc hj
  by_cases hpc : pc = done
  · exact hpc
  · obtain rfl : i = j := Option.some.inj (h j pc hj hpc)
    exact Option.some.inj (hj.symm.trans hi)

/-- A running thread moves on. -/
theorem Owned.set {handle : Option Nat} {pool : List π} (h : Owned done handle pool) {i : Nat}
    {pc : π} (hi : pool[i]? = some pc) (hpc : pc ≠ done) (pc' : π) :
    Owned done handle (pool.set i pc') := by
  intro j pc'' hj hpc''
  by_cases hij : i = j
  · subst hij
    exact h i pc hi hpc
  · rw [List.getElem?_set_ne hij] at hj
    exact h j pc'' hj hpc''

/-- The last running thread runs to its end. -/
theorem Owned.set_done {handle : Option Nat} {pool : List π} (h : Owned done handle pool)
    {i : Nat} {pc : π} (hi : pool[i]? = some pc) (hpc : pc ≠ done) :
    AllDone done (pool.set i done) := by
  intro j pc' hj
  by_cases hij : i = j
  · subst hij
    have hlt := (List.getElem?_eq_some_iff.mp hi).1
    rw [List.getElem?_set_self hlt] at hj
    exact (Option.some.inj hj).symm
  · rw [List.getElem?_set_ne hij] at hj
    by_cases hpc' : pc' = done
    · exact hpc'
    · exact absurd (h.unique hi hpc hj hpc') hij

/-- A thread is started beside threads that are all done. -/
theorem AllDone.spawn {pool : List π} (h : AllDone done pool) (pc : π) :
    Owned done (some pool.length) (pool ++ [pc]) := by
  intro i pc' hi hpc'
  rcases Nat.lt_or_ge i pool.length with hlt | hge
  · rw [List.getElem?_append_left hlt] at hi
    exact absurd (h i pc' hi) hpc'
  · have hlen := (List.getElem?_eq_some_iff.mp hi).1
    rw [List.length_append, List.length_singleton] at hlen
    exact congrArg some (by omega)

/-- What holds of a thread that is done and of the one that moved holds of all. -/
theorem Owned.forall_set {handle : Option Nat} {pool : List π} (h : Owned done handle pool)
    {P : Nat → π → Prop} {i : Nat} {pc pc' : π} (hi : pool[i]? = some pc) (hpc : pc ≠ done)
    (hdone : ∀ j, P j done) (hmoved : P i pc') :
    ∀ (j : Nat) (pc'' : π), (pool.set i pc')[j]? = some pc'' → P j pc'' := by
  intro j pc'' hj
  by_cases hij : i = j
  · subst hij
    rw [List.getElem?_set_self (List.getElem?_eq_some_iff.mp hi).1] at hj
    obtain rfl := Option.some.inj hj
    exact hmoved
  · rw [List.getElem?_set_ne hij] at hj
    by_cases hrunning : pc'' = done
    · exact hrunning ▸ hdone j
    · exact absurd (h.unique hi hpc hj hrunning) hij

/-- A thread that moved and is not done refutes that all are. -/
theorem AllDone.of_set {pool : List π} {i : Nat} {pc pc' : π} (hi : pool[i]? = some pc)
    (h : AllDone done (pool.set i pc')) : pc' = done :=
  h i pc' (List.getElem?_set_self (List.getElem?_eq_some_iff.mp hi).1)

/-- A running thread refutes that all are done. -/
theorem AllDone.absurd {pool : List π} (h : AllDone done pool) {i : Nat} {pc : π}
    (hi : pool[i]? = some pc) (hpc : pc ≠ done) : False := hpc (h i pc hi)

end Threads
