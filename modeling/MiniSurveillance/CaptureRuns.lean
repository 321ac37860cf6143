import MiniSurveillance.PullThread
import MiniSurveillance.VideoCtrl

/-!
# The atomic calls are runs of the threads

`VideoCtrl.play` and `stop` take one step each; in `PullThread` the same calls are
many, with those of the pull threads between them. `Stands` relates the states, and
every atomic call is a run of the threads that leads from related states to related
states, or to `std::terminate` where the atomic call crashes:
`play_runs`, `stop_runs` and `pullThreadEnds_runs`.
-/

namespace MiniSurveillance.VideoCtrl
open Text Runs PullThread

/-- The state of the threads between two calls of the GUI. -/
structure Stands (v : VideoCtrl) (s : State) : Prop where
  isPlaying : s.isPlaying = v.isPlaying
  idle : s.gui = .idle
  alive : s.terminated = false
  isPulling : s.isPulling = (v.capture.pullThread == .running)
  handle : match v.capture.pullThread with
    | .none => s.handle = none
    | .running => ∃ i pc, s.handle = some i ∧ s.threads[i]? = some pc ∧ pc ≠ .done
    | .ended => ∃ i, s.handle = some i ∧ s.threads[i]? = some .done

theorem stands_init : Stands {} PullThread.init := ⟨rfl, rfl, rfl, rfl, rfl⟩

/-! ## A pull thread comes to its end -/

section Finish

variable {s : State} {i : Nat} {pc : PullPc}

theorem step_thread (halive : s.terminated = false) (hi : s.threads[i]? = some pc)
    (hpc : pc ≠ .done) (fails : Bool) :
    step s (.thread i fails) = some { s with
      threads := s.threads.set i (pc.next s.isPulling fails)
      isPulling := if pc = .clear then false else s.isPulling } := by
  simp only [step, halive, threadStep, hi]
  cases pc with
  | done => exact absurd rfl hpc
  | _ => rfl

/-- The thread has ended and has cleared `is_pulling`. -/
def finished (s : State) (i : Nat) : State :=
  { s with threads := s.threads.set i .done, isPulling := false }

def Finishes (s : State) (i : Nat) : Prop := ∃ es, exec step s es = some (finished s i)

theorem finishes_clear (halive : s.terminated = false) (hi : s.threads[i]? = some .clear) :
    Finishes s i := by
  refine ⟨[.thread i false], ?_⟩
  rw [exec_cons, step_thread halive hi nofun]
  rfl

/-- A thread that is not at its last statement takes a step and finishes from there. -/
theorem finishes_next (halive : s.terminated = false) (hi : s.threads[i]? = some pc)
    (hdone : pc ≠ .done) (hclear : pc ≠ .clear) (fails : Bool)
    (hrest : Finishes { s with threads := s.threads.set i (pc.next s.isPulling fails) } i) :
    Finishes s i := by
  obtain ⟨es, hes⟩ := hrest
  refine ⟨.thread i fails :: es, ?_⟩
  rw [exec_cons, step_thread halive hi hdone, if_neg hclear, Option.bind_some, hes]
  simp only [finished, List.set_set]

/-- Wherever a pull thread is, it can come to its end: `init` may fail, a read may. -/
theorem finishes (halive : s.terminated = false) (hi : s.threads[i]? = some pc)
    (hpc : pc ≠ .done) : Finishes s i := by
  have hlt := (List.getElem?_eq_some_iff.mp hi).1
  have hset (q : PullPc) : (s.threads.set i q)[i]? = some q := List.getElem?_set_self hlt
  have hunInit : ∀ u : State, u.terminated = false → u.threads[i]? = some .unInit →
      Finishes u i := fun u hu hui =>
    finishes_next hu hui nofun nofun false
      (finishes_clear hu (List.getElem?_set_self (List.getElem?_eq_some_iff.mp hui).1))
  have hread : ∀ u : State, u.terminated = false → u.threads[i]? = some .read →
      Finishes u i := fun u hu hui =>
    finishes_next hu hui nofun nofun true
      (hunInit _ hu (List.getElem?_set_self (List.getElem?_eq_some_iff.mp hui).1))
  cases pc with
  | init => exact finishes_next halive hi nofun nofun true (finishes_clear halive (hset _))
  | pull =>
    refine finishes_next halive hi nofun nofun false ?_
    cases hpulling : s.isPulling with
    | true => exact hread _ halive (hset _)
    | false => exact hunInit _ halive (hset _)
  | read => exact hread s halive hi
  | unInit => exact hunInit s halive hi
  | clear => exact finishes_clear halive hi
  | done => exact absurd rfl hpc

end Finish

/-! ## The calls -/

/-- What an atomic outcome says of the state the threads reach. -/
def ReachesOutcome (s : State) (o : Outcome Fault VideoCtrl Bool) : Prop :=
  ∃ es t, exec step s es = some t ∧
    match o with
    | .ok _ v => Stands v t
    | .raised _ v => Stands v t
    | .crashed => t.terminated = true

theorem play_runs {v : VideoCtrl} {s : State} (url encryption : String) (h : Stands v s) :
    ReachesOutcome s (v.play url encryption) := by
  obtain ⟨hplaying, hidle, halive, hpulling, hhandle⟩ := h
  obtain ⟨isPlaying, isPulling, threads, handle, gui, terminated⟩ := s
  dsimp only at hplaying hidle halive hpulling hhandle
  subst hplaying hidle halive hpulling
  cases hon : v.isPlaying with
  | true =>
    rw [play_of_playing url encryption hon]
    exact ⟨[.play false], _, rfl, hon.symm, rfl, rfl, rfl, hhandle⟩
  | false =>
    rcases Nat.lt_or_ge (utf16Length url) 6 with hshort | hlong
    · rw [play_of_short encryption hon hshort]
      exact ⟨[.play true], _, rfl, rfl, rfl, rfl, rfl, hhandle⟩
    · obtain ⟨name, _, hplay⟩ := play_of_long encryption hon hlong
      rw [hplay]
      cases hthread : v.capture.pullThread with
      | none =>
        rw [hthread] at hhandle
        cases hhandle
        refine ⟨[.play false, .gui, .gui, .gui], _, rfl, rfl, rfl, rfl, rfl, ?_⟩
        exact ⟨threads.length, .init, rfl, by simp, nofun⟩
      | running =>
        rw [hthread] at hhandle
        exact ⟨[.play false, .gui], _, rfl, rfl, rfl, rfl, rfl, hhandle⟩
      | ended =>
        rw [hthread] at hhandle
        obtain ⟨i, rfl, _⟩ := hhandle
        exact ⟨[.play false, .gui, .gui, .gui], _, rfl, rfl⟩

theorem pullThreadEnds_runs {v : VideoCtrl} {s : State} (h : Stands v s)
    (hrunning : v.capture.pullThread = .running) :
    ∃ es t, exec step s es = some t ∧
      Stands { v with capture := { v.capture with pullThread := .ended } } t := by
  have hhandle := h.handle
  rw [hrunning] at hhandle
  obtain ⟨i, pc, hi, hpc, hdone⟩ := hhandle
  obtain ⟨es, hes⟩ := finishes h.alive hpc hdone
  have hlt := (List.getElem?_eq_some_iff.mp hpc).1
  exact ⟨es, _, hes, h.isPlaying, h.idle, h.alive, rfl, i, hi, List.getElem?_set_self hlt⟩

theorem stop_runs {v : VideoCtrl} {s : State} (h : Stands v s) :
    ∃ es t, exec step s es = some t ∧ Stands v.stop t := by
  obtain ⟨hplaying, hidle, halive, hpulling, hhandle⟩ := h
  obtain ⟨isPlaying, isPulling, threads, handle, gui, terminated⟩ := s
  dsimp only at hplaying hidle halive hpulling hhandle
  subst hplaying hidle halive hpulling
  unfold stop
  cases hon : v.isPlaying with
  | false => exact ⟨[.stop], _, rfl, hon.symm, rfl, rfl, rfl, hhandle⟩
  | true =>
    rw [if_pos rfl, VideoCapture.stop]
    cases hthread : v.capture.pullThread with
    | none =>
      rw [hthread] at hhandle
      refine ⟨[.stop, .gui], _, rfl, rfl, rfl, rfl, ?_, ?_⟩
      · simp [hthread, stopReturns]
      · simpa [hthread, stopReturns] using hhandle
    | ended =>
      rw [hthread] at hhandle
      refine ⟨[.stop, .gui], _, rfl, rfl, rfl, rfl, ?_, ?_⟩
      · simp [hthread, stopReturns]
      · simpa [hthread, stopReturns] using hhandle
    | running =>
      rw [hthread] at hhandle
      obtain ⟨i, pc, rfl, hpc, hdone⟩ := hhandle
      -- the flag is cleared, the thread comes to its end, and the join returns
      obtain ⟨es, hes⟩ := finishes (s := ⟨true, false, threads, some i, .joining false, false⟩)
        rfl hpc hdone
      have hlt := (List.getElem?_eq_some_iff.mp hpc).1
      refine ⟨[.stop, .gui, .gui] ++ es ++ [.gui],
        ⟨false, false, threads.set i .done, none, .idle, false⟩, ?_, rfl, rfl, rfl, rfl, rfl⟩
      rw [List.append_assoc, exec_append]
      refine (exec_append step _ es [.gui]).trans ?_
      rw [hes]
      simp [finished, exec_cons, step, guiStep, stopReturns, List.getElem?_set_self hlt]

end MiniSurveillance.VideoCtrl
