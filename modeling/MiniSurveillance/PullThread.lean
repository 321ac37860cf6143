import MiniSurveillance.Base.Runs
import MiniSurveillance.Base.Threads

/-!
# The pull thread

`VideoCapture::start` and `stop` run on the GUI thread, `pull` and its frame on a
thread of its own; both sides write `is_pulling`. A state has the flags, every pull
thread ever started and the handle; a step is one access to a shared field by the
GUI thread or by a pull thread.

* `reachable_atMostOneUser`: in every run at most one pull thread uses `rtmp` and
  `packet`.
* `captureSafe_of_endsByStop`: no joinable handle is overwritten or destroyed in a run in
  which the thread clears `is_pulling` only behind `stop`.
* `terminates_by_itself`: a thread that ends by itself leaves a handle behind that
  the next `play` overwrites.
-/

namespace MiniSurveillance.PullThread
open Threads

/-- Where a pull thread is in the lambda of `start`. -/
inductive PullPc
  /-- In `init`. -/
  | init
  /-- At the test of the loop in `pull`. -/
  | pull
  /-- In `RTMP_ReadPacket` or behind it, handling the packet. -/
  | read
  /-- In `unInit`. -/
  | unInit
  /-- Before its last statement, `is_pulling = false`. -/
  | clear
  | done
deriving DecidableEq, Repr

/-- The thread uses `rtmp` and `packet`. -/
def PullPc.using : PullPc → Bool
  | .init | .pull | .read | .unInit => true
  | .clear | .done => false

/-- Where the GUI thread is. In `stopping`, `clearing` and `joining` it is inside
`VideoCapture::stop`, called by the destructor or by `VideoCtrl::stop`. -/
inductive GuiPc
  | idle
  /-- `start`: before the test of `is_pulling`. -/
  | starting
  /-- `start`: before `is_pulling = true`. -/
  | setting
  /-- `start`: before the new thread and the assignment of its handle. -/
  | spawning
  | stopping (dtor : Bool)
  | clearing (dtor : Bool)
  | joining (dtor : Bool)
  /-- The destructor: before the members are destroyed. -/
  | members
  | gone
deriving DecidableEq, Repr

structure State where
  /-- `VideoCtrl::is_playing`; only the GUI thread uses it. -/
  isPlaying : Bool
  isPulling : Bool
  threads : List PullPc
  /-- `p_rtmp_pull_thread`, when it joins a thread. -/
  handle : Option Nat
  gui : GuiPc
  /-- `std::terminate` was called, or a null handle was joined. -/
  terminated : Bool
deriving DecidableEq, Repr

/-- A call of the GUI, a step of the GUI thread inside a call, or a step of a pull
thread. `raises` says that `VideoCtrl::play` throws on its URL before `start`;
`fails` that `init` fails, or that `RTMP_ReadPacket` reports an error. -/
inductive Event
  | play (raises : Bool)
  | stop
  | destroy
  | gui
  | thread (i : Nat) (fails : Bool)
deriving DecidableEq, Repr

/-- Where a thread goes from `pc`. -/
def PullPc.next (isPulling fails : Bool) : PullPc → PullPc
  | .init => if fails then .clear else .pull
  | .pull => if isPulling then .read else .unInit
  | .read => if fails then .unInit else .pull
  | .unInit => .clear
  | .clear => .done
  | .done => .done

def threadStep (s : State) (i : Nat) (fails : Bool) : Option State :=
  match s.threads[i]? with
  | none => none
  | some .done => none
  | some pc => some { s with
      threads := s.threads.set i (pc.next s.isPulling fails)
      isPulling := if pc = .clear then false else s.isPulling }

/-- `VideoCapture::stop` returns: into the destructor, or to the end of
`VideoCtrl::stop`. -/
def stopReturns (s : State) (dtor : Bool) : State :=
  if dtor then { s with gui := .members } else { s with gui := .idle, isPlaying := false }

def guiStep (s : State) : Option State :=
  match s.gui with
  | .starting =>
    if s.isPulling then some { s with gui := .idle, isPlaying := false }
    else some { s with gui := .setting }
  | .setting => some { s with gui := .spawning, isPulling := true }
  | .spawning => some { s with
      gui := .idle
      threads := s.threads ++ [.init]
      handle := some s.threads.length
      terminated := s.handle.isSome }
  | .stopping dtor =>
    if s.isPulling then some { s with gui := .clearing dtor } else some (stopReturns s dtor)
  | .clearing dtor => some { s with gui := .joining dtor, isPulling := false }
  | .joining dtor =>
    match s.handle with
    | none => some { s with terminated := true }
    | some i =>
      if s.threads[i]? = some .done then some (stopReturns { s with handle := none } dtor) else none
  | .members => some { s with gui := .gone, terminated := s.handle.isSome }
  | .idle | .gone => none

/-- A step; none from a process that is gone, and none that has to wait. -/
def step (s : State) : Event → Option State
  | .play raises =>
    if s.terminated || s.gui != .idle then none
    else if s.isPlaying then some s
    else some { s with isPlaying := true, gui := if raises then .idle else .starting }
  | .stop =>
    if s.terminated || s.gui != .idle then none
    else if s.isPlaying then some { s with gui := .stopping false }
    else some s
  | .destroy =>
    if s.terminated || s.gui != .idle then none else some { s with gui := .stopping true }
  | .gui => if s.terminated then none else guiStep s
  | .thread i fails => if s.terminated then none else threadStep s i fails

def init : State := ⟨false, false, [], none, .idle, false⟩

/-! ## What a step does -/

theorem threadStep_cases {s t : State} {i : Nat} {fails : Bool}
    (h : threadStep s i fails = some t) :
    ∃ pc, s.threads[i]? = some pc ∧ pc ≠ .done ∧
      t = { s with
        threads := s.threads.set i (pc.next s.isPulling fails)
        isPulling := if pc = .clear then false else s.isPulling } := by
  unfold threadStep at h
  split at h
  · cases h
  · cases h
  · next pc hdone hi => exact ⟨pc, hi, fun hpc => hdone hpc, (Option.some.inj h).symm⟩

/-- A call of the GUI is made while it is idle, and starts at most one thing. -/
theorem step_call_cases {s t : State} {e : Event} (h : step s e = some t) :
    (∃ i fails, e = .thread i fails ∧ s.terminated = false ∧ threadStep s i fails = some t) ∨
    (e = .gui ∧ s.terminated = false ∧ guiStep s = some t) ∨
    (s.terminated = false ∧ s.gui = .idle ∧
      (t = s ∨ t = { s with isPlaying := true } ∨ t = { s with isPlaying := true, gui := .starting } ∨
        ∃ dtor, t = { s with gui := .stopping dtor })) := by
  cases e with
  | play raises =>
    simp only [step] at h
    split at h
    · cases h
    · next hidle =>
      simp only [Bool.or_eq_true, bne_iff_ne, ne_eq, not_or, Bool.not_eq_true, not_not] at hidle
      refine .inr (.inr ⟨hidle.1, hidle.2, ?_⟩)
      split at h
      · exact .inl (Option.some.inj h).symm
      · cases raises with
        | true =>
          refine .inr (.inl ?_)
          rw [← Option.some.inj h, ← hidle.2]
          rfl
        | false => exact .inr (.inr (.inl (Option.some.inj h).symm))
  | stop =>
    simp only [step] at h
    split at h
    · cases h
    · next hidle =>
      simp only [Bool.or_eq_true, bne_iff_ne, ne_eq, not_or, Bool.not_eq_true, not_not] at hidle
      refine .inr (.inr ⟨hidle.1, hidle.2, ?_⟩)
      split at h
      · exact .inr (.inr (.inr ⟨false, (Option.some.inj h).symm⟩))
      · exact .inl (Option.some.inj h).symm
  | destroy =>
    simp only [step] at h
    split at h
    · cases h
    · next hidle =>
      simp only [Bool.or_eq_true, bne_iff_ne, ne_eq, not_or, Bool.not_eq_true, not_not] at hidle
      exact .inr (.inr ⟨hidle.1, hidle.2, .inr (.inr (.inr ⟨true, (Option.some.inj h).symm⟩))⟩)
  | gui =>
    simp only [step] at h
    split at h
    · cases h
    · next hterm => exact .inr (.inl ⟨rfl, by simpa using hterm, h⟩)
  | thread i fails =>
    simp only [step] at h
    split at h
    · cases h
    · next hterm => exact .inl ⟨i, fails, rfl, by simpa using hterm, h⟩

/-! ## One thread at a time -/

/-- What the GUI thread knows of the pull threads where it is: a cleared flag means
that none is running, and from the test in `start` on none is. -/
def Quiet (s : State) : Prop :=
  match s.gui with
  | .idle | .starting | .stopping _ | .clearing _ => s.isPulling = false → AllDone .done s.threads
  | .joining _ => True
  | .setting | .spawning | .members | .gone => AllDone .done s.threads

/-- While the flag is set there is a thread to join; `start` sets it before it makes
one, `stop` clears it before it joins. -/
def HasHandle (s : State) : Prop :=
  match s.gui with
  | .idle | .starting | .stopping _ => s.isPulling = true → s.handle ≠ none
  | .clearing _ => s.handle ≠ none
  | .joining _ => s.isPulling = false ∧ s.handle ≠ none
  | .spawning => s.isPulling = true
  | .setting | .members | .gone => True

/-- The invariant of every run. -/
structure Inv (s : State) : Prop where
  owned : Owned .done s.handle s.threads
  quiet : Quiet s
  hasHandle : HasHandle s

theorem Inv.thread {s t : State} {i : Nat} {fails : Bool} (hs : Inv s)
    (h : threadStep s i fails = some t) : Inv t := by
  obtain ⟨pc, hi, hpc, rfl⟩ := threadStep_cases h
  -- a thread that leaves its loop of its own accord is the last one running
  have hflag : (if pc = .clear then false else s.isPulling) = false →
      (s.isPulling = false → AllDone .done s.threads) →
      AllDone .done (s.threads.set i (pc.next s.isPulling fails)) := by
    intro hoff hquiet
    by_cases hclear : pc = .clear
    · subst hclear
      exact hs.owned.set_done hi hpc
    · rw [if_neg hclear] at hoff
      exact ((hquiet hoff).absurd hi hpc).elim
  have hkeep : (if pc = .clear then false else s.isPulling) = true → s.isPulling = true := by
    split
    · intro hno
      cases hno
    · exact id
  have hquiet := hs.quiet
  have hhandle := hs.hasHandle
  refine ⟨hs.owned.set hi hpc _, ?_, ?_⟩
  · unfold Quiet at hquiet ⊢
    dsimp only
    split at hquiet
    · exact fun hoff => hflag hoff hquiet
    · exact fun hoff => hflag hoff hquiet
    · exact fun hoff => hflag hoff hquiet
    · exact fun hoff => hflag hoff hquiet
    · trivial
    · exact (hquiet.absurd hi hpc).elim
    · exact (hquiet.absurd hi hpc).elim
    · exact (hquiet.absurd hi hpc).elim
    · exact (hquiet.absurd hi hpc).elim
  · unfold HasHandle at hhandle ⊢
    dsimp only
    split at hhandle
    · exact fun hon => hhandle (hkeep hon)
    · exact fun hon => hhandle (hkeep hon)
    · exact fun hon => hhandle (hkeep hon)
    · exact hhandle
    · exact ⟨by rw [hhandle.1, ite_self], hhandle.2⟩
    · next hgui =>
      rw [Quiet, hgui] at hquiet
      exact (hquiet.absurd hi hpc).elim
    · trivial
    · trivial
    · trivial

theorem Inv.gui {s t : State} (hs : Inv s) (h : guiStep s = some t) : Inv t := by
  obtain ⟨isPlaying, isPulling, threads, handle, gui, terminated⟩ := s
  obtain ⟨howned, hquiet, hhandle⟩ := hs
  cases gui with
  | idle => cases h
  | starting =>
    simp only [guiStep] at h
    split at h
    · cases h
      exact ⟨howned, hquiet, hhandle⟩
    · next hoff =>
      cases h
      exact ⟨howned, hquiet (by simpa using hoff), trivial⟩
  | setting =>
    cases h
    exact ⟨howned, hquiet, rfl⟩
  | spawning =>
    cases h
    have hall : AllDone .done threads := hquiet
    have hon : isPulling = true := hhandle
    exact ⟨hall.spawn .init, fun hoff => absurd (hon.symm.trans hoff) (by decide), fun _ => by simp⟩
  | stopping dtor =>
    simp only [guiStep] at h
    split at h
    · next hon =>
      cases h
      exact ⟨howned, hquiet, hhandle hon⟩
    · next hoff =>
      have hall : AllDone .done threads := hquiet (by simpa using hoff)
      cases dtor with
      | false =>
        cases h
        exact ⟨howned, fun _ => hall, fun hon => absurd hon hoff⟩
      | true =>
        cases h
        exact ⟨howned, hall, trivial⟩
  | clearing dtor =>
    cases h
    exact ⟨howned, trivial, rfl, hhandle⟩
  | joining dtor =>
    obtain ⟨hoff, hsome⟩ : isPulling = false ∧ handle ≠ none := hhandle
    cases handle with
    | none => exact absurd rfl hsome
    | some i =>
      simp only [guiStep] at h
      split at h
      · next hdone =>
        have hall := howned.allDone_of_done hdone
        cases dtor with
        | false =>
          cases h
          exact ⟨hall.owned none, fun _ => hall, fun hon => absurd (hoff.symm.trans hon) (by decide)⟩
        | true =>
          cases h
          exact ⟨hall.owned none, hall, trivial⟩
      · cases h
  | members =>
    cases h
    exact ⟨howned, hquiet, trivial⟩
  | gone => cases h

theorem Inv.step {s t : State} {e : Event} (hs : Inv s) (h : step s e = some t) : Inv t := by
  rcases step_call_cases h with ⟨i, fails, _, _, h⟩ | ⟨_, _, h⟩ |
    ⟨_, hidle, rfl | rfl | rfl | ⟨dtor, rfl⟩⟩
  · exact hs.thread h
  · exact hs.gui h
  · exact hs
  · exact ⟨hs.owned, hs.quiet, hs.hasHandle⟩
  · have hquiet := hs.quiet
    have hhandle := hs.hasHandle
    rw [Quiet, hidle] at hquiet
    rw [HasHandle, hidle] at hhandle
    exact ⟨hs.owned, hquiet, hhandle⟩
  · have hquiet := hs.quiet
    have hhandle := hs.hasHandle
    rw [Quiet, hidle] at hquiet
    rw [HasHandle, hidle] at hhandle
    exact ⟨hs.owned, hquiet, hhandle⟩

theorem inv_init : Inv init := ⟨allDone_nil.owned none, fun _ => allDone_nil, fun h => nomatch h⟩

/-- Thread `i` is using `rtmp` and `packet`. -/
def Uses (s : State) (i : Nat) : Prop := ∃ pc, s.threads[i]? = some pc ∧ pc.using = true

def AtMostOneUser (s : State) : Prop := ∀ i j, Uses s i → Uses s j → i = j

theorem Inv.atMostOneUser {s : State} (hs : Inv s) : AtMostOneUser s := by
  rintro i j ⟨pc, hi, hu⟩ ⟨pc', hj, hu'⟩
  have hne : pc ≠ .done := fun h => by
    rw [h] at hu
    cases hu
  have hne' : pc' ≠ .done := fun h => by
    rw [h] at hu'
    cases hu'
  exact hs.owned.unique hi hne hj hne'

/-- In every run at most one pull thread uses `rtmp` and `packet`. -/
theorem reachable_atMostOneUser {s : State} (h : Runs.Reachable step init s) : AtMostOneUser s :=
  (h.invariant inv_init fun _ _ _ hs _ hstep => Inv.step hs hstep).atMostOneUser

/-! ## The handle -/

/-- The step is not a pull thread clearing `is_pulling` while it is set: the thread
has not ended by itself, before a `stop`. -/
def EndsByStop (s : State) : Event → Prop
  | .thread i _ => s.threads[i]? = some .clear → s.isPulling = false
  | _ => True

/-- While the flag is cleared there is no handle left, outside of `stop`. -/
def HandleFree (s : State) : Prop :=
  match s.gui with
  | .idle | .starting | .stopping _ => s.isPulling = false → s.handle = none
  | .clearing _ | .joining _ => True
  | .setting | .spawning | .members | .gone => s.handle = none

/-- Nothing has gone wrong, and no handle is about to be lost. -/
structure Kept (s : State) : Prop where
  terminated : s.terminated = false
  handleFree : HandleFree s

theorem Kept.thread {s t : State} {i : Nat} {fails : Bool} (hs : Kept s)
    (hok : EndsByStop s (.thread i fails)) (h : threadStep s i fails = some t) : Kept t := by
  obtain ⟨pc, hi, _, rfl⟩ := threadStep_cases h
  have hflag : (if pc = .clear then false else s.isPulling) = s.isPulling := by
    split
    · next hclear => rw [hok (hclear ▸ hi)]
    · rfl
  have hfree := hs.handleFree
  refine ⟨hs.terminated, ?_⟩
  unfold HandleFree at hfree ⊢
  dsimp only
  rw [hflag]
  exact hfree

theorem Kept.gui {s t : State} (hs : Kept s) (hinv : Inv s) (h : guiStep s = some t) : Kept t := by
  obtain ⟨isPlaying, isPulling, threads, handle, gui, terminated⟩ := s
  obtain ⟨hterm, hfree⟩ := hs
  have hterm : terminated = false := hterm
  subst hterm
  cases gui with
  | idle => cases h
  | starting =>
    simp only [guiStep] at h
    split at h
    · cases h
      exact ⟨rfl, hfree⟩
    · next hoff =>
      cases h
      exact ⟨rfl, hfree (by simpa using hoff)⟩
  | setting =>
    cases h
    exact ⟨rfl, hfree⟩
  | spawning =>
    cases h
    have hnone : handle = none := hfree
    have hon : isPulling = true := hinv.hasHandle
    exact ⟨by simp [hnone], fun hoff => absurd (hon.symm.trans hoff) (by decide)⟩
  | stopping dtor =>
    simp only [guiStep] at h
    split at h
    · cases h
      exact ⟨rfl, trivial⟩
    · next hoff =>
      have hnone : handle = none := hfree (by simpa using hoff)
      cases dtor with
      | false =>
        cases h
        exact ⟨rfl, fun _ => hnone⟩
      | true =>
        cases h
        exact ⟨rfl, hnone⟩
  | clearing dtor =>
    cases h
    exact ⟨rfl, trivial⟩
  | joining dtor =>
    obtain ⟨_, hsome⟩ : isPulling = false ∧ handle ≠ none := hinv.hasHandle
    cases handle with
    | none => exact absurd rfl hsome
    | some i =>
      simp only [guiStep] at h
      split at h
      · cases dtor with
        | false =>
          cases h
          exact ⟨rfl, fun _ => rfl⟩
        | true =>
          cases h
          exact ⟨rfl, rfl⟩
      · cases h
  | members =>
    cases h
    have hnone : handle = none := hfree
    exact ⟨by simp [hnone], hnone⟩
  | gone => cases h

theorem Kept.step {s t : State} {e : Event} (hs : Kept s) (hinv : Inv s) (hok : EndsByStop s e)
    (h : step s e = some t) : Kept t := by
  rcases step_call_cases h with ⟨i, fails, rfl, _, h⟩ | ⟨_, _, h⟩ |
    ⟨_, hidle, rfl | rfl | rfl | ⟨dtor, rfl⟩⟩
  · exact hs.thread hok h
  · exact hs.gui hinv h
  · exact hs
  · exact ⟨hs.terminated, hs.handleFree⟩
  · have hfree := hs.handleFree
    rw [HandleFree, hidle] at hfree
    exact ⟨hs.terminated, hfree⟩
  · have hfree := hs.handleFree
    rw [HandleFree, hidle] at hfree
    exact ⟨hs.terminated, hfree⟩

/-- One user of the connection at a time, and no joinable handle overwritten or
destroyed so far. -/
def Safe (s : State) : Prop := AtMostOneUser s ∧ s.terminated = false

/-- A run in which pull threads end only behind `stop` is safe. -/
theorem captureSafe_of_endsByStop {s : State} (h : Runs.Reach step EndsByStop init s) : Safe s := by
  have hboth := h.invariant (I := fun s => Inv s ∧ Kept s) ⟨inv_init, rfl, fun _ => rfl⟩
    fun s e t hs hok hstep => ⟨hs.1.step hstep, hs.2.step hs.1 hok hstep⟩
  exact ⟨hboth.1.atMostOneUser, hboth.2.terminated⟩

/-- `play`, the thread as far as its first packet, and `stop` up to the join. -/
def playAndStop : List Event :=
  [.play false, .gui, .gui, .gui, .thread 0 false, .thread 0 false, .stop, .gui, .gui,
    .thread 0 false, .thread 0 false, .thread 0 false, .thread 0 false, .gui]

/-- Playing and stopping a stream that can be reached is safe. -/
theorem captureSafe_of_endsByStop_playAndStop :
    ∃ s, Runs.exec step init playAndStop = some s ∧ Safe s := by
  have hrun : ∃ s, Runs.exec step init playAndStop = some s := ⟨_, rfl⟩
  obtain ⟨s, hexec⟩ := hrun
  -- only the last step of the thread is the clearing, behind `stop`
  exact ⟨s, hexec, captureSafe_of_endsByStop (Runs.Reach.start.exec hexec
    ⟨trivial, trivial, trivial, trivial, nofun, nofun, trivial, trivial, trivial,
      nofun, nofun, nofun, fun _ => rfl, trivial, trivial⟩)⟩

/-- The connection fails and the thread ends by itself; the user stops and plays
again. -/
def failAndReplay : List Event :=
  [.play false, .gui, .gui, .gui, .thread 0 true, .thread 0 false, .stop, .gui,
    .play false, .gui, .gui, .gui]

/-- The handle of the thread that ended by itself is overwritten. -/
theorem terminates_by_itself : ¬ ∀ s, Runs.Reachable step init s → Safe s := by
  intro h
  have hrun : ∃ s, Runs.exec step init failAndReplay = some s ∧ s.terminated = true := ⟨_, rfl, rfl⟩
  obtain ⟨s, hexec, hterm⟩ := hrun
  have hsafe := (h s (Runs.reachable_of_exec hexec)).2
  exact absurd (hterm.symm.trans hsafe) (by decide)

end MiniSurveillance.PullThread
