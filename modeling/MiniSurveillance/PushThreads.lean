import MiniSurveillance.Base.Runs
import MiniSurveillance.Base.Threads

/-!
# The push thread and the audio thread

`VideoSender` pushes a stream from one thread and feeds it sound from another; the
GUI thread starts and stops both. `is_pushing` is written by the GUI thread and by
the push thread, `is_pushing_audio` by the GUI thread and by the audio thread, and
`stop` does nothing when `is_pushing` is off.

* `senderSafe_of_endsByStop`: when the push thread ends only behind `stop`, audio is not
  opened twice and the sender is destroyed only when it is not pushing, `stop`
  leaves nothing running and no joinable handle is lost.
* `stop_leaves_audio`: a push that fails leaves the audio thread running behind
  `stop`.
-/

namespace MiniSurveillance.PushThreads
open Threads

/-- Where a push thread is in the lambda of `push`. -/
inductive PushPc
  /-- Allocating, setting up and connecting. -/
  | connect
  /-- Before `packets.setWork(1)`. -/
  | setWork
  /-- At the test of the loop. -/
  | test
  /-- In `packets.pop`. -/
  | pop
  /-- In `RTMP_SendPacket`. -/
  | send
  /-- Behind the loop: closing, `packets.setWork(0)` and `packets.clear()`. -/
  | close
  /-- Before its last statement, `is_pushing = false`. -/
  | clear
  | done
deriving DecidableEq

/-- Where an audio thread is in the lambda of `openAudio`. -/
inductive AudioPc
  /-- At the test of the loop. -/
  | test
  /-- Reading and encoding. -/
  | work
  /-- Before its last statement, `is_pushing_audio = false`. -/
  | clear
  | done
deriving DecidableEq

/-- Where the GUI thread is. `inStop` tells the `stopAudio` that `stop` calls from
one of its own. -/
inductive GuiPc
  | idle
  /-- Idle, with a call of `stop` the last to have returned. -/
  | returned
  /-- `push`: before `is_pushing = true`. -/
  | pushSet
  /-- `push`: before the new thread and the assignment of its handle. -/
  | pushSpawn
  /-- `stop`: before the test of `is_pushing_audio`. -/
  | stopAudioTest
  /-- `stopAudio`: before its test, its clearing, its join. -/
  | audioTest (inStop : Bool)
  | audioClear (inStop : Bool)
  | audioJoin (inStop : Bool)
  /-- `stop`: before `is_pushing = false`, before `setWork(0)`, before the join. -/
  | stopClear
  | stopWork
  | stopJoin
  /-- `openAudio`: before `is_pushing_audio = true`. -/
  | openSet
  /-- `openAudio`: before the new thread and the assignment of its handle. -/
  | openSpawn
  | gone
deriving DecidableEq

structure State where
  isPushing : Bool
  isPushingAudio : Bool
  /-- `work_flag` of the queue. -/
  work : Bool
  pushThreads : List PushPc
  /-- `rtmp_push_thread`, when it joins a thread. -/
  pushHandle : Option Nat
  audioThreads : List AudioPc
  /-- `audio_data_thread`, when it joins a thread. -/
  audioHandle : Option Nat
  gui : GuiPc
  /-- `std::terminate` was called, or a null handle was joined. -/
  terminated : Bool

/-- A call of the GUI, up to its first test, a step of the GUI thread inside a call,
or a step of a push or audio thread. `fails` says that connecting or sending fails,
or that `pop` comes back without a packet. -/
inductive Event
  | push
  | stop
  | openAudio
  | stopAudio
  | destroy
  | gui
  | pushThread (i : Nat) (fails : Bool)
  | audioThread (i : Nat)

/-- Where a push thread goes from `pc`. -/
def PushPc.next (isPushing fails : Bool) : PushPc → PushPc
  | .connect => if fails then .close else .setWork
  | .setWork => .test
  | .test => if isPushing then .pop else .close
  | .pop => if fails then .test else .send
  | .send => if fails then .close else .test
  | .close => .clear
  | .clear => .done
  | .done => .done

/-- `work_flag` behind a step from `pc`. -/
def PushPc.work (work : Bool) : PushPc → Bool
  | .setWork => true
  | .close => false
  | _ => work

/-- A step of a push thread. `pop` comes back without a packet only when the queue
does not work. -/
def pushStep (s : State) (i : Nat) (fails : Bool) : Option State :=
  match s.pushThreads[i]? with
  | none => none
  | some .done => none
  | some pc =>
    -- in `pop` of a working queue the thread waits for a packet
    if pc = .pop ∧ fails = true ∧ s.work = true then none
    else some { s with
      pushThreads := s.pushThreads.set i (pc.next s.isPushing fails)
      work := pc.work s.work
      isPushing := if pc = .clear then false else s.isPushing }

def AudioPc.next (isPushingAudio : Bool) : AudioPc → AudioPc
  | .test => if isPushingAudio then .work else .clear
  | .work => .test
  | .clear => .done
  | .done => .done

def audioStep (s : State) (i : Nat) : Option State :=
  match s.audioThreads[i]? with
  | none => none
  | some .done => none
  | some pc => some { s with
      audioThreads := s.audioThreads.set i (pc.next s.isPushingAudio)
      isPushingAudio := if pc = .clear then false else s.isPushingAudio }

/-- Where `stopAudio` returns to. -/
def audioReturn (inStop : Bool) : GuiPc := if inStop then .stopClear else .idle

def guiStep (s : State) : Option State :=
  match s.gui with
  | .idle | .returned | .gone => none
  | .pushSet => some { s with gui := .pushSpawn, isPushing := true }
  | .pushSpawn => some { s with
      gui := .idle
      pushThreads := s.pushThreads ++ [.connect]
      pushHandle := some s.pushThreads.length
      terminated := s.pushHandle.isSome }
  | .stopAudioTest =>
    if s.isPushingAudio then some { s with gui := .audioTest true }
    else some { s with gui := .stopClear }
  | .audioTest inStop =>
    if s.isPushingAudio then some { s with gui := .audioClear inStop }
    else some { s with gui := audioReturn inStop }
  | .audioClear inStop => some { s with gui := .audioJoin inStop, isPushingAudio := false }
  | .audioJoin inStop =>
    match s.audioHandle with
    | none => some { s with gui := audioReturn inStop }
    | some i =>
      if s.audioThreads[i]? = some .done then
        some { s with gui := audioReturn inStop, audioHandle := none }
      else none
  | .stopClear => some { s with gui := .stopWork, isPushing := false }
  | .stopWork => some { s with gui := .stopJoin, work := false }
  | .stopJoin =>
    match s.pushHandle with
    -- `stop` joins without a test for null
    | none => some { s with terminated := true }
    | some i =>
      if s.pushThreads[i]? = some .done then some { s with gui := .returned, pushHandle := none }
      else none
  | .openSet => some { s with gui := .openSpawn, isPushingAudio := true }
  | .openSpawn => some { s with
      gui := .idle
      audioThreads := s.audioThreads ++ [.test]
      audioHandle := some s.audioThreads.length
      terminated := s.audioHandle.isSome }

/-- The first test of a call. -/
def callStep (s : State) : Event → State
  | .push => { s with gui := if s.isPushing then .idle else .pushSet }
  | .stop => { s with gui := if s.isPushing then .stopAudioTest else .returned }
  | .openAudio => { s with gui := if s.isPushing then .openSet else .idle }
  | .stopAudio => { s with gui := .audioTest false }
  | .destroy => { s with gui := .gone, terminated := s.pushHandle.isSome || s.audioHandle.isSome }
  | _ => s

/-- A step; none from a process that is gone, and none that has to wait. -/
def step (s : State) : Event → Option State
  | .gui => if s.terminated then none else guiStep s
  | .pushThread i fails => if s.terminated then none else pushStep s i fails
  | .audioThread i => if s.terminated then none else audioStep s i
  | call => if s.terminated || !(s.gui == .idle || s.gui == .returned) then none
      else some (callStep s call)

def init : State := ⟨false, false, false, [], none, [], none, .idle, false⟩

/-- The steps behind which `stop` cleans up: the push thread does not clear
`is_pushing` while it is set, so has not ended by itself; audio is not opened while
it is open; the sender is not destroyed while it is pushing. -/
def EndsByStop (s : State) : Event → Prop
  | .pushThread i _ => s.pushThreads[i]? = some .clear → s.isPushing = false
  | .openAudio => s.isPushing = true → s.isPushingAudio = false
  | .destroy => s.isPushing = false
  | _ => True

/-! ## What a step does -/

theorem pushStep_cases {s t : State} {i : Nat} {fails : Bool} (h : pushStep s i fails = some t) :
    ∃ pc, s.pushThreads[i]? = some pc ∧ pc ≠ .done ∧
      t = { s with
        pushThreads := s.pushThreads.set i (pc.next s.isPushing fails)
        work := pc.work s.work
        isPushing := if pc = .clear then false else s.isPushing } := by
  unfold pushStep at h
  split at h
  · cases h
  · cases h
  · next pc hdone hi =>
    split at h
    · cases h
    · exact ⟨pc, hi, fun hpc => hdone hpc, (Option.some.inj h).symm⟩

theorem audioStep_cases {s t : State} {i : Nat} (h : audioStep s i = some t) :
    ∃ pc, s.audioThreads[i]? = some pc ∧ pc ≠ .done ∧
      t = { s with
        audioThreads := s.audioThreads.set i (pc.next s.isPushingAudio)
        isPushingAudio := if pc = .clear then false else s.isPushingAudio } := by
  unfold audioStep at h
  split at h
  · cases h
  · cases h
  · next pc hdone hi => exact ⟨pc, hi, fun hpc => hdone hpc, (Option.some.inj h).symm⟩

/-- A call is made by an idle GUI thread. -/
theorem step_cases {s t : State} {e : Event} (h : step s e = some t) :
    s.terminated = false ∧
    ((e = .gui ∧ guiStep s = some t) ∨
      (∃ i fails, e = .pushThread i fails ∧ pushStep s i fails = some t) ∨
      (∃ i, e = .audioThread i ∧ audioStep s i = some t) ∨
      ((s.gui = .idle ∨ s.gui = .returned) ∧ t = callStep s e)) := by
  have hcall : ∀ call, (if s.terminated || !(s.gui == .idle || s.gui == .returned) then none
      else some (callStep s call)) = some t →
      s.terminated = false ∧ (s.gui = .idle ∨ s.gui = .returned) ∧ t = callStep s call := by
    intro call hc
    split at hc
    · cases hc
    · next hidle =>
      simp only [Bool.or_eq_true, Bool.not_eq_true', not_or, Bool.not_eq_true,
        Bool.not_eq_false, beq_iff_eq] at hidle
      exact ⟨hidle.1, hidle.2, (Option.some.inj hc).symm⟩
  cases e with
  | gui =>
    simp only [step] at h
    split at h
    · cases h
    · next hterm => exact ⟨by simpa using hterm, .inl ⟨rfl, h⟩⟩
  | pushThread i fails =>
    simp only [step] at h
    split at h
    · cases h
    · next hterm => exact ⟨by simpa using hterm, .inr (.inl ⟨i, fails, rfl, h⟩)⟩
  | audioThread i =>
    simp only [step] at h
    split at h
    · cases h
    · next hterm => exact ⟨by simpa using hterm, .inr (.inr (.inl ⟨i, rfl, h⟩))⟩
  | push =>
    obtain ⟨hterm, hgui, ht⟩ := hcall .push h
    exact ⟨hterm, .inr (.inr (.inr ⟨hgui, ht⟩))⟩
  | stop =>
    obtain ⟨hterm, hgui, ht⟩ := hcall .stop h
    exact ⟨hterm, .inr (.inr (.inr ⟨hgui, ht⟩))⟩
  | openAudio =>
    obtain ⟨hterm, hgui, ht⟩ := hcall .openAudio h
    exact ⟨hterm, .inr (.inr (.inr ⟨hgui, ht⟩))⟩
  | stopAudio =>
    obtain ⟨hterm, hgui, ht⟩ := hcall .stopAudio h
    exact ⟨hterm, .inr (.inr (.inr ⟨hgui, ht⟩))⟩
  | destroy =>
    obtain ⟨hterm, hgui, ht⟩ := hcall .destroy h
    exact ⟨hterm, .inr (.inr (.inr ⟨hgui, ht⟩))⟩

/-! ## The invariant -/

/-- How `is_pushing` and the push handle go together where the GUI thread is. -/
def PushLinked (isPushing : Bool) (handle : Option Nat) : GuiPc → Prop
  | .idle | .audioTest false | .audioClear false | .audioJoin false => isPushing = handle.isSome
  | .returned | .pushSet => isPushing = false ∧ handle = none
  | .pushSpawn => isPushing = true ∧ handle = none
  | .stopAudioTest | .audioTest true | .audioClear true | .audioJoin true | .stopClear
  | .openSet | .openSpawn => isPushing = true ∧ handle ≠ none
  | .stopWork | .stopJoin => isPushing = false ∧ handle ≠ none
  | .gone => True

/-- How `is_pushing_audio` and the audio handle go together where the GUI thread is. -/
def AudioLinked (isPushing isPushingAudio : Bool) (handle : Option Nat) : GuiPc → Prop
  | .idle | .pushSet | .pushSpawn | .stopAudioTest | .audioTest _ | .audioClear _ =>
    isPushingAudio = handle.isSome ∧ (isPushingAudio = true → isPushing = true)
  | .audioJoin _ => isPushingAudio = false
  | .returned | .stopClear | .stopWork | .stopJoin | .openSet =>
    isPushingAudio = false ∧ handle = none
  | .openSpawn => isPushingAudio = true ∧ handle = none
  | .gone => True

structure Inv (s : State) : Prop where
  terminated : s.terminated = false
  pushOwned : Owned .done s.pushHandle s.pushThreads
  audioOwned : Owned .done s.audioHandle s.audioThreads
  /-- An audio thread leaves its loop only when it was told to. -/
  audioClear : ∀ i : Nat, s.audioThreads[i]? = some .clear → s.isPushingAudio = false
  push : PushLinked s.isPushing s.pushHandle s.gui
  audio : AudioLinked s.isPushing s.isPushingAudio s.audioHandle s.gui

theorem inv_init : Inv init where
  terminated := rfl
  pushOwned := allDone_nil.owned none
  audioOwned := allDone_nil.owned none
  audioClear i h := by simp [init] at h
  push := rfl
  audio := ⟨rfl, id⟩

theorem Inv.pushThread {s t : State} {i : Nat} {fails : Bool} (hs : Inv s)
    (hok : EndsByStop s (.pushThread i fails)) (h : pushStep s i fails = some t) : Inv t := by
  obtain ⟨pc, hi, hpc, rfl⟩ := pushStep_cases h
  have hflag : (if pc = .clear then false else s.isPushing) = s.isPushing := by
    split
    · next hclear => rw [hok (hclear ▸ hi)]
    · rfl
  refine ⟨hs.terminated, hs.pushOwned.set hi hpc _, hs.audioOwned, hs.audioClear, ?_, ?_⟩
  · dsimp only
    rw [hflag]
    exact hs.push
  · dsimp only
    rw [hflag]
    exact hs.audio

theorem Inv.audioThread {s t : State} {i : Nat} (hs : Inv s) (h : audioStep s i = some t) :
    Inv t := by
  obtain ⟨pc, hi, hpc, rfl⟩ := audioStep_cases h
  have hflag : (if pc = .clear then false else s.isPushingAudio) = s.isPushingAudio := by
    split
    · next hclear => rw [hs.audioClear i (hclear ▸ hi)]
    · rfl
  refine ⟨hs.terminated, hs.pushOwned, hs.audioOwned.set hi hpc _, ?_, hs.push, ?_⟩
  · intro j hj
    dsimp only at hj ⊢
    rw [hflag]
    by_cases hij : i = j
    · subst hij
      have hlt := (List.getElem?_eq_some_iff.mp hi).1
      rw [List.getElem?_set_self hlt, Option.some.injEq] at hj
      cases pc with
      | test =>
        simp only [AudioPc.next] at hj
        split at hj
        · cases hj
        · next hoff => simpa using hoff
      | work => cases hj
      | clear => cases hj
      | done => cases hj
    · rw [List.getElem?_set_ne hij] at hj
      exact hs.audioClear j hj
  · dsimp only
    rw [hflag]
    exact hs.audio

theorem Inv.call {s t : State} {e : Event} (hs : Inv s) (hgui : s.gui = .idle ∨ s.gui = .returned)
    (hok : EndsByStop s e) (ht : t = callStep s e) : Inv t := by
  obtain ⟨isPushing, isPushingAudio, work, pushThreads, pushHandle, audioThreads, audioHandle, gui,
    terminated⟩ := s
  obtain ⟨hterm, hpushOwned, haudioOwned, hclear, hpush, haudio⟩ := hs
  have hterm : terminated = false := hterm
  subst hterm ht
  -- a call behind `stop` finds what any idle GUI thread finds
  have hlink : isPushing = pushHandle.isSome ∧ isPushingAudio = audioHandle.isSome ∧
      (isPushingAudio = true → isPushing = true) := by
    rcases hgui with hgui | hgui
    · have hgui : gui = .idle := hgui
      subst hgui
      exact ⟨hpush, haudio⟩
    · have hgui : gui = .returned := hgui
      subst hgui
      obtain ⟨rfl, rfl⟩ : isPushing = false ∧ pushHandle = none := hpush
      obtain ⟨rfl, rfl⟩ : isPushingAudio = false ∧ audioHandle = none := haudio
      exact ⟨rfl, rfl, id⟩
  obtain ⟨hp, ha, himp⟩ := hlink
  have hsome : isPushing = true → pushHandle ≠ none := by
    intro hon hnone
    rw [hon, hnone] at hp
    cases hp
  have hnone : isPushing = false → pushHandle = none := by
    intro hoff
    rw [hoff] at hp
    exact Option.isSome_eq_false_iff.mp hp.symm |> Option.isNone_iff_eq_none.mp
  have hanone : isPushingAudio = false → audioHandle = none := by
    intro hoff
    rw [hoff] at ha
    exact Option.isSome_eq_false_iff.mp ha.symm |> Option.isNone_iff_eq_none.mp
  cases e with
  | push =>
    cases isPushing with
    | true => exact ⟨rfl, hpushOwned, haudioOwned, hclear, hp, ha, himp⟩
    | false => exact ⟨rfl, hpushOwned, haudioOwned, hclear, ⟨rfl, hnone rfl⟩, ha, himp⟩
  | stop =>
    cases isPushing with
    | true => exact ⟨rfl, hpushOwned, haudioOwned, hclear, ⟨rfl, hsome rfl⟩, ha, himp⟩
    | false =>
      have haudioOff : isPushingAudio = false := by
        cases isPushingAudio with
        | true => exact nomatch himp rfl
        | false => rfl
      exact ⟨rfl, hpushOwned, haudioOwned, hclear, ⟨rfl, hnone rfl⟩, haudioOff, hanone haudioOff⟩
  | openAudio =>
    cases isPushing with
    | true =>
      have haudioOff : isPushingAudio = false := hok rfl
      exact ⟨rfl, hpushOwned, haudioOwned, hclear, ⟨rfl, hsome rfl⟩, haudioOff, hanone haudioOff⟩
    | false => exact ⟨rfl, hpushOwned, haudioOwned, hclear, hp, ha, himp⟩
  | stopAudio => exact ⟨rfl, hpushOwned, haudioOwned, hclear, hp, ha, himp⟩
  | destroy =>
    have hoff : isPushing = false := hok
    have haudioOff : isPushingAudio = false := by
      cases isPushingAudio with
      | true => exact absurd ((himp rfl).symm.trans hoff) (by decide)
      | false => rfl
    refine ⟨?_, hpushOwned, haudioOwned, hclear, trivial, trivial⟩
    simp [callStep, hnone hoff, hanone haudioOff]
  | gui => exact ⟨rfl, hpushOwned, haudioOwned, hclear, hpush, haudio⟩
  | pushThread i fails => exact ⟨rfl, hpushOwned, haudioOwned, hclear, hpush, haudio⟩
  | audioThread i => exact ⟨rfl, hpushOwned, haudioOwned, hclear, hpush, haudio⟩

theorem Inv.gui {s t : State} (hs : Inv s) (h : guiStep s = some t) : Inv t := by
  obtain ⟨isPushing, isPushingAudio, work, pushThreads, pushHandle, audioThreads, audioHandle, gui,
    terminated⟩ := s
  obtain ⟨hterm, hpushOwned, haudioOwned, hclear, hpush, haudio⟩ := hs
  have hterm : terminated = false := hterm
  subst hterm
  cases gui with
  | idle => cases h
  | returned => cases h
  | gone => cases h
  | pushSet =>
    cases h
    obtain ⟨rfl, hnone⟩ : isPushing = false ∧ pushHandle = none := hpush
    obtain ⟨ha, _⟩ := haudio
    exact ⟨rfl, hpushOwned, haudioOwned, hclear, ⟨rfl, hnone⟩, ha, fun _ => rfl⟩
  | pushSpawn =>
    cases h
    obtain ⟨rfl, rfl⟩ : isPushing = true ∧ pushHandle = none := hpush
    exact ⟨rfl, hpushOwned.allDone.spawn _, haudioOwned, hclear, rfl, haudio⟩
  | stopAudioTest =>
    simp only [guiStep] at h
    split at h
    · cases h
      exact ⟨rfl, hpushOwned, haudioOwned, hclear, hpush, haudio⟩
    · next hoff =>
      cases h
      have hoff : isPushingAudio = false := by simpa using hoff
      refine ⟨rfl, hpushOwned, haudioOwned, hclear, hpush, hoff, ?_⟩
      have ha : isPushingAudio = audioHandle.isSome := haudio.1
      simpa [hoff] using ha
  | audioTest inStop =>
    simp only [guiStep] at h
    split at h
    · cases h
      cases inStop with
      | true => exact ⟨rfl, hpushOwned, haudioOwned, hclear, hpush, haudio⟩
      | false => exact ⟨rfl, hpushOwned, haudioOwned, hclear, hpush, haudio⟩
    · next hoff =>
      cases h
      have hoff : isPushingAudio = false := by simpa using hoff
      have ha : isPushingAudio = audioHandle.isSome := haudio.1
      have hnone : audioHandle = none := by simpa [hoff] using ha
      cases inStop with
      | true => exact ⟨rfl, hpushOwned, haudioOwned, hclear, hpush, hoff, hnone⟩
      | false => exact ⟨rfl, hpushOwned, haudioOwned, hclear, hpush, haudio⟩
  | audioClear inStop =>
    cases h
    cases inStop with
    | true => exact ⟨rfl, hpushOwned, haudioOwned, fun _ _ => rfl, hpush, rfl⟩
    | false => exact ⟨rfl, hpushOwned, haudioOwned, fun _ _ => rfl, hpush, rfl⟩
  | audioJoin inStop =>
    have hoff : isPushingAudio = false := haudio
    subst hoff
    cases audioHandle with
    | none =>
      cases h
      cases inStop with
      | true => exact ⟨rfl, hpushOwned, haudioOwned, hclear, hpush, rfl, rfl⟩
      | false => exact ⟨rfl, hpushOwned, haudioOwned, hclear, hpush, rfl, nofun⟩
    | some i =>
      simp only [guiStep] at h
      split at h
      · next hdone =>
        cases h
        have hall := (haudioOwned.allDone_of_done hdone).owned none
        cases inStop with
        | true => exact ⟨rfl, hpushOwned, hall, hclear, hpush, rfl, rfl⟩
        | false => exact ⟨rfl, hpushOwned, hall, hclear, hpush, rfl, nofun⟩
      · cases h
  | stopClear =>
    cases h
    obtain ⟨_, hsome⟩ : isPushing = true ∧ pushHandle ≠ none := hpush
    exact ⟨rfl, hpushOwned, haudioOwned, hclear, ⟨rfl, hsome⟩, haudio⟩
  | stopWork =>
    cases h
    exact ⟨rfl, hpushOwned, haudioOwned, hclear, hpush, haudio⟩
  | stopJoin =>
    obtain ⟨hoff, hsome⟩ : isPushing = false ∧ pushHandle ≠ none := hpush
    cases pushHandle with
    | none => exact absurd rfl hsome
    | some i =>
      simp only [guiStep] at h
      split at h
      · next hdone =>
        cases h
        have hall := (hpushOwned.allDone_of_done hdone).owned none
        exact ⟨rfl, hall, haudioOwned, hclear, ⟨hoff, rfl⟩, haudio⟩
      · cases h
  | openSet =>
    cases h
    obtain ⟨_, hnone⟩ : isPushingAudio = false ∧ audioHandle = none := haudio
    subst hnone
    -- no audio thread is running that the flag could surprise
    refine ⟨rfl, hpushOwned, haudioOwned, ?_, hpush, rfl, rfl⟩
    intro i hi
    exact (haudioOwned.allDone.absurd hi (by decide)).elim
  | openSpawn =>
    cases h
    obtain ⟨rfl, rfl⟩ : isPushingAudio = true ∧ audioHandle = none := haudio
    obtain ⟨hon, hsome⟩ : isPushing = true ∧ pushHandle ≠ none := hpush
    have hall := haudioOwned.allDone
    refine ⟨rfl, hpushOwned, hall.spawn _, ?_, ?_, rfl, fun _ => hon⟩
    · intro i hi
      rcases Nat.lt_or_ge i audioThreads.length with hlt | hge
      · rw [List.getElem?_append_left hlt] at hi
        exact (hall.absurd hi (by decide)).elim
      · rw [List.getElem?_append_right hge, List.getElem?_singleton] at hi
        split at hi
        · cases hi
        · cases hi
    · rw [hon]
      exact (Option.isSome_iff_ne_none.mpr hsome).symm

theorem Inv.step {s t : State} {e : Event} (hs : Inv s) (hok : EndsByStop s e)
    (h : step s e = some t) : Inv t := by
  obtain ⟨_, ⟨_, ht⟩ | ⟨i, fails, rfl, ht⟩ | ⟨i, _, ht⟩ | ⟨hgui, ht⟩⟩ := step_cases h
  · exact hs.gui ht
  · exact hs.pushThread hok ht
  · exact hs.audioThread ht
  · exact hs.call hgui hok ht

/-! ## Behind `stop` -/

/-- Behind every return of `stop` nothing runs and audio is off; no joinable handle
was overwritten or destroyed so far. -/
structure Safe (s : State) : Prop where
  terminated : s.terminated = false
  stopped : s.gui = .returned →
    AllDone .done s.pushThreads ∧ AllDone .done s.audioThreads ∧ s.isPushingAudio = false

theorem Inv.safe {s : State} (hs : Inv s) : Safe s := by
  refine ⟨hs.terminated, fun hgui => ?_⟩
  have hpush := hs.push
  have haudio := hs.audio
  rw [hgui] at hpush haudio
  obtain ⟨_, hnone⟩ := hpush
  obtain ⟨hoff, hanone⟩ := haudio
  exact ⟨(hnone ▸ hs.pushOwned).allDone, (hanone ▸ hs.audioOwned).allDone, hoff⟩

/-- A run in which the push thread ends only behind `stop`, audio is opened only
while it is closed and the sender is destroyed only while it is not pushing, is
safe. -/
theorem senderSafe_of_endsByStop {s : State} (h : Runs.Reach step EndsByStop init s) : Safe s :=
  (h.invariant inv_init fun _ _ _ hs hok hstep => Inv.step hs hok hstep).safe

/-- Pushing with sound, and stopping. -/
def pushAndStop : List Event :=
  [.push, .gui, .gui, .pushThread 0 false, .pushThread 0 false, .openAudio, .gui, .gui,
    .audioThread 0, .stop, .gui, .gui, .gui, .audioThread 0, .audioThread 0, .audioThread 0,
    .gui, .gui, .gui, .pushThread 0 false, .pushThread 0 false, .pushThread 0 false, .gui]

/-- Stopping a push that went well is safe. -/
theorem senderSafe_of_endsByStop_pushAndStop :
    ∃ s, Runs.exec step init pushAndStop = some s ∧ s.gui = .returned ∧ Safe s := by
  have hrun : ∃ s, Runs.exec step init pushAndStop = some s ∧ s.gui = .returned := ⟨_, rfl, rfl⟩
  obtain ⟨s, hexec, hgui⟩ := hrun
  -- only the last step of the push thread is the clearing, behind `stop`
  exact ⟨s, hexec, hgui, senderSafe_of_endsByStop (Runs.Reach.start.exec hexec
    ⟨trivial, trivial, trivial, nofun, nofun, fun _ => rfl, trivial, trivial, trivial, trivial,
      trivial, trivial, trivial, trivial, trivial, trivial, trivial, trivial, trivial,
      nofun, nofun, fun _ => rfl, trivial, trivial⟩)⟩

/-- The push fails to connect while audio is opened; then the user stops. -/
def failAndStop : List Event :=
  [.push, .gui, .gui, .openAudio, .gui, .gui, .pushThread 0 true, .pushThread 0 false,
    .pushThread 0 false, .stop]

/-- `stop` returns with the audio thread running. -/
theorem stop_leaves_audio : ¬ ∀ s, Runs.Reachable step init s → Safe s := by
  intro h
  have hrun : ∃ s, Runs.exec step init failAndStop = some s ∧ s.gui = .returned ∧
      s.isPushingAudio = true := ⟨_, rfl, rfl, rfl⟩
  obtain ⟨s, hexec, hgui, hon⟩ := hrun
  obtain ⟨_, _, hoff⟩ := (h s (Runs.reachable_of_exec hexec)).stopped hgui
  exact absurd (hon.symm.trans hoff) (by decide)

end MiniSurveillance.PushThreads
