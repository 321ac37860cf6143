import MiniSurveillance.FlvControls
import MiniSurveillance.FlvSession

/-!
# The record page

The page keeps its own copies of `is_playing` and `is_pause` beside its play button,
and sets them by what its clicks should do. The player goes its own way where a
recording does not open, and where a thread of `step_by_seconds` ends and clears
`is_pause`.

* `synced_of_reach`: the runs in which the copies agree with the player whenever no
  such thread is pending.
* `recording_does_not_open`, `paused_while_stepping`: two runs in which they do not.
-/

namespace MiniSurveillance
open Runs

/-- The page with the player below it. `flv.stepThreads` are the threads of
`step_by_seconds` that have yet to walk. -/
structure RecordPage where
  flv : FlvSession
  /-- How many of them have walked and have yet to clear `is_pause`. -/
  walked : Nat := 0
  btnIsPlaying : Bool := false
  btnIsPause : Bool := false
  recordFileName : String := ""

namespace RecordPage

/-- `RecordCtrl::play`; `opened` is what `open` makes of the file. -/
def play (opened : Option (List UInt8)) (s : FlvSession) : FlvSession :=
  FlvSession.start { s with player := s.player.setFilePath opened }

def recordBtnPlayImpl (opened : Option (List UInt8)) (s : RecordPage) : RecordPage :=
  if s.btnIsPlaying = false then
    if s.recordFileName = "" then s
    else { s with flv := play opened s.flv, btnIsPlaying := true, btnIsPause := false }
  else
    { s with
      flv := { s.flv with player := s.flv.player.pause }
      btnIsPause := !s.btnIsPause }

/-- A device is clicked while the page is shown; `file` is its downloaded recording. -/
def onListItemClicked (file : String) (opened : Option (List UInt8)) (s : RecordPage) :
    RecordPage :=
  if file = "" then s else recordBtnPlayImpl opened { s with recordFileName := file }

def stopClicked (s : RecordPage) : Option RecordPage :=
  s.flv.stop.map fun flv => { s with flv := flv, btnIsPause := false, btnIsPlaying := false }

/-- The two buttons that step by five seconds. -/
def stepClicked (sec : Int) (s : RecordPage) : RecordPage :=
  { s with flv := s.flv.stepBySeconds sec, btnIsPause := false }

def oneFrameForwardClicked (s : RecordPage) : RecordPage :=
  { s with flv := s.flv.stepOneFrameForward, btnIsPause := true }

def oneFrameBackwardClicked (fuel : Nat) (s : RecordPage) : Option RecordPage :=
  (s.flv.stepOneFrameBackward fuel).map fun flv => { s with flv := flv, btnIsPause := true }

/-- A thread of `step_by_seconds` runs `step_by_frame`. -/
def stepThreadStarts (sec : Int) (fuel : Nat) (s : RecordPage) : Option RecordPage :=
  if sec ∈ s.flv.stepThreads then do
    let p ← FlvPlayer.stepByFrame fuel s.flv.player
      (FlvSession.secondsToFrames sec s.flv.player.fps)
    some { s with
      flv := { s.flv with player := p, stepThreads := s.flv.stepThreads.erase sec }
      walked := s.walked + 1 }
  else none

/-- A thread that has walked clears `is_pause` and ends. -/
def stepThreadCompletes (s : RecordPage) : Option RecordPage :=
  if 0 < s.walked then
    some { s with
      flv := { s.flv with player := { s.flv.player with isPause := false } }
      walked := s.walked - 1 }
  else none

inductive Event
  | listItemClicked (file : String) (opened : Option (List UInt8))
  | playClicked (opened : Option (List UInt8))
  | stopClicked
  | fastBackwardClicked
  | fastForwardClicked
  | oneFrameForwardClicked
  | oneFrameBackwardClicked (fuel : Nat)
  | stepThreadStarts (sec : Int) (fuel : Nat)
  | stepThreadCompletes
  | feedBegin
  | feedRound (env : TagEffects)

def step (s : RecordPage) : Event → Option RecordPage
  | .listItemClicked file opened => some (s.onListItemClicked file opened)
  | .playClicked opened => some (s.recordBtnPlayImpl opened)
  | .stopClicked => s.stopClicked
  | .fastBackwardClicked => some (s.stepClicked (-5))
  | .fastForwardClicked => some (s.stepClicked 5)
  | .oneFrameForwardClicked => some s.oneFrameForwardClicked
  | .oneFrameBackwardClicked fuel => s.oneFrameBackwardClicked fuel
  | .stepThreadStarts sec fuel => s.stepThreadStarts sec fuel
  | .stepThreadCompletes => s.stepThreadCompletes
  | .feedBegin => s.flv.feedBegin.map fun flv => { s with flv := flv }
  | .feedRound env => (s.flv.feedRound env).map fun flv => { s with flv := flv }

/-- The page over a player that was just made. -/
def init (p : FlvPlayer) : RecordPage := { flv := .init p }

/-! ## The copies of the page -/

/-- No thread of `step_by_seconds` is pending. -/
def Idle (s : RecordPage) : Prop := s.flv.stepThreads = [] ∧ s.walked = 0

/-- The copies of the page agree with the player. -/
structure Synced (s : RecordPage) : Prop where
  isPlaying : s.btnIsPlaying = s.flv.player.isPlaying
  isPause : s.flv.player.isPlaying = true → s.btnIsPause = s.flv.player.isPause

/-- A recording that is to be played opens, and when the last pending thread clears
`is_pause` the page does not say that the recording is paused. -/
def Keeps (s : RecordPage) : Event → Prop
  | .listItemClicked file opened => s.btnIsPlaying = false → file ≠ "" → opened.isSome
  | .playClicked opened => s.btnIsPlaying = false → s.recordFileName ≠ "" → opened.isSome
  | .stepThreadCompletes => s.flv.stepThreads = [] → s.walked = 1 → s.btnIsPlaying = true →
      s.btnIsPause = false
  | _ => True

instance (s : RecordPage) (e : Event) : Decidable (Keeps s e) := by
  cases e <;> unfold Keeps <;> infer_instance

/-- What such runs keep, also while a thread is pending. -/
structure Inv (s : RecordPage) : Prop where
  isPlaying : s.btnIsPlaying = s.flv.player.isPlaying
  isPause : Idle s → s.flv.player.isPlaying = true → s.btnIsPause = s.flv.player.isPause

theorem Inv.synced {s : RecordPage} (hs : Inv s) (hidle : Idle s) : Synced s :=
  ⟨hs.isPlaying, hs.isPause hidle⟩

/-- A player that is not playing starts when the recording opens. -/
theorem play_switches {s : FlvSession} (content : List UInt8) (h : s.player.isPlaying = false) :
    (play (some content) s).player.switches = (true, false) ∧
      (play (some content) s).stepThreads = s.stepThreads := by
  refine ⟨?_, rfl⟩
  simp [play, FlvSession.start, FlvPlayer.setFilePath, FlvPlayer.start, h, FlvPlayer.switches]

theorem recordBtnPlayImpl_inv {s : RecordPage} {opened : Option (List UInt8)} (hs : Inv s)
    (hopens : s.btnIsPlaying = false → s.recordFileName ≠ "" → opened.isSome) :
    Inv (s.recordBtnPlayImpl opened) := by
  unfold recordBtnPlayImpl
  split
  · next hbtn =>
    split
    · exact hs
    · next hname =>
      obtain ⟨content, rfl⟩ := Option.isSome_iff_exists.mp (hopens hbtn hname)
      obtain ⟨hswitches, _⟩ := play_switches content (hs.isPlaying.symm.trans hbtn)
      obtain ⟨hplaying, hpause⟩ := Prod.mk.inj hswitches
      exact ⟨hplaying.symm, fun _ _ => hpause.symm⟩
  · exact ⟨hs.isPlaying, fun hidle hplaying => congrArg (! ·) (hs.isPause hidle hplaying)⟩

theorem stopClicked_inv {s t : RecordPage} (h : s.stopClicked = some t) : Inv t := by
  obtain ⟨flv, hflv, rfl⟩ := Option.map_eq_some_iff.mp h
  have hstopped := (FlvSession.stop_stopped hflv).isPlaying
  refine ⟨hstopped.symm, fun _ hplaying => ?_⟩
  have hplaying : flv.player.isPlaying = true := hplaying
  rw [hstopped] at hplaying
  cases hplaying

/-- A step by seconds of a recording that plays leaves a thread pending. -/
theorem stepClicked_inv {s : RecordPage} (sec : Int) (hs : Inv s) : Inv (s.stepClicked sec) := by
  unfold stepClicked FlvSession.stepBySeconds
  split
  · exact ⟨hs.isPlaying, fun hidle => absurd hidle.1 (by simp)⟩
  · next hstopped => exact ⟨hs.isPlaying, fun _ hplaying => absurd hplaying hstopped⟩

theorem oneFrameForwardClicked_inv {s : RecordPage} (hs : Inv s) :
    Inv s.oneFrameForwardClicked := by
  unfold oneFrameForwardClicked FlvSession.stepOneFrameForward
  split
  · exact ⟨hs.isPlaying, fun _ _ => rfl⟩
  · next hstopped => exact ⟨hs.isPlaying, fun _ hplaying => absurd hplaying hstopped⟩

theorem oneFrameBackwardClicked_inv {s t : RecordPage} {fuel : Nat} (hs : Inv s)
    (h : s.oneFrameBackwardClicked fuel = some t) : Inv t := by
  obtain ⟨flv, hflv, rfl⟩ := Option.map_eq_some_iff.mp h
  unfold FlvSession.stepOneFrameBackward at hflv
  split at hflv
  · obtain ⟨q, hq, hflv⟩ := Option.bind_eq_some_iff.mp hflv
    obtain rfl := Option.some.inj hflv
    have hwalk := FlvPlayer.stepByFrame_controls hq
    exact ⟨hs.isPlaying.trans hwalk.isPlaying.symm, fun _ _ => hwalk.isPause.symm⟩
  · next hstopped =>
    obtain rfl := Option.some.inj hflv
    exact ⟨hs.isPlaying, fun _ hplaying => absurd hplaying hstopped⟩

theorem stepThreadStarts_inv {s t : RecordPage} {sec : Int} {fuel : Nat} (hs : Inv s)
    (h : s.stepThreadStarts sec fuel = some t) : Inv t := by
  unfold stepThreadStarts at h
  split at h
  · obtain ⟨q, hq, h⟩ := Option.bind_eq_some_iff.mp h
    obtain rfl := Option.some.inj h
    have hwalk := FlvPlayer.stepByFrame_controls hq
    exact ⟨hs.isPlaying.trans hwalk.isPlaying.symm, fun hidle =>
      absurd hidle.2 (Nat.succ_ne_zero _)⟩
  · cases h

/-- The last thread to end decides whether the player is paused. -/
theorem stepThreadCompletes_inv {s t : RecordPage} (hs : Inv s)
    (hkeeps : Keeps s .stepThreadCompletes) (h : s.stepThreadCompletes = some t) : Inv t := by
  unfold stepThreadCompletes at h
  split at h
  · next hwalked =>
    obtain rfl := Option.some.inj h
    refine ⟨hs.isPlaying, fun hidle hplaying => ?_⟩
    have hlast : s.walked - 1 = 0 := hidle.2
    exact hkeeps hidle.1 (by omega) (hs.isPlaying.trans hplaying)
  · cases h

/-- A step of the feed thread. -/
theorem feed_inv {s : RecordPage} {flv : FlvSession} (hs : Inv s)
    (hswitches : flv.player.switches = s.flv.player.switches)
    (hthreads : flv.stepThreads = s.flv.stepThreads) : Inv { s with flv := flv } := by
  obtain ⟨hplaying, hpause⟩ := Prod.mk.inj hswitches
  refine ⟨hs.isPlaying.trans hplaying.symm, fun hidle hon => ?_⟩
  have hbefore : Idle s := ⟨hthreads ▸ hidle.1, hidle.2⟩
  exact (hs.isPause hbefore (hplaying ▸ hon)).trans hpause.symm

theorem feedBegin_inv {s : RecordPage} {flv : FlvSession} (hs : Inv s)
    (h : s.flv.feedBegin = some flv) : Inv { s with flv := flv } := by
  obtain ⟨_, rfl⟩ := FlvSession.feedBegin_of_some h
  exact feed_inv hs rfl rfl

theorem feedRound_inv {s : RecordPage} {flv : FlvSession} {env : TagEffects} (hs : Inv s)
    (h : s.flv.feedRound env = some flv) : Inv { s with flv := flv } := by
  obtain ⟨_, hrounds⟩ := FlvSession.feedRound_of_some h
  cases hrounds with
  | rests => exact hs
  | header hround => exact feed_inv hs (FlvPlayer.feedRound_switches (.inl hround)) rfl
  | @tag call q hround =>
    exact feed_inv hs (FlvPlayer.feedRound_switches (.inr ⟨call, hround⟩)) rfl
  | crash _ => exact feed_inv hs rfl rfl

theorem step_inv {s t : RecordPage} {e : Event} (hs : Inv s) (hkeeps : Keeps s e)
    (h : step s e = some t) : Inv t := by
  cases e with
  | listItemClicked file opened =>
    obtain rfl := Option.some.inj h
    unfold onListItemClicked
    split
    · exact hs
    · next hfile =>
      exact recordBtnPlayImpl_inv ⟨hs.isPlaying, hs.isPause⟩ fun hbtn _ => hkeeps hbtn hfile
  | playClicked opened =>
    obtain rfl := Option.some.inj h
    exact recordBtnPlayImpl_inv hs hkeeps
  | stopClicked => exact stopClicked_inv h
  | fastBackwardClicked =>
    obtain rfl := Option.some.inj h
    exact stepClicked_inv (-5) hs
  | fastForwardClicked =>
    obtain rfl := Option.some.inj h
    exact stepClicked_inv 5 hs
  | oneFrameForwardClicked =>
    obtain rfl := Option.some.inj h
    exact oneFrameForwardClicked_inv hs
  | oneFrameBackwardClicked fuel => exact oneFrameBackwardClicked_inv hs h
  | stepThreadStarts sec fuel => exact stepThreadStarts_inv hs h
  | stepThreadCompletes => exact stepThreadCompletes_inv hs hkeeps h
  | feedBegin =>
    obtain ⟨flv, hflv, rfl⟩ := Option.map_eq_some_iff.mp h
    exact feedBegin_inv hs hflv
  | feedRound env =>
    obtain ⟨flv, hflv, rfl⟩ := Option.map_eq_some_iff.mp h
    exact feedRound_inv hs hflv

/-- In every run whose steps meet `Keeps`, the copies agree with the player whenever no
thread is pending. -/
theorem synced_of_reach {p : FlvPlayer} {s : RecordPage} (hp : p.Constructed)
    (h : Reach step Keeps (init p) s) (hidle : Idle s) : Synced s := by
  have hinv : Inv s := h.invariant
    ⟨hp.isPlaying.symm, fun _ hplaying => absurd (hp.isPlaying.symm.trans hplaying) (by decide)⟩
    fun s e t hs hkeeps hstep => step_inv hs hkeeps hstep
  exact hinv.synced hidle

/-! ## Three runs -/

/-- A player that was just made. -/
def fresh : FlvPlayer := { FlvPlayer.opened [] with fileFd := none }

theorem fresh_constructed : fresh.Constructed := ⟨rfl, rfl, rfl, rfl, rfl, rfl⟩

/-- A recording of one key frame is clicked, its header is read, and the button for five
seconds ahead is clicked. -/
def steppedAhead : List Event :=
  [.listItemClicked "record.flv" (some (recording [FlvPlayer.keyFrameSegment])), .feedBegin,
    .feedRound ⟨[], id⟩, .fastForwardClicked]

/-- The thread comes back with nothing clicked meanwhile. -/
theorem synced_of_reach_steppedAhead :
    ∃ s, exec step (init fresh) (steppedAhead ++ [.stepThreadStarts 5 3, .stepThreadCompletes]) =
      some s ∧ Synced s := by
  have hrun : ∃ s, exec step (init fresh)
      (steppedAhead ++ [.stepThreadStarts 5 3, .stepThreadCompletes]) = some s ∧
      s.flv.stepThreads = [] ∧ s.walked = 0 := ⟨_, rfl, rfl, rfl⟩
  obtain ⟨s, hexec, hthreads, hwalked⟩ := hrun
  exact ⟨s, hexec, synced_of_reach fresh_constructed (Reach.start.exec hexec (by decide))
    ⟨hthreads, hwalked⟩⟩

/-- The recording does not open: the page says that it plays. -/
theorem recording_does_not_open :
    ∃ s, Reachable step (init fresh) s ∧ Idle s ∧ ¬ Synced s := by
  have hrun : ∃ s, exec step (init fresh) [.listItemClicked "record.flv" none] = some s ∧
      Idle s ∧ s.btnIsPlaying = true ∧ s.flv.player.isPlaying = false :=
    ⟨_, rfl, ⟨rfl, rfl⟩, rfl, rfl⟩
  obtain ⟨s, hexec, hidle, hbtn, hstopped⟩ := hrun
  refine ⟨s, reachable_of_exec hexec, hidle, fun hsynced => ?_⟩
  rw [hsynced.isPlaying, hstopped] at hbtn
  cases hbtn

/-- The recording is paused while the thread walks: the thread clears `is_pause`, and the
page still says that it is paused. -/
theorem paused_while_stepping :
    ∃ s, Reachable step (init fresh) s ∧ Idle s ∧ ¬ Synced s := by
  have hrun : ∃ s, exec step (init fresh) (steppedAhead ++
      [.stepThreadStarts 5 3, .playClicked none, .stepThreadCompletes]) = some s ∧ Idle s ∧
      s.flv.player.isPlaying = true ∧ s.btnIsPause = true ∧ s.flv.player.isPause = false :=
    ⟨_, rfl, ⟨rfl, rfl⟩, rfl, rfl, rfl⟩
  obtain ⟨s, hexec, hidle, hplaying, hbtn, hpause⟩ := hrun
  refine ⟨s, reachable_of_exec hexec, hidle, fun hsynced => ?_⟩
  rw [hsynced.isPause hplaying, hpause] at hbtn
  cases hbtn

end RecordPage

end MiniSurveillance
