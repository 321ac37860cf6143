import MiniSurveillance.Base.Runs
import MiniSurveillance.FlvPlayer

/-!
# A player and its threads

The GUI's commands, the rounds of the feed thread and the detached threads of
`step_by_seconds` act on one `FlvPlayer`. A session keeps the player with the
threads under way and every call of `handle_tag` made so far; an event that
cannot happen, or does not come back, has no next state.
-/

namespace MiniSurveillance
open Bytes

/-- Where the feed thread is: not running, before the head of `feed_task`, in its
loop, or ended by a division by zero. -/
inductive FeedThread
  | absent
  | started
  | looping
  | crashed
deriving DecidableEq, Repr

structure FlvSession where
  player : FlvPlayer
  feed : FeedThread
  /-- The seconds the detached threads of `step_by_seconds` still have to step by. -/
  stepThreads : List Int
  calls : List TagCall

namespace FlvSession

/-- A click in the GUI or a step of a thread. What the outside decides comes with
the event: the file behind a path, the effects of the callbacks, the fuel of the
loops in `step_by_frame`. -/
inductive Event
  | setFilePath (opened : Option (List UInt8))
  | start
  | stop
  | pause
  | stepOneFrameForward
  | stepOneFrameBackward (fuel : Nat)
  | stepBySeconds (sec : Int)
  | stepThread (sec : Int) (fuel : Nat)
  | feedBegin
  | feedRound (env : TagEffects)

/-- `sec * fps`, taken in `UINT32` and passed as an `int`. -/
def secondsToFrames (sec : Int) (fps : UInt32) : Int := toLong (sec * fps.toNat)

def start (s : FlvSession) : FlvSession :=
  { s with
    player := s.player.start
    feed := if s.player.isPlaying || s.player.fileFd.isNone then s.feed else .started }

/-- `stop` joins the feed thread. One that had not reached its loop still runs the
head of `feed_task`; one that crashed took the process with it. -/
def stop (s : FlvSession) : Option FlvSession :=
  if s.player.isPlaying then
    match s.feed with
    | .crashed => none
    | .started => some { s with player := s.player.feedBegin.stop, feed := .absent }
    | _ => some { s with player := s.player.stop, feed := .absent }
  else some s

def stepOneFrameForward (s : FlvSession) : FlvSession :=
  if s.player.isPlaying then
    { s with player := { s.player with isPause := true, stepOneFrame := true } }
  else s

def stepOneFrameBackward (fuel : Nat) (s : FlvSession) : Option FlvSession :=
  if s.player.isPlaying then do
    let p ← FlvPlayer.stepByFrame fuel { s.player with isPause := true } (-1)
    some { s with player := { p with stepOneFrame := true } }
  else some s

def stepBySeconds (sec : Int) (s : FlvSession) : FlvSession :=
  if s.player.isPlaying then
    { s with player := { s.player with isPause := true }, stepThreads := sec :: s.stepThreads }
  else s

/-- The body of a thread `step_by_seconds` detached. -/
def stepThread (sec : Int) (fuel : Nat) (s : FlvSession) : Option FlvSession :=
  if sec ∈ s.stepThreads then do
    let p ← FlvPlayer.stepByFrame fuel s.player (secondsToFrames sec s.player.fps)
    some { s with player := { p with isPause := false }, stepThreads := s.stepThreads.erase sec }
  else none

def feedBegin (s : FlvSession) : Option FlvSession :=
  if s.feed = .started then some { s with player := s.player.feedBegin, feed := .looping } else none

/-- A round of the feed loop. A thread that leaves the loop waits to be joined. -/
def feedRound (env : TagEffects) (s : FlvSession) : Option FlvSession :=
  if s.feed = .looping then
    match s.player.feedRound env with
    | .stopped => some s
    | .wait => some s
    | .header p => some { s with player := p }
    | .tag call p => some { s with player := p, calls := s.calls ++ [call] }
    | .crash call => some { s with feed := .crashed, calls := s.calls ++ [call] }
  else none

def step (s : FlvSession) : Event → Option FlvSession
  | .setFilePath opened => some { s with player := s.player.setFilePath opened }
  | .start => some s.start
  | .stop => s.stop
  | .pause => some { s with player := s.player.pause }
  | .stepOneFrameForward => some s.stepOneFrameForward
  | .stepOneFrameBackward fuel => s.stepOneFrameBackward fuel
  | .stepBySeconds sec => some (s.stepBySeconds sec)
  | .stepThread sec fuel => s.stepThread sec fuel
  | .feedBegin => s.feedBegin
  | .feedRound env => s.feedRound env

/-- A session over a player that was just made or used before, no thread running. -/
def init (p : FlvPlayer) : FlvSession := ⟨p, .absent, [], []⟩

/-! ## Steps of the feed thread -/

theorem feedBegin_of_some {s t : FlvSession} (h : s.feedBegin = some t) :
    s.feed = .started ∧ t = { s with player := s.player.feedBegin, feed := .looping } := by
  unfold feedBegin at h
  split at h
  · next hstarted => exact ⟨hstarted, (Option.some.inj h).symm⟩
  · cases h

/-- What a round of the feed loop makes of a session. -/
inductive Rounds (env : TagEffects) (s : FlvSession) : FlvSession → Prop
  | rests : Rounds env s s
  | header {q : FlvPlayer} : s.player.feedRound env = .header q →
      Rounds env s { s with player := q }
  | tag {call : TagCall} {q : FlvPlayer} : s.player.feedRound env = .tag call q →
      Rounds env s { s with player := q, calls := s.calls ++ [call] }
  | crash {call : TagCall} : s.player.feedRound env = .crash call →
      Rounds env s { s with feed := .crashed, calls := s.calls ++ [call] }

theorem feedRound_of_some {s t : FlvSession} {env : TagEffects}
    (h : s.feedRound env = some t) : s.feed = .looping ∧ Rounds env s t := by
  unfold feedRound at h
  split at h
  · next hloop =>
    refine ⟨hloop, ?_⟩
    split at h
    · obtain rfl := Option.some.inj h
      exact .rests
    · obtain rfl := Option.some.inj h
      exact .rests
    · next q hround =>
      obtain rfl := Option.some.inj h
      exact .header hround
    · next call q hround =>
      obtain rfl := Option.some.inj h
      exact .tag hround
    · next call hround =>
      obtain rfl := Option.some.inj h
      exact .crash hround
  · cases h

/-! ## What `stop` leaves -/

/-- `t` is `s` after `stop`: no step that is under way is ended. -/
structure Stopped (s t : FlvSession) : Prop where
  isPlaying : t.player.isPlaying = false
  needSleep : t.player.needSleep = s.player.needSleep
  isRegulating : t.player.isRegulating = s.player.isRegulating
  stepOneFrame : t.player.stepOneFrame = s.player.stepOneFrame
  fps : t.player.fps = s.player.fps
  stepThreads : t.stepThreads = s.stepThreads
  feed : t.feed = if s.player.isPlaying then .absent else s.feed

theorem stop_stopped {s t : FlvSession} (h : s.stop = some t) : Stopped s t := by
  unfold stop at h
  split at h
  · next hplaying =>
    have hstop (p : FlvPlayer) (hp : p.isPlaying = true) :
        p.stop = { p with isPlaying := false, isPause := false, fileFd := none } := if_pos hp
    split at h
    · cases h
    · obtain rfl := Option.some.inj h
      rw [hstop s.player.feedBegin hplaying]
      exact ⟨rfl, rfl, rfl, rfl, rfl, rfl, (if_pos hplaying).symm⟩
    · obtain rfl := Option.some.inj h
      rw [hstop s.player hplaying]
      exact ⟨rfl, rfl, rfl, rfl, rfl, rfl, (if_pos hplaying).symm⟩
  · next hidle =>
    obtain rfl := Option.some.inj h
    exact ⟨by simpa using hidle, rfl, rfl, rfl, rfl, rfl, (if_neg hidle).symm⟩

/-! ## What a step does to the calls -/

/-- Only a round of the feed loop calls `handle_tag`, and at most once. -/
theorem step_calls {s t : FlvSession} {e : Event} (h : step s e = some t) :
    t.calls = s.calls ∨
    ∃ env call, e = .feedRound env ∧ s.feed = .looping ∧ t.calls = s.calls ++ [call] ∧
      ((∃ p, s.player.feedRound env = .tag call p) ∨ s.player.feedRound env = .crash call) := by
  cases e with
  | setFilePath opened =>
    cases h
    exact .inl rfl
  | start =>
    cases h
    exact .inl rfl
  | stop =>
    simp only [step, stop] at h
    split at h
    · split at h
      · cases h
      · cases h
        exact .inl rfl
      · cases h
        exact .inl rfl
    · cases h
      exact .inl rfl
  | pause =>
    cases h
    exact .inl rfl
  | stepOneFrameForward =>
    cases h
    simp only [stepOneFrameForward]
    split
    · exact .inl rfl
    · exact .inl rfl
  | stepOneFrameBackward fuel =>
    simp only [step, stepOneFrameBackward] at h
    split at h
    · obtain ⟨p, _, ht⟩ := Option.bind_eq_some_iff.mp h
      cases ht
      exact .inl rfl
    · cases h
      exact .inl rfl
  | stepBySeconds sec =>
    cases h
    simp only [stepBySeconds]
    split
    · exact .inl rfl
    · exact .inl rfl
  | stepThread sec fuel =>
    simp only [step, stepThread] at h
    split at h
    · obtain ⟨p, _, ht⟩ := Option.bind_eq_some_iff.mp h
      cases ht
      exact .inl rfl
    · cases h
  | feedBegin =>
    obtain ⟨_, rfl⟩ := feedBegin_of_some h
    exact .inl rfl
  | feedRound env =>
    obtain ⟨hloop, hrounds⟩ := feedRound_of_some h
    cases hrounds with
    | rests => exact .inl rfl
    | header _ => exact .inl rfl
    | @tag call q hround => exact .inr ⟨env, call, rfl, hloop, rfl, .inl ⟨q, hround⟩⟩
    | @crash call hround => exact .inr ⟨env, call, rfl, hloop, rfl, .inr hround⟩

end FlvSession

end MiniSurveillance
