import MiniSurveillance.Base.Traces
import MiniSurveillance.FlvAbreast

/-!
# Another recording on the same player

`stop` closes the file and joins the feed thread. What a step left behind stays:
`is_regulating`, `step_one_frame`, `need_sleep` and the threads of `step_by_seconds`. So do
`fps`, the cursor and the buffers, which the constructor does not set either.
`AsNew ok p t` says that another recording on the player in `t` shows what it shows on the
new player `p`, whatever is clicked and however the threads run, as long as the events meet
`ok`. Those that meet `Settled` read nothing that the recording itself has not set.

* `follows_step`: alike sessions take the same settled steps and show the same.
* `reach_feedIdle`: a player that does not play has no feed thread.
* `asNew_of_leavesNothing`: a player with nothing left behind is as good as any new one.
-/

namespace MiniSurveillance
open Runs Bytes

/-- A session in which a thread of `step_by_seconds` takes two steps: it walks, and it
clears `is_pause`. `flv.stepThreads` are those that have yet to walk. -/
structure FlvReplay where
  flv : FlvSession
  /-- How many threads have walked and have yet to clear `is_pause`. -/
  walked : Nat := 0

namespace FlvReplay
open FlvPlayer (Alike Abreast SameRound feedRound_alike)

/-- The commands of the GUI. -/
inductive Command
  | setFilePath (opened : Option (List UInt8))
  | start
  | stop
  | pause
  | stepOneFrameForward
  | stepOneFrameBackward
  | stepBySeconds (sec : Int)

/-- The fuel is for the loops of `step_by_frame`. -/
def Command.event (fuel : Nat) : Command → FlvSession.Event
  | setFilePath opened => .setFilePath opened
  | start => .start
  | stop => .stop
  | pause => .pause
  | stepOneFrameForward => .stepOneFrameForward
  | stepOneFrameBackward => .stepOneFrameBackward fuel
  | stepBySeconds sec => .stepBySeconds sec

inductive Event
  | command (c : Command) (fuel : Nat)
  | stepThreadStarts (sec : Int) (fuel : Nat)
  | stepThreadCompletes
  | feedBegin
  | feedRound (env : TagEffects)

def stepThreadStarts (sec : Int) (fuel : Nat) (s : FlvReplay) : Option FlvReplay :=
  if sec ∈ s.flv.stepThreads then do
    let p ← FlvPlayer.stepByFrame fuel s.flv.player
      (FlvSession.secondsToFrames sec s.flv.player.fps)
    some {
      flv := { s.flv with player := p, stepThreads := s.flv.stepThreads.erase sec }
      walked := s.walked + 1 }
  else none

def stepThreadCompletes (s : FlvReplay) : Option FlvReplay :=
  if 0 < s.walked then
    some {
      flv := { s.flv with player := { s.flv.player with isPause := false } }
      walked := s.walked - 1 }
  else none

/-- A division by zero takes the whole process with it. -/
def step (s : FlvReplay) (e : Event) : Option FlvReplay :=
  if s.flv.feed = .crashed then none
  else match e with
    | .command c fuel => (FlvSession.step s.flv (c.event fuel)).map fun flv => { s with flv := flv }
    | .stepThreadStarts sec fuel => s.stepThreadStarts sec fuel
    | .stepThreadCompletes => s.stepThreadCompletes
    | .feedBegin => s.flv.feedBegin.map fun flv => { s with flv := flv }
    | .feedRound env => (s.flv.feedRound env).map fun flv => { s with flv := flv }

/-- What a step makes of a session. -/
inductive Steps (s : FlvReplay) : Event → FlvReplay → Prop
  | command {c : Command} {fuel : Nat} {flv : FlvSession} :
      FlvSession.step s.flv (c.event fuel) = some flv → Steps s (.command c fuel) { s with flv }
  | starts {sec : Int} {fuel : Nat} {p : FlvPlayer} : sec ∈ s.flv.stepThreads →
      FlvPlayer.stepByFrame fuel s.flv.player (FlvSession.secondsToFrames sec s.flv.player.fps) =
        some p →
      Steps s (.stepThreadStarts sec fuel) {
        flv := { s.flv with player := p, stepThreads := s.flv.stepThreads.erase sec }
        walked := s.walked + 1 }
  | completes : 0 < s.walked →
      Steps s .stepThreadCompletes {
        flv := { s.flv with player := { s.flv.player with isPause := false } }
        walked := s.walked - 1 }
  | begins : s.flv.feed = .started →
      Steps s .feedBegin {
        s with flv := { s.flv with player := s.flv.player.feedBegin, feed := .looping } }
  | rounds {env : TagEffects} {flv : FlvSession} : s.flv.feed = .looping →
      FlvSession.Rounds env s.flv flv → Steps s (.feedRound env) { s with flv }

theorem steps_of_some {s t : FlvReplay} {e : Event} (h : step s e = some t) : Steps s e t := by
  unfold step at h
  split at h
  · cases h
  cases e with
  | command c fuel =>
    obtain ⟨flv, hflv, rfl⟩ := Option.map_eq_some_iff.mp h
    exact .command hflv
  | stepThreadStarts sec fuel =>
    dsimp only [stepThreadStarts] at h
    split at h
    · next hsec =>
      obtain ⟨p, hp, h⟩ := Option.bind_eq_some_iff.mp h
      obtain rfl := Option.some.inj h
      exact .starts hsec hp
    · cases h
  | stepThreadCompletes =>
    dsimp only [stepThreadCompletes] at h
    split at h
    · next hwalked =>
      obtain rfl := Option.some.inj h
      exact .completes hwalked
    · cases h
  | feedBegin =>
    obtain ⟨flv, hflv, rfl⟩ := Option.map_eq_some_iff.mp h
    obtain ⟨hstarted, rfl⟩ := FlvSession.feedBegin_of_some hflv
    exact .begins hstarted
  | feedRound env =>
    obtain ⟨flv, hflv, rfl⟩ := Option.map_eq_some_iff.mp h
    obtain ⟨hloop, hrounds⟩ := FlvSession.feedRound_of_some hflv
    exact .rounds hloop hrounds

/-- Seen from outside are the commands, and the callbacks with what they do in turn. -/
inductive Seen
  | command (c : Command)
  | callbacks (env : TagEffects) (calls : Callbacks)

/-- A call of `handle_tag` in which no callback is called is not seen. -/
def seenCall (env : TagEffects) (call : TagCall) : List Seen :=
  if call.callbacks.nalus = [] ∧ call.callbacks.audios = [] then []
  else [.callbacks env call.callbacks]

def seen (s : FlvReplay) : Event → List Seen
  | .command c _ => [.command c]
  | .feedRound env =>
    if s.flv.feed = .looping then
      match s.flv.player.feedRound env with
      | .tag call _ => seenCall env call
      | .crash call => seenCall env call
      | _ => []
    else []
  | _ => []

/-- The session over a player that was just made. -/
def init (p : FlvPlayer) : FlvReplay := { flv := .init p }

/-- `set_file_path(f)` and `start()`; `opened` is what `open` makes of the path. -/
def play (opened : Option (List UInt8)) (s : FlvReplay) : FlvReplay :=
  { s with flv := FlvSession.start { s.flv with player := s.flv.player.setFilePath opened } }

/-- No step left anything behind: none is under way, no thread is pending, and a sleep
that is due has a rate. -/
structure LeavesNothing (s : FlvReplay) : Prop where
  isRegulating : s.flv.player.isRegulating = false
  stepOneFrame : s.flv.player.stepOneFrame = false
  stepThreads : s.flv.stepThreads = []
  walked : s.walked = 0
  rate : s.flv.player.needSleep = true → s.flv.player.fps ≠ 0

/-! ## Settled events -/

/-- A round that hands a tag on and goes on behind it. -/
def handles : FlvPlayer.FeedRound → Bool
  | .tag _ _ => true
  | _ => false

/-- A session, and whether a frame that was handed on in it has set `fps`. -/
structure Watched where
  replay : FlvReplay
  rateSet : Bool := false

namespace Watched

abbrev flv (s : Watched) : FlvSession := s.replay.flv

/-- A frame sets `fps`. -/
def setsRate (s : Watched) : Event → Bool
  | .feedRound env => handles (s.flv.player.feedRound env) && !env.sleeps.isEmpty
  | _ => false

def step (s : Watched) (e : Event) : Option Watched :=
  (s.replay.step e).map fun replay => { replay, rateSet := s.rateSet || s.setsRate e }

def seen (s : Watched) (e : Event) : List Seen := s.replay.seen e

/-- A walk starts while the feed thread loops, and its way is not cut off. A thread of
`step_by_seconds` walks behind the first frame that has set `fps`. A round reaches a whole
tag, and its callbacks leave the two bytes in front of what they are given. -/
def Settled (s : Watched) : Event → Prop
  | .command .stepOneFrameBackward _ => s.flv.player.isPlaying = true →
    s.flv.feed = .looping ∧ FlvPlayer.KeepsWay { s.flv.player with isPause := true } (-1)
  | .stepThreadStarts sec _ => s.rateSet = true ∧ s.flv.feed = .looping ∧
    s.flv.player.KeepsWay (FlvSession.secondsToFrames sec s.flv.player.fps)
  | .feedRound env => env.KeepsHead ∧ s.flv.player.WholeTag
  | _ => True

end Watched

/-- Whatever file is played next, the player in `t` shows what the new player `p` shows. -/
def AsNew (ok : Watched → Event → Prop) (p : FlvPlayer) (t : FlvReplay) : Prop :=
  ∀ opened, Traces Watched.step ok Watched.seen ⟨play opened t, false⟩ =
    Traces Watched.step ok Watched.seen ⟨play opened (init p), false⟩

/-! ## Commands -/

/-- What a command leaves as it is: it reports no rate, only `step_by_seconds` starts a thread,
the process does not end, and a player that does not play has no feed thread. -/
structure Commanded (c : Command) (s t : FlvSession) : Prop where
  needSleep : t.player.needSleep = s.player.needSleep
  fps : t.player.fps = s.player.fps
  stepThreads : (∀ sec, c ≠ .stepBySeconds sec) → t.stepThreads = s.stepThreads
  process : s.feed ≠ .crashed → t.feed ≠ .crashed
  idle : (s.player.isPlaying = false → s.feed = .absent) →
    t.player.isPlaying = false → t.feed = .absent

theorem Commanded.same {c : Command} {s t : FlvSession}
    (hplaying : t.player.isPlaying = s.player.isPlaying)
    (hneed : t.player.needSleep = s.player.needSleep)
    (hfps : t.player.fps = s.player.fps) (hfeed : t.feed = s.feed)
    (hthreads : (∀ sec, c ≠ .stepBySeconds sec) → t.stepThreads = s.stepThreads) :
    Commanded c s t :=
  ⟨hneed, hfps, hthreads, fun hs => by rwa [hfeed], fun hs => by rwa [hplaying, hfeed]⟩

theorem setFilePath_eq (opened : Option (List UInt8)) (p : FlvPlayer) :
    p.setFilePath opened = { p with
      fileFd := if p.isPlaying then p.fileFd else opened.map fun content => ⟨content, 0⟩ } := by
  unfold FlvPlayer.setFilePath
  split
  · rfl
  · rfl

theorem commanded {s t : FlvSession} {c : Command} {fuel : Nat}
    (h : FlvSession.step s (c.event fuel) = some t) : Commanded c s t := by
  cases c with
  | setFilePath opened =>
    obtain rfl := Option.some.inj h
    have hset := setFilePath_eq opened s.player
    have hplaying := congrArg FlvPlayer.isPlaying hset
    have hneed := congrArg FlvPlayer.needSleep hset
    have hfps := congrArg FlvPlayer.fps hset
    exact .same hplaying hneed hfps rfl fun _ => rfl
  | start =>
    obtain rfl := Option.some.inj h
    unfold FlvSession.start FlvPlayer.start
    split
    · exact .same rfl rfl rfl rfl fun _ => rfl
    · exact ⟨rfl, rfl, fun _ => rfl, fun _ => nofun, fun _ => nofun⟩
  | stop =>
    have hstop := FlvSession.stop_stopped h
    refine ⟨hstop.needSleep, hstop.fps, fun _ => hstop.stepThreads, fun hs => ?_, fun hs _ => ?_⟩
    · rw [hstop.feed]
      split
      · exact nofun
      · exact hs
    · rw [hstop.feed]
      split
      · rfl
      · next hoff => exact hs (by simpa using hoff)
  | pause =>
    obtain rfl := Option.some.inj h
    exact .same rfl rfl rfl rfl fun _ => rfl
  | stepOneFrameForward =>
    obtain rfl := Option.some.inj h
    unfold FlvSession.stepOneFrameForward
    split
    · exact .same rfl rfl rfl rfl fun _ => rfl
    · exact .same rfl rfl rfl rfl fun _ => rfl
  | stepOneFrameBackward =>
    dsimp only [Command.event, FlvSession.step, FlvSession.stepOneFrameBackward] at h
    split at h
    · obtain ⟨p, hp, h⟩ := Option.bind_eq_some_iff.mp h
      obtain rfl := Option.some.inj h
      have hwalk := FlvPlayer.stepByFrame_controls hp
      exact .same hwalk.isPlaying hwalk.needSleep hwalk.fps rfl fun _ => rfl
    · obtain rfl := Option.some.inj h
      exact .same rfl rfl rfl rfl fun _ => rfl
  | stepBySeconds sec =>
    obtain rfl := Option.some.inj h
    unfold FlvSession.stepBySeconds
    split
    · exact .same rfl rfl rfl rfl fun hne => absurd rfl (hne sec)
    · exact .same rfl rfl rfl rfl fun _ => rfl

/-! ## Alike sessions -/

/-- The sessions differ in the calls so far, and in what alike players differ in. -/
structure AlikeSession (s t : FlvSession) : Prop where
  player : Alike s.player t.player
  feed : t.feed = s.feed
  stepThreads : t.stepThreads = s.stepThreads
  cursor : s.feed = .looping →
    t.player.curIdx = s.player.curIdx ∧ t.player.totalBytes = s.player.totalBytes

theorem AlikeSession.abreast {s t : FlvSession} (h : AlikeSession s t)
    (hloop : s.feed = .looping) : Abreast s.player t.player :=
  ⟨h.player, (h.cursor hloop).1, (h.cursor hloop).2⟩

theorem AlikeSession.symm {s t : FlvSession} (h : AlikeSession s t) : AlikeSession t s :=
  ⟨h.player.symm, h.feed.symm, h.stepThreads.symm, fun hloop =>
    ⟨(h.cursor (h.feed.symm.trans hloop)).1.symm, (h.cursor (h.feed.symm.trans hloop)).2.symm⟩⟩

/-- A command does the same to alike sessions. -/
theorem AlikeSession.command {s t s' : FlvSession} (h : AlikeSession s t) {c : Command}
    {fuel : Nat}
    (hway : c = .stepOneFrameBackward → s.player.isPlaying = true → s.feed = .looping ∧
      FlvPlayer.KeepsWay { s.player with isPause := true } (-1))
    (hs : FlvSession.step s (c.event fuel) = some s') :
    ∃ t', FlvSession.step t (c.event fuel) = some t' ∧ AlikeSession s' t' := by
  have habreast := h.abreast
  obtain ⟨hplayer, hfeed, hthreads, hcursor⟩ := h
  have hplaying := hplayer.isPlaying
  cases c with
  | setFilePath opened =>
    obtain rfl := Option.some.inj hs
    refine ⟨_, rfl, hplayer.setFilePath opened, hfeed, hthreads, fun hloop => ?_⟩
    show (t.player.setFilePath opened).curIdx = (s.player.setFilePath opened).curIdx ∧
      (t.player.setFilePath opened).totalBytes = (s.player.setFilePath opened).totalBytes
    rw [setFilePath_eq, setFilePath_eq]
    exact hcursor hloop
  | start =>
    obtain rfl := Option.some.inj hs
    refine ⟨_, rfl, hplayer.start, ?_, hthreads, fun hloop => ?_⟩
    · simp only [FlvSession.start, hplaying, hplayer.fileFd, hfeed]
    · -- a player that starts does not loop yet
      unfold FlvSession.start at hloop
      dsimp only at hloop
      split at hloop
      · next hno =>
        unfold FlvSession.start FlvPlayer.start
        dsimp only
        rw [if_pos hno, if_pos (by rwa [hplaying, hplayer.fileFd])]
        exact hcursor hloop
      · cases hloop
  | stop =>
    simp only [Command.event, FlvSession.step, FlvSession.stop, hplaying, hfeed] at hs ⊢
    split at hs
    · next hon =>
      rw [if_pos hon]
      split at hs
      · cases hs
      · obtain rfl := Option.some.inj hs
        exact ⟨_, rfl, hplayer.feedBegin.stop, rfl, hthreads, fun hloop => by cases hloop⟩
      · obtain rfl := Option.some.inj hs
        exact ⟨_, rfl, hplayer.stop, rfl, hthreads, fun hloop => by cases hloop⟩
    · next hoff =>
      obtain rfl := Option.some.inj hs
      exact ⟨t, if_neg hoff, hplayer, hfeed, hthreads, hcursor⟩
  | pause =>
    obtain rfl := Option.some.inj hs
    exact ⟨_, rfl, hplayer.pause, hfeed, hthreads, hcursor⟩
  | stepOneFrameForward =>
    obtain rfl := Option.some.inj hs
    refine ⟨_, rfl, ?_⟩
    unfold FlvSession.stepOneFrameForward
    rw [hplaying]
    split
    · exact ⟨(hplayer.setPause true).setStepOneFrame true, hfeed, hthreads, hcursor⟩
    · exact ⟨hplayer, hfeed, hthreads, hcursor⟩
  | stepOneFrameBackward =>
    dsimp only [Command.event, FlvSession.step, FlvSession.stepOneFrameBackward] at hs ⊢
    split at hs
    · next hon =>
      obtain ⟨p, hp, hs⟩ := Option.bind_eq_some_iff.mp hs
      obtain rfl := Option.some.inj hs
      obtain ⟨hloop, hway⟩ := hway rfl hon
      have hboth : Abreast { s.player with isPause := true } { t.player with isPause := true } :=
        { habreast hloop with isPause := fun _ => rfl }
      have hwalk := FlvPlayer.stepByFrame_abreast hboth hway fuel
      rw [hp] at hwalk
      rw [if_pos (hplaying.trans hon)]
      generalize FlvPlayer.stepByFrame fuel { t.player with isPause := true } (-1) = o at hwalk ⊢
      cases hwalk with
      | @some _ q hpq =>
        exact ⟨_, rfl, hpq.setStepOneFrame true, hfeed, hthreads,
          fun _ => ⟨hpq.curIdx, hpq.totalBytes⟩⟩
    · next hoff =>
      obtain rfl := Option.some.inj hs
      exact ⟨t, if_neg (hplaying ▸ hoff), hplayer, hfeed, hthreads, hcursor⟩
  | stepBySeconds sec =>
    obtain rfl := Option.some.inj hs
    refine ⟨_, rfl, ?_⟩
    unfold FlvSession.stepBySeconds
    rw [hplaying]
    split
    · exact ⟨hplayer.setPause true, hfeed, congrArg (sec :: ·) hthreads, hcursor⟩
    · exact ⟨hplayer, hfeed, hthreads, hcursor⟩

/-! ## One step of two sessions -/

/-- The sessions are alike, as many threads have yet to clear `is_pause`, and a rate that was
set in the one was set in the other. -/
structure Follows (s t : Watched) : Prop where
  flv : AlikeSession s.flv t.flv
  walked : t.replay.walked = s.replay.walked
  rateSet : t.rateSet = s.rateSet
  fps : s.rateSet = true → t.flv.player.fps = s.flv.player.fps

theorem Follows.symm {s t : Watched} (h : Follows s t) : Follows t s :=
  ⟨h.flv.symm, h.walked.symm, h.rateSet.symm, fun hset => (h.fps (h.rateSet.symm.trans hset)).symm⟩

theorem Follows.settled {s t : Watched} (h : Follows s t) {e : Event} (hok : s.Settled e)
    (hround : ∀ env, e = .feedRound env → s.flv.feed = .looping) : t.Settled e := by
  cases e with
  | command c fuel =>
    cases c with
    | stepOneFrameBackward =>
      intro hon
      obtain ⟨hloop, hway⟩ := hok (h.flv.player.isPlaying.symm.trans hon)
      have hboth : Abreast { s.flv.player with isPause := true }
          { t.flv.player with isPause := true } :=
        { h.flv.abreast hloop with isPause := fun _ => rfl }
      exact ⟨h.flv.feed.trans hloop, hboth.keepsWay hway⟩
    | setFilePath _ => trivial
    | start => trivial
    | stop => trivial
    | pause => trivial
    | stepOneFrameForward => trivial
    | stepBySeconds _ => trivial
  | stepThreadStarts sec fuel =>
    obtain ⟨hset, hloop, hway⟩ := hok
    refine ⟨h.rateSet.trans hset, h.flv.feed.trans hloop, ?_⟩
    rw [h.fps hset]
    exact (h.flv.abreast hloop).keepsWay hway
  | stepThreadCompletes => trivial
  | feedBegin => trivial
  | feedRound env =>
    exact ⟨hok.1, (h.flv.abreast (hround env rfl)).wholeTag hok.2⟩

theorem seenCall_congr {env : TagEffects} {call call' : TagCall}
    (h : call'.callbacks = call.callbacks) : seenCall env call' = seenCall env call := by
  rw [seenCall, seenCall, h]

theorem countTag_fps (p : FlvPlayer) : p.countTag.fps = p.fps := by
  cases hreg : p.isRegulating with
  | true =>
    rw [FlvPlayer.countTag_regulating hreg]
    split
    · rfl
    · rfl
  | false =>
    rw [FlvPlayer.countTag_single hreg]
    split
    · rfl
    · rfl

/-- Behind a round `fps` is the last rate that its callbacks report. -/
theorem feedRound_fps {env : TagEffects} {p q : FlvPlayer} :
    (p.feedRound env = .header q → q.fps = p.fps) ∧
    ∀ call, p.feedRound env = .tag call q → q.fps = env.sleeps.getLast?.getD p.fps := by
  rcases FlvPlayer.feedRound_cases env p with hround | hround | ⟨r, hround, hmoved⟩ |
    ⟨r, call, hround, hmoved, _⟩
  · simp [hround]
  · simp [hround]
  · rw [hround]
    refine ⟨fun h => ?_, nofun⟩
    obtain rfl := FlvPlayer.FeedRound.header.inj h
    exact hmoved.fps
  · rw [hround]
    refine ⟨fun h => absurd h (FlvPlayer.finishTag_ne_header _ _ _), fun c h => ?_⟩
    rcases FlvPlayer.finishTag_cases call (r.handleTag env) with ⟨_, hcrash⟩ | ⟨u, hu, htag⟩
    · cases hcrash.symm.trans h
    · obtain ⟨_, rfl⟩ := FlvPlayer.FeedRound.tag.inj (htag.symm.trans h)
      obtain ⟨_, rfl⟩ := FlvPlayer.sleepBehindTag_of hu
      show (FlvPlayer.countTag _).fps = _
      rw [countTag_fps, FlvPlayer.handleTag_eq, hmoved.fps]

/-- A settled round of a session is a settled round of an alike one, and shows the same. -/
theorem Follows.feedRound {s t : Watched} (h : Follows s t) {env : TagEffects} {flv : FlvSession}
    (hok : s.Settled (.feedRound env)) (hs : s.flv.feedRound env = some flv) :
    ∃ flv', t.flv.feedRound env = some flv' ∧ t.seen (.feedRound env) = s.seen (.feedRound env) ∧
      Follows ⟨{ s.replay with flv }, s.rateSet || s.setsRate (.feedRound env)⟩
        ⟨{ t.replay with flv := flv' }, t.rateSet || t.setsRate (.feedRound env)⟩ := by
  obtain ⟨hloop, _⟩ := FlvSession.feedRound_of_some hs
  have hround := feedRound_alike (h.flv.abreast hloop) hok.2 hok.1
  have hfps := @feedRound_fps env s.flv.player
  have hfps' := @feedRound_fps env t.flv.player
  obtain ⟨⟨hplayer, hfeed, hthreads, hcursor⟩, hwalked, hset, hrate⟩ := h
  have hloop' := hfeed.trans hloop
  dsimp only [FlvSession.feedRound, Watched.seen, seen, Watched.setsRate] at hs ⊢
  rw [if_pos hloop] at hs ⊢
  rw [if_pos hloop', if_pos hloop', hset]
  generalize s.flv.player.feedRound env = x at hs hround hfps ⊢
  generalize t.flv.player.feedRound env = y at hround hfps' ⊢
  cases hround with
  | stopped =>
    obtain rfl := Option.some.inj hs
    refine ⟨t.flv, rfl, rfl, ⟨hplayer, hfeed, hthreads, hcursor⟩, hwalked, rfl, fun hon => ?_⟩
    exact hrate (by simpa [handles] using hon)
  | wait =>
    obtain rfl := Option.some.inj hs
    refine ⟨t.flv, rfl, rfl, ⟨hplayer, hfeed, hthreads, hcursor⟩, hwalked, rfl, fun hon => ?_⟩
    exact hrate (by simpa [handles] using hon)
  | header hpq =>
    obtain rfl := Option.some.inj hs
    refine ⟨_, rfl, rfl, ⟨hpq.toAlike, hfeed, hthreads, fun _ => ⟨hpq.curIdx, hpq.totalBytes⟩⟩,
      hwalked, rfl, fun hon => ?_⟩
    have hon := hrate (by simpa [handles] using hon)
    exact (hfps'.1 rfl).trans (hon.trans (hfps.1 rfl).symm)
  | @tag call call' p q hcall hpq =>
    obtain rfl := Option.some.inj hs
    refine ⟨_, rfl, seenCall_congr hcall, ⟨hpq.toAlike, hfeed, hthreads,
      fun _ => ⟨hpq.curIdx, hpq.totalBytes⟩⟩, hwalked, rfl, fun hon => ?_⟩
    show q.fps = p.fps
    rw [hfps.2 call rfl, hfps'.2 call' rfl]
    -- the last rate reported, or the one that was set before
    cases hlast : env.sleeps.getLast? with
    | some fps => rfl
    | none =>
      rw [List.getLast?_eq_none_iff.mp hlast] at hon
      exact hrate (by simpa [handles] using hon)
  | crash hcall =>
    obtain rfl := Option.some.inj hs
    refine ⟨_, rfl, seenCall_congr hcall, ⟨hplayer, rfl, hthreads, nofun⟩, hwalked, rfl,
      fun hon => ?_⟩
    exact hrate (by simpa [handles] using hon)

/-- A settled step of a session is a settled step of an alike one, and shows the same. -/
theorem follows_step (s t : Watched) (e : Event) (s' : Watched) (h : Follows s t)
    (hok : s.Settled e) (hs : s.step e = some s') :
    ∃ t', t.step e = some t' ∧ t.Settled e ∧ t.seen e = s.seen e ∧ Follows s' t' := by
  obtain ⟨r, hr, rfl⟩ := Option.map_eq_some_iff.mp hs
  have hprocess : ¬ t.flv.feed = .crashed := by
    rw [h.flv.feed]
    intro hcrashed
    cases (if_pos hcrashed).symm.trans hr
  have hstep {e : Event} {r : FlvReplay} (hr : t.replay.step e = some r) :
      t.step e = some ⟨r, t.rateSet || t.setsRate e⟩ := by
    rw [Watched.step, hr]
    rfl
  have hsettled := h.settled hok
  obtain ⟨hplayer, hfeed, hthreads, hcursor⟩ := h.flv
  cases steps_of_some hr with
  | @command c fuel flv hflv =>
    obtain ⟨flv', hflv', halike⟩ := h.flv.command (by rintro rfl hon; exact hok hon) hflv
    have hr' : t.replay.step (.command c fuel) = some { t.replay with flv := flv' } :=
      (if_neg hprocess).trans (Option.map_eq_some_iff.mpr ⟨flv', hflv', rfl⟩)
    refine ⟨_, hstep hr', hsettled nofun, rfl, halike, h.walked, ?_, fun hon => ?_⟩
    · exact congrArg (· || false) h.rateSet
    · have hset : s.rateSet = true := by simpa [Watched.setsRate] using hon
      exact (commanded hflv').fps.trans ((h.fps hset).trans (commanded hflv).fps.symm)
  | @starts sec fuel p hsec hp =>
    obtain ⟨hset, hloop, hway⟩ := hok
    have hwalk := FlvPlayer.stepByFrame_abreast (h.flv.abreast hloop) hway fuel
    rw [hp] at hwalk
    have hfps := h.fps hset
    generalize hq : FlvPlayer.stepByFrame fuel t.flv.player _ = o at hwalk
    cases hwalk with
    | @some _ q hpq =>
      have hr' : t.replay.step (.stepThreadStarts sec fuel) = some {
          flv := { t.flv with player := q, stepThreads := t.flv.stepThreads.erase sec }
          walked := t.replay.walked + 1 } := by
        refine (if_neg hprocess).trans ?_
        dsimp only [stepThreadStarts]
        rw [if_pos (hthreads ▸ hsec), hfps, hq]
        rfl
      refine ⟨_, hstep hr', hsettled nofun, rfl, ⟨hpq.toAlike, hfeed, ?_,
        fun _ => ⟨hpq.curIdx, hpq.totalBytes⟩⟩, congrArg (· + 1) h.walked,
        congrArg (· || false) h.rateSet, fun _ => ?_⟩
      · exact congrArg (·.erase sec) hthreads
      · exact (FlvPlayer.stepByFrame_controls hq).fps.trans
          (hfps.trans (FlvPlayer.stepByFrame_controls hp).fps.symm)
  | completes hwalked =>
    have hr' : t.replay.step .stepThreadCompletes = some {
        flv := { t.flv with player := { t.flv.player with isPause := false } }
        walked := t.replay.walked - 1 } :=
      (if_neg hprocess).trans (if_pos (h.walked ▸ hwalked))
    refine ⟨_, hstep hr', hsettled nofun, rfl, ⟨hplayer.setPause false, hfeed, hthreads, hcursor⟩,
      congrArg (· - 1) h.walked, congrArg (· || false) h.rateSet, fun hon => ?_⟩
    exact h.fps (by simpa [Watched.setsRate] using hon)
  | begins hstarted =>
    have hbegin := hplayer.feedBegin
    have hr' : t.replay.step .feedBegin = some { t.replay with
        flv := { t.flv with player := t.flv.player.feedBegin, feed := .looping } } := by
      refine (if_neg hprocess).trans (Option.map_eq_some_iff.mpr ⟨_, ?_, rfl⟩)
      exact if_pos (hfeed.trans hstarted)
    refine ⟨_, hstep hr', hsettled nofun, rfl, ⟨hbegin.toAlike, rfl, hthreads,
      fun _ => ⟨hbegin.curIdx, hbegin.totalBytes⟩⟩, h.walked, congrArg (· || false) h.rateSet,
      fun hon => ?_⟩
    exact h.fps (by simpa [Watched.setsRate] using hon)
  | @rounds env flv hloop hrounds =>
    obtain ⟨flv₀, hflv, heq⟩ := Option.map_eq_some_iff.mp
      ((if_neg (by rw [hloop]; decide)).symm.trans hr)
    obtain rfl : flv₀ = flv := congrArg FlvReplay.flv heq
    obtain ⟨flv', hflv', hseen, hfollows⟩ := h.feedRound hok hflv
    have hr' : t.replay.step (.feedRound env) = some { t.replay with flv := flv' } :=
      (if_neg hprocess).trans (Option.map_eq_some_iff.mpr ⟨flv', hflv', rfl⟩)
    exact ⟨_, hstep hr', hsettled fun _ _ => hloop, hseen, hfollows⟩

/-- Alike sessions show the same. -/
theorem Follows.traces_eq {s t : Watched} (h : Follows s t) :
    Traces Watched.step Watched.Settled Watched.seen s =
      Traces Watched.step Watched.Settled Watched.seen t :=
  Set.Subset.antisymm (Traces.subset follows_step h) (Traces.subset follows_step h.symm)

/-! ## A player that is stopped -/

/-- The feed thread runs while the player plays. -/
def FeedIdle (s : FlvReplay) : Prop := s.flv.player.isPlaying = false → s.flv.feed = .absent

theorem step_feedIdle {s t : FlvReplay} {e : Event} (hs : FeedIdle s) (h : step s e = some t) :
    FeedIdle t := by
  cases steps_of_some h with
  | command hflv => exact (commanded hflv).idle hs
  | starts _ hp =>
    have hwalk := FlvPlayer.stepByFrame_controls hp
    exact fun hplaying => hs (hwalk.isPlaying.symm.trans hplaying)
  | completes _ => exact hs
  | begins hstarted =>
    intro hplaying
    cases hstarted.symm.trans (hs hplaying)
  | rounds hloop hrounds =>
    -- the thread loops, so the player plays, before the round and after it
    have hplaying : s.flv.player.isPlaying = true := by
      cases hon : s.flv.player.isPlaying with
      | true => rfl
      | false => cases hloop.symm.trans (hs hon)
    have hidle {flv : FlvSession} (hon : flv.player.isPlaying = s.flv.player.isPlaying) :
        FeedIdle { s with flv } := fun hoff => by
      cases (hon.trans hplaying).symm.trans hoff
    cases hrounds with
    | rests => exact hs
    | header hround => exact hidle (Prod.mk.inj (FlvPlayer.feedRound_switches (.inl hround))).1
    | @tag call q hround =>
      exact hidle (Prod.mk.inj (FlvPlayer.feedRound_switches (.inr ⟨call, hround⟩))).1
    | crash _ => exact hidle rfl

theorem reach_feedIdle {p : FlvPlayer} {s : FlvReplay} (h : Reachable step (init p) s) :
    FeedIdle s :=
  h.invariant (fun _ => rfl) fun _ _ _ hs _ hstep => step_feedIdle hs hstep

/-- `stop` ends the feed thread, and nothing else that is under way. -/
theorem stop_stopped {s t : FlvReplay} {fuel : Nat} (h : step s (.command .stop fuel) = some t) :
    FlvSession.Stopped s.flv t.flv ∧ t.walked = s.walked := by
  cases steps_of_some h with
  | command hflv => exact ⟨FlvSession.stop_stopped hflv, rfl⟩

theorem leavesNothing_stop_iff {s t : FlvReplay} {fuel : Nat}
    (h : step s (.command .stop fuel) = some t) : LeavesNothing t ↔ LeavesNothing s := by
  obtain ⟨hstop, hwalked⟩ := stop_stopped h
  constructor
  · intro h
    refine ⟨hstop.isRegulating.symm.trans h.isRegulating,
      hstop.stepOneFrame.symm.trans h.stepOneFrame, hstop.stepThreads.symm.trans h.stepThreads,
      hwalked.symm.trans h.walked, ?_⟩
    rw [← hstop.needSleep, ← hstop.fps]
    exact h.rate
  · intro h
    refine ⟨hstop.isRegulating.trans h.isRegulating, hstop.stepOneFrame.trans h.stepOneFrame,
      hstop.stepThreads.trans h.stepThreads, hwalked.trans h.walked, ?_⟩
    rw [hstop.needSleep, hstop.fps]
    exact h.rate

/-! ## Nothing left behind -/

/-- A new player has nothing left behind. -/
theorem leavesNothing_new {p : FlvPlayer} (hp : p.Constructed) : LeavesNothing (init p) :=
  ⟨hp.isRegulating, hp.stepOneFrame, rfl, rfl, fun hneed => by cases hp.needSleep.symm.trans hneed⟩

/-- With nothing left behind, players that play the same file are alike. -/
theorem LeavesNothing.follows {s t : FlvReplay} (hs : LeavesNothing s) (ht : LeavesNothing t)
    (hstopped : s.flv.player.isPlaying = false) (hstopped' : t.flv.player.isPlaying = false)
    (hfeed : s.flv.feed = .absent) (hfeed' : t.flv.feed = .absent)
    (opened : Option (List UInt8)) :
    Follows ⟨play opened s, false⟩ ⟨play opened t, false⟩ := by
  have hset {t : FlvReplay} (hstopped : t.flv.player.isPlaying = false) :
      t.flv.player.setFilePath opened =
        { t.flv.player with fileFd := opened.map fun content => ⟨content, 0⟩ } :=
    if_neg (by rw [hstopped]; decide)
  have hrate {t : FlvReplay} (ht : LeavesNothing t) : t.flv.player.pendingRate ≠ some 0 := by
    unfold FlvPlayer.pendingRate
    split
    · next hneed => exact fun hzero => ht.rate hneed (Option.some.inj hzero)
    · exact nofun
  have halike : Alike (s.flv.player.setFilePath opened) (t.flv.player.setFilePath opened) := by
    rw [hset hstopped, hset hstopped']
    refine ⟨rfl, hstopped'.trans hstopped.symm, ht.isRegulating.trans hs.isRegulating.symm,
      ht.stepOneFrame.trans hs.stepOneFrame.symm, iff_of_false (hrate ht) (hrate hs),
      fun hon => ?_, fun hon => ?_, fun hon => ?_⟩
    · cases hstopped.symm.trans hon
    · cases hstopped.symm.trans hon
    · cases hs.isRegulating.symm.trans hon
  refine ⟨⟨halike.start, ?_, ht.stepThreads.trans hs.stepThreads.symm, fun hloop => ?_⟩,
    ht.walked.trans hs.walked.symm, rfl, nofun⟩
  · show (FlvSession.start _).feed = (FlvSession.start _).feed
    unfold FlvSession.start
    dsimp only
    rw [halike.isPlaying, halike.fileFd, hfeed, hfeed']
  · -- the feed thread of a player that starts has not begun
    have hloop : (FlvSession.start { s.flv with
        player := s.flv.player.setFilePath opened }).feed = .looping := hloop
    unfold FlvSession.start at hloop
    dsimp only at hloop
    rw [hfeed] at hloop
    split at hloop
    · cases hloop
    · cases hloop

/-- A stopped player with nothing left behind is as good as any new one. -/
theorem asNew_of_leavesNothing {p : FlvPlayer} (hp : p.Constructed) {t : FlvReplay}
    (h : LeavesNothing t) (hstopped : t.flv.player.isPlaying = false)
    (hfeed : t.flv.feed = .absent) : AsNew Watched.Settled p t := fun opened =>
  (h.follows (leavesNothing_new hp) hstopped hp.isPlaying hfeed rfl opened).traces_eq

end FlvReplay

end MiniSurveillance
