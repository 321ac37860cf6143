import MiniSurveillance.FlvLeftBehind

/-!
# The rate a recording is played at

The callback for a decoded frame sets `fps` and `need_sleep`. `feed_task` divides by `fps`
behind the tag, and a thread of `step_by_seconds` multiplies by it before it waits for
`file_mutex`. No rate is checked, and none is taken back when another file is opened.

* `paced_iff`: what keeps a rate for every sleep that is due and every thread that is pending.
* `sound_of_keepsRate`: with that, nothing is divided by zero and no other rate is used.
-/

namespace MiniSurveillance
open Runs

namespace FlvPlayer

/-! ## A round and the rate -/

theorem SameControls.pendingRate {p q : FlvPlayer} (h : SameControls p q) :
    q.pendingRate = p.pendingRate := by
  rw [FlvPlayer.pendingRate, FlvPlayer.pendingRate, h.needSleep, h.fps]

/-- What a round makes of the rate that the next sleep divides by. -/
theorem feedRound_rate (env : TagEffects) (p : FlvPlayer) :
    match feedRound env p with
    | .header q => q.pendingRate = p.pendingRate
    | .tag _ q => q.pendingRate = some 0 ↔ rate env p = some 0
    | .crash _ => rate env p = some 0
    | _ => True := by
  rcases feedRound_cases env p with hround | hround | ⟨q, hround, hmoved⟩ |
    ⟨r, call, hround, hmoved, _⟩
  · rw [hround]
    trivial
  · rw [hround]
    trivial
  · rw [hround]
    exact hmoved.pendingRate
  · have hrate : (r.handleTag env).pendingRate = rate env p := by
      rw [handleTag_pendingRate, rate, rate, hmoved.pendingRate]
    rcases finishTag_cases call (r.handleTag env) with ⟨hnone, hfinish⟩ | ⟨q, hq, hfinish⟩
    · rw [hround, hfinish]
      exact hrate.symm.trans (pendingRate_of_none hnone).1
    · rw [hround, hfinish]
      have hcount := (countTag_frame q).2
      show q.countTag.pendingRate = some 0 ↔ _
      rw [hcount, pendingRate_of_some hq, hrate]

/-- A rate of zero comes from a frame, unless it was there before. -/
theorem rate_eq_zero_iff (env : TagEffects) {p : FlvPlayer} (h : p.pendingRate ≠ some 0) :
    rate env p = some 0 ↔ env.sleeps.getLast? = some 0 := by
  unfold rate
  cases env.sleeps.getLast? with
  | none => simpa using h
  | some fps => simp

end FlvPlayer

/-- A session in which a thread of `step_by_seconds` takes three steps: it reads `fps`, it walks,
and it clears `is_pause`. `replay.flv.stepThreads` are those that have yet to read. -/
structure FlvPacing where
  replay : FlvReplay
  /-- The frames to walk by, of each thread that has read `fps` and has yet to walk. -/
  counts : List Int := []
  /-- A decoded frame of the current recording has set `fps`. -/
  rateSet : Bool := false

namespace FlvPacing
open FlvReplay (Command)

abbrev player (s : FlvPacing) : FlvPlayer := s.replay.flv.player

/-- In a round `own` tells whether a frame of the current recording is shown: the decoder may
still hold one of the recording before. -/
inductive Event
  | command (c : Command) (fuel : Nat)
  | stepThreadReads (sec : Int)
  | stepThreadWalks (count : Int) (fuel : Nat)
  | stepThreadCompletes
  | feedBegin
  | feedRound (env : TagEffects) (own : Bool)

/-- A player that does not play takes another file. -/
def takesFile (s : FlvPacing) : Command → Bool
  | .setFilePath _ => !s.player.isPlaying
  | _ => false

/-- The rates of the frames that a round shows. -/
def rates (env : TagEffects) (s : FlvPacing) : List UInt32 :=
  match s.player.feedRound env with
  | .tag _ _ => env.sleeps
  | .crash _ => env.sleeps
  | _ => []

/-- `sec * fps`, the argument of `step_by_frame`. -/
def stepThreadReads (sec : Int) (s : FlvPacing) : Option FlvPacing :=
  if sec ∈ s.replay.flv.stepThreads then
    some { s with
      replay.flv.stepThreads := s.replay.flv.stepThreads.erase sec
      counts := FlvSession.secondsToFrames sec s.player.fps :: s.counts }
  else none

def stepThreadWalks (count : Int) (fuel : Nat) (s : FlvPacing) : Option FlvPacing :=
  if count ∈ s.counts then do
    let p ← FlvPlayer.stepByFrame fuel s.player count
    some { s with
      replay := { flv := { s.replay.flv with player := p }, walked := s.replay.walked + 1 }
      counts := s.counts.erase count }
  else none

def step (s : FlvPacing) (e : Event) : Option FlvPacing :=
  if s.replay.flv.feed = .crashed then none
  else match e with
    | .command c fuel => (s.replay.step (.command c fuel)).map fun replay =>
        { s with replay, rateSet := s.rateSet && !s.takesFile c }
    | .stepThreadReads sec => s.stepThreadReads sec
    | .stepThreadWalks count fuel => s.stepThreadWalks count fuel
    | .stepThreadCompletes => (s.replay.step .stepThreadCompletes).map fun replay =>
        { s with replay }
    | .feedBegin => (s.replay.step .feedBegin).map fun replay => { s with replay }
    | .feedRound env own => (s.replay.step (.feedRound env)).map fun replay =>
        { s with replay, rateSet := s.rateSet || own && !(s.rates env).isEmpty }

/-- The session over a player that was just made. -/
def init (p : FlvPlayer) : FlvPacing := { replay := .init p }

/-- The sleep behind a tag does not divide by zero, and a thread of `step_by_seconds` reads a
rate that a frame of the current recording has set. -/
def Sound (s : FlvPacing) : Event → Prop
  | .feedRound env _ => ∀ call, s.player.feedRound env ≠ .crash call
  | .stepThreadReads _ => s.rateSet = true
  | _ => True

/-- No frame reports a rate of zero, unless the next frame of its tag reports another. While a
recording plays, `step_by_seconds` is clicked behind its first frame. No file is taken before
every thread of `step_by_seconds` has read. -/
def KeepsRate (s : FlvPacing) : Event → Prop
  | .feedRound env _ => (s.rates env).getLast? ≠ some 0
  | .command (.stepBySeconds _) _ => s.player.isPlaying = true → s.rateSet = true
  | .command (.setFilePath _) _ => s.player.isPlaying = false → s.replay.flv.stepThreads = []
  | _ => True

instance (s : FlvPacing) : ∀ e, Decidable (KeepsRate s e)
  | .feedRound _ _ => inferInstanceAs (Decidable (_ ≠ _))
  | .command (.stepBySeconds _) _ => inferInstanceAs (Decidable (_ → _))
  | .command (.setFilePath _) _ => inferInstanceAs (Decidable (_ → _))
  | .command .start _ => .isTrue trivial
  | .command .stop _ => .isTrue trivial
  | .command .pause _ => .isTrue trivial
  | .command .stepOneFrameForward _ => .isTrue trivial
  | .command .stepOneFrameBackward _ => .isTrue trivial
  | .stepThreadReads _ => .isTrue trivial
  | .stepThreadWalks _ _ => .isTrue trivial
  | .stepThreadCompletes => .isTrue trivial
  | .feedBegin => .isTrue trivial

/-! ## What keeps a rate -/

/-- A sleep that is due has a rate other than zero, and so has had every thread that is
pending a frame of its recording. -/
structure Paced (s : FlvPacing) : Prop where
  process : s.replay.flv.feed ≠ .crashed
  rate : s.player.pendingRate ≠ some 0
  threads : s.replay.flv.stepThreads ≠ [] → s.rateSet = true

/-- A command neither reports a rate nor divides by one; only `step_by_seconds` starts a
thread. -/
theorem command_rate {s t : FlvSession} {c : Command} {fuel : Nat} (hfeed : s.feed ≠ .crashed)
    (h : FlvSession.step s (c.event fuel) = some t) :
    t.feed ≠ .crashed ∧ t.player.pendingRate = s.player.pendingRate ∧
      ((∀ sec, c ≠ .stepBySeconds sec) → t.stepThreads = s.stepThreads) := by
  obtain ⟨hneed, hfps, hthreads, hprocess, _⟩ := FlvReplay.commanded h
  refine ⟨hprocess hfeed, ?_, hthreads⟩
  rw [FlvPlayer.pendingRate, FlvPlayer.pendingRate, hneed, hfps]

theorem paced_init {p : FlvPlayer} (hp : p.Constructed) : Paced (init p) where
  process := nofun
  rate := by
    show p.pendingRate ≠ some 0
    simp [FlvPlayer.pendingRate, hp.needSleep]
  threads := fun hne => absurd rfl hne

theorem command_paced {s : FlvPacing} {c : Command} {fuel : Nat} {flv : FlvSession}
    (hs : Paced s) (h : FlvSession.step s.replay.flv (c.event fuel) = some flv) :
    Paced { s with replay.flv := flv, rateSet := s.rateSet && !s.takesFile c } ↔
      KeepsRate s (.command c fuel) := by
  obtain ⟨hfeed, hrate, hsame⟩ := command_rate hs.process h
  have hiff : Paced { s with replay.flv := flv, rateSet := s.rateSet && !s.takesFile c } ↔
      (flv.stepThreads ≠ [] → (s.rateSet && !s.takesFile c) = true) :=
    ⟨Paced.threads, fun hthreads => ⟨hfeed, hrate ▸ hs.rate, hthreads⟩⟩
  -- the threads and the file are the same
  have hother (hne : ∀ sec, c ≠ .stepBySeconds sec) (htakes : s.takesFile c = false) :
      flv.stepThreads ≠ [] → (s.rateSet && !s.takesFile c) = true := by
    intro hthreads
    rw [hs.threads (hsame hne ▸ hthreads), htakes]
    rfl
  rw [hiff]
  cases c with
  | setFilePath opened =>
    rw [hsame nofun]
    show _ ↔ (s.player.isPlaying = false → _)
    cases hplaying : s.player.isPlaying with
    | true => exact iff_of_true (hsame nofun ▸ hother nofun (by simp [takesFile, hplaying])) nofun
    | false => simp [takesFile, hplaying]
  | stepBySeconds sec =>
    obtain rfl := Option.some.inj h
    show _ ↔ (s.player.isPlaying = true → _)
    unfold FlvSession.stepBySeconds
    split
    · next hplaying => simp [takesFile, hplaying]
    · next hplaying =>
      refine iff_of_true (fun hthreads => ?_) fun hon => absurd hon hplaying
      rw [hs.threads hthreads]
      rfl
  | start => exact iff_of_true (hother nofun rfl) trivial
  | stop => exact iff_of_true (hother nofun rfl) trivial
  | pause => exact iff_of_true (hother nofun rfl) trivial
  | stepOneFrameForward => exact iff_of_true (hother nofun rfl) trivial
  | stepOneFrameBackward => exact iff_of_true (hother nofun rfl) trivial

theorem round_paced {s : FlvPacing} {env : TagEffects} {own : Bool} {flv : FlvSession}
    (hs : Paced s) (h : s.replay.flv.feedRound env = some flv) :
    Paced { s with
      replay.flv := flv, rateSet := s.rateSet || own && !(s.rates env).isEmpty } ↔
      KeepsRate s (.feedRound env own) := by
  have hrate := FlvPlayer.feedRound_rate env s.replay.flv.player
  have hzero := FlvPlayer.rate_eq_zero_iff env hs.rate
  have hset : s.replay.flv.stepThreads ≠ [] →
      (s.rateSet || own && !(s.rates env).isEmpty) = true := fun hne => by
    rw [hs.threads hne, Bool.true_or]
  show _ ↔ (s.rates env).getLast? ≠ some 0
  unfold FlvSession.feedRound at h
  split at h
  · cases hround : s.replay.flv.player.feedRound env with
    | stopped =>
      rw [hround] at h
      obtain rfl := Option.some.inj h
      exact iff_of_true ⟨hs.process, hs.rate, hset⟩ (by simp [rates, hround])
    | wait =>
      rw [hround] at h
      obtain rfl := Option.some.inj h
      exact iff_of_true ⟨hs.process, hs.rate, hset⟩ (by simp [rates, hround])
    | header q =>
      rw [hround] at h hrate
      obtain rfl := Option.some.inj h
      refine iff_of_true ⟨hs.process, ?_, hset⟩ (by simp [rates, hround])
      exact hrate ▸ hs.rate
    | tag call q =>
      rw [hround] at h hrate
      obtain rfl := Option.some.inj h
      have hq : q.pendingRate = some 0 ↔ env.sleeps.getLast? = some 0 := hrate.trans hzero
      have hrates : s.rates env = env.sleeps := by simp [rates, hround]
      rw [hrates, ne_eq, ← hq]
      rw [hrates] at hset
      exact ⟨fun ht => ht.rate, fun hne => ⟨hs.process, hne, hset⟩⟩
    | crash call =>
      rw [hround] at h hrate
      obtain rfl := Option.some.inj h
      refine iff_of_false (fun ht => ht.process rfl) fun hne => hne ?_
      simpa [rates, hround] using hzero.mp hrate
  · cases h

/-- A step keeps the rates exactly when it meets the condition. -/
theorem paced_iff {s t : FlvPacing} {e : Event} (hs : Paced s) (h : step s e = some t) :
    Paced t ↔ KeepsRate s e := by
  unfold step at h
  rw [if_neg hs.process] at h
  cases e with
  | command c fuel =>
    obtain ⟨r, hr, rfl⟩ := Option.map_eq_some_iff.mp h
    cases FlvReplay.steps_of_some hr with
    | command hflv => exact command_paced hs hflv
  | stepThreadReads sec =>
    dsimp only [stepThreadReads] at h
    split at h
    · next hsec =>
      obtain rfl := Option.some.inj h
      exact iff_of_true ⟨hs.process, hs.rate,
        fun _ => hs.threads (List.ne_nil_of_mem hsec)⟩ trivial
    · cases h
  | stepThreadWalks count fuel =>
    dsimp only [stepThreadWalks] at h
    split at h
    · obtain ⟨p, hp, h⟩ := Option.bind_eq_some_iff.mp h
      obtain rfl := Option.some.inj h
      refine iff_of_true ⟨hs.process, ?_, hs.threads⟩ trivial
      show p.pendingRate ≠ _
      rw [(FlvPlayer.stepByFrame_controls hp).pendingRate]
      exact hs.rate
    · cases h
  | stepThreadCompletes =>
    obtain ⟨r, hr, rfl⟩ := Option.map_eq_some_iff.mp h
    cases FlvReplay.steps_of_some hr with
    | completes _ => exact iff_of_true ⟨hs.process, hs.rate, hs.threads⟩ trivial
  | feedBegin =>
    obtain ⟨r, hr, rfl⟩ := Option.map_eq_some_iff.mp h
    cases FlvReplay.steps_of_some hr with
    | begins _ => exact iff_of_true ⟨nofun, hs.rate, hs.threads⟩ trivial
  | feedRound env own =>
    obtain ⟨r, hr, rfl⟩ := Option.map_eq_some_iff.mp h
    rw [show s.replay.step (.feedRound env) = _ from if_neg hs.process] at hr
    obtain ⟨flv, hflv, rfl⟩ := Option.map_eq_some_iff.mp hr
    exact round_paced hs hflv

/-- The rates are kept all along a run exactly when every event meets the condition. -/
theorem paced_along_iff {p : FlvPlayer} (hp : p.Constructed) (es : List Event) :
    (∀ fs s, fs <+: es → exec step (init p) fs = some s → Paced s) ↔
      AtEvents step (init p) es fun _ => KeepsRate := by
  refine holds_along_iff_atEvents (I := fun _ => Paced) (paced_init hp) ?_ es
  exact fun _ _ _ _ _ hs h => paced_iff hs h

theorem reach_paced {p : FlvPlayer} (hp : p.Constructed) {s : FlvPacing}
    (h : Reach step KeepsRate (init p) s) : Paced s :=
  h.invariant (paced_init hp) fun _ _ _ hs hok hstep => (paced_iff hs hstep).mpr hok

/-! ## Pauses and steps -/

/-- Where every event keeps the rates, no pause is computed from a rate of zero, and no step
from a rate that no frame of the current recording has set. -/
theorem sound_of_keepsRate {p : FlvPlayer} (hp : p.Constructed) {s t : FlvPacing} {e : Event}
    (hs : Reach step KeepsRate (init p) s) (hok : KeepsRate s e) (h : step s e = some t) :
    Sound s e := by
  have hpaced := reach_paced hp hs
  cases e with
  | feedRound env own =>
    intro call hcrash
    have hrate := FlvPlayer.feedRound_rate env s.player
    rw [hcrash] at hrate
    have hlast := (FlvPlayer.rate_eq_zero_iff env hpaced.rate).mp hrate
    refine hok ?_
    simpa [rates, hcrash] using hlast
  | stepThreadReads sec =>
    rw [step, if_neg hpaced.process] at h
    dsimp only [stepThreadReads] at h
    split at h
    · next hsec => exact hpaced.threads (List.ne_nil_of_mem hsec)
    · cases h
  | command c fuel => trivial
  | stepThreadWalks count fuel => trivial
  | stepThreadCompletes => trivial
  | feedBegin => trivial

/-- The recording is played up to its key frame. -/
def begun : List Event :=
  [.command (.setFilePath (some FlvPlayer.keyFrameSegment.bytes)) 0, .command .start 0, .feedBegin,
    .feedRound FlvReplay.noEffects false]

/-- The key frame is shown at 25 frames a second, and then `step_by_seconds` is clicked. -/
theorem sound_of_keepsRate_shown :
    ∃ s t, exec step (init FlvReplay.new)
        (begun ++ [.feedRound ⟨[25], id⟩ true, .command (.stepBySeconds 10) 0]) = some s ∧
      step s (.stepThreadReads 10) = some t ∧ t.counts = [FlvSession.secondsToFrames 10 25] ∧
      Sound s (.stepThreadReads 10) := by
  have hrun : ∃ s t, exec step (init FlvReplay.new)
        (begun ++ [.feedRound ⟨[25], id⟩ true, .command (.stepBySeconds 10) 0]) = some s ∧
      step s (.stepThreadReads 10) = some t ∧
      t.counts = [FlvSession.secondsToFrames 10 25] := ⟨_, _, rfl, rfl, rfl⟩
  obtain ⟨s, t, hexec, hstep, hcounts⟩ := hrun
  have hreach : Reach step KeepsRate (init FlvReplay.new) s := Reach.start.exec hexec (by decide)
  exact ⟨s, t, hexec, hstep, hcounts,
    sound_of_keepsRate (FlvReplay.new_constructed) hreach trivial hstep⟩

/-- A key frame that reports no rate is divided by, and `step_by_seconds` before the key frame
is shown takes the rate that the constructor left. -/
theorem unset_rate_used :
    ∃ p : FlvPlayer, p.Constructed ∧
      (∃ s t, exec step (init p) begun = some s ∧
        step s (.feedRound ⟨[0], id⟩ true) = some t ∧ ¬ Sound s (.feedRound ⟨[0], id⟩ true)) ∧
      ∃ s t, exec step (init p) (begun ++ [.command (.stepBySeconds 10) 0]) = some s ∧
        step s (.stepThreadReads 10) = some t ∧ ¬ Sound s (.stepThreadReads 10) := by
  refine ⟨FlvReplay.new, FlvReplay.new_constructed, ?_, ?_⟩
  · exact ⟨_, _, rfl, rfl, fun h => h _ rfl⟩
  · exact ⟨_, _, rfl, rfl, nofun⟩

end FlvPacing

end MiniSurveillance
