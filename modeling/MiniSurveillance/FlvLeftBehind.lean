import MiniSurveillance.FlvReplay
import MiniSurveillance.FlvWalks

/-!
# What a step leaves behind

A recording of one key frame tells a player that a step left something in from a new
one. A seek under way hands the frame on without playing it. A single step, or a thread
that clears `is_pause`, hands it on though the player is paused; a thread that walks comes
back to it. A sleep that is due without a rate ends the process.

* `seekWalk_keyFrame`: every walk from behind the frame comes back in front of it.
* `Quiet.plays`, `Quiet.paused`, `Quiet.unpaused`: what a player with no step under way shows.
* `leavesNothing_of_asNew`: a player as good as new has nothing left behind.
* `asNew_iff`: what `stop` leaves, after any run.
-/

namespace MiniSurveillance
open Runs Bytes Loops

namespace FlvPlayer

/-! ## A walk over one key frame -/

/-- From behind the key frame a walk over however many frames comes back in front of it. -/
theorem seekWalk_keyFrame {count : Int} (hone : count ≠ 1) :
    FlvFile.SeekWalk keyFrameSegment.bytes 38 count (some ⟨13, 13⟩) := by
  have hlast : FlvFile.KeyFrameWalk keyFrameSegment.bytes ⟨13, 13⟩ (some ⟨13, 13⟩) :=
    .stays (by decide +kernel) (by decide +kernel)
  have hbehind : FlvFile.behind keyFrameSegment.bytes ⟨38, 38⟩ = some ⟨13, 13⟩ := by
    decide +kernel
  have hroom : FlvFile.atEnd keyFrameSegment.bytes ⟨13, 13⟩ = false := by decide +kernel
  have hfirst : FlvFile.noWay keyFrameSegment.bytes ⟨13, 13⟩ = true := by decide +kernel
  rcases Int.lt_or_gt_of_ne hone with hless | hmore
  · -- one tag back is the first tag, whatever is left to count
    refine .keyFrame (.back (o := some ((1 - count).toNat - 1, ⟨13, 13⟩)) hless ?_)
      (.stays hroom) hlast
    refine .breaks ?_ ?_ hfirst
    · simp only [beq_eq_false_iff_ne]
      omega
    · have hframe : FlvFile.frameAt keyFrameSegment.bytes ⟨13, 13⟩ = true := by decide +kernel
      show (FlvFile.behind keyFrameSegment.bytes ⟨38, 38⟩).map _ = _
      rw [hbehind, Option.map_some, if_pos hframe]
  · -- there is nothing ahead, and the second loop goes back
    have hcount : FlvFile.CountWalk keyFrameSegment.bytes 38 count (some ⟨38, 38⟩) := by
      have hwalk := @FlvFile.CountWalk.ahead keyFrameSegment.bytes 38 count hmore
      have hlands : FlvFile.landsAhead keyFrameSegment.bytes (count - 1).toNat 38 =
          some ((count - 1).toNat, ⟨38, 38⟩) := by
        rw [FlvFile.landsAhead, if_neg (by omega), if_pos (by decide +kernel)]
        rfl
      rwa [hlands] at hwalk
    have hvideo : FlvFile.VideoWalk keyFrameSegment.bytes ⟨38, 38⟩ (some ⟨13, 13⟩) :=
      .back (by decide +kernel) (.breaks rfl hbehind (by decide +kernel))
    exact .keyFrame hcount hvideo hlast

/-- A player in front of the first tag of a file. -/
theorem Stands.at_keyFrame {p : FlvPlayer} (h : Stands p keyFrameSegment.bytes ⟨13, 13⟩) :
    At p keyFrameSegment.header [] [keyFrame] := by
  refine ⟨h.fileFd, h.curIdx, h.totalBytes, ?_⟩
  rw [h.totalBytes]
  decide

/-- At a rate of two the frames of whole seconds are even in number. -/
theorem secondsToFrames_two (sec : Int) : FlvSession.secondsToFrames sec 2 ≠ 1 := by
  have htwo : ((2 : UInt32).toNat : Int) = 2 := rfl
  unfold FlvSession.secondsToFrames toLong
  rw [htwo, Int.bmod_def]
  split
  · omega
  · omega

/-! ## A round over a key frame -/

/-- A round over a key frame hands it to the callback. -/
theorem At.handsOn {p : FlvPlayer} {h : SegmentHeader} {before after : List Tag} {t : Tag}
    (hp : At p h before (t :: after)) (hkey : t.isKeyFrame = true) (hplaying : p.isPlaying = true)
    (hgo : p.isPause = true → p.stepOneFrame = true) (env : TagEffects) :
    ∃ call, ((∃ q, feedRound env p = .tag call q) ∨ feedRound env p = .crash call) ∧
      call.callbacks.nalus ≠ [] ∧ call.play = !p.isRegulating := by
  obtain ⟨call, q, hround, _, hframe, _⟩ := hp.handles hplaying hgo env
  rw [Tag.isFrame_of_isKeyFrame hkey, hkey, Bool.true_or, Bool.and_self, if_pos rfl] at hframe
  refine ⟨call, ?_, ?_⟩
  · rw [hround]
    rcases finishTag_cases call q with ⟨_, hcrash⟩ | ⟨r, _, htag⟩
    · exact .inr hcrash
    · exact .inl ⟨_, htag⟩
  · unfold TagCall.frame? at hframe
    split at hframe
    · next hcalls => exact ⟨hcalls.2.2, (Prod.mk.inj (Option.some.inj hframe)).2⟩
    · cases hframe

theorem At.reading {p : FlvPlayer} {h : SegmentHeader} {before after : List Tag}
    (hp : At p h before after) (hplaying : p.isPlaying = true) (hpause : p.isPause = false) :
    Reading p (upTo h before) (after.flatMap Tag.bytes) := by
  refine ⟨hp.readsAt, hp.curIdx, ?_, hplaying, hpause⟩
  rw [hp.totalBytes, upTo_append]

/-- The key frame and the header in front of it are whole. -/
theorem wholeTag_header {p : FlvPlayer}
    (hp : Reading p [] (upTo keyFrameSegment.header [keyFrame])) : WholeTag p := fun _ =>
  ⟨[], flvHeader.set 4 0x05, [], [], _, hp.readsAt, rfl, .inl ⟨0x05, rfl⟩⟩

theorem At.wholeTag_keyFrame {p : FlvPlayer} (hp : At p keyFrameSegment.header [] [keyFrame]) :
    WholeTag p := by
  intro _
  refine ⟨keyFrameSegment.header.bytes, keyFrame.front, keyFrame.stamp.drop 5, keyFrame.data,
    keyFrame.previous, hp.readsAt, rfl, .inr ⟨rfl, keyFrame.size_eq, keyFrame.data_short, ?_, ?_⟩⟩
  · intro _
    exact .inr ⟨0x01, rfl, by decide, .inl ⟨⟨[0x17, 0x01, 0x00, 0x00, 0x00], [0x65], [], rfl,
      by decide⟩, rfl⟩⟩
  · intro htype
    exact absurd htype (by decide)

end FlvPlayer

namespace FlvReplay
open FlvPlayer (keyFrame keyFrameSegment At Reading NoSeek)

variable {ok : Watched → Event → Prop}

/-! ## What one step shows -/

/-- A call is seen by what its callbacks receive, or not at all. -/
theorem seenCall_cases (env : TagEffects) (call : TagCall) :
    seenCall env call = [] ∨ seenCall env call = [.callbacks env call.callbacks] := by
  unfold seenCall
  split
  · exact .inl rfl
  · exact .inr rfl

/-- Of a round at most the call it makes is seen. -/
theorem seen_feedRound (s : FlvReplay) (env : TagEffects) :
    seen s (.feedRound env) = [] ∨
    s.flv.feed = .looping ∧ ∃ call, seen s (.feedRound env) = [.callbacks env call.callbacks] ∧
      ((∃ q, s.flv.player.feedRound env = .tag call q) ∨
        s.flv.player.feedRound env = .crash call) := by
  dsimp only [seen]
  split
  · next hloop =>
    split
    · next call q hround =>
      exact (seenCall_cases env call).imp_right fun h => ⟨hloop, call, h, .inl ⟨q, hround⟩⟩
    · next call hround =>
      exact (seenCall_cases env call).imp_right fun h => ⟨hloop, call, h, .inr hround⟩
    · exact .inl rfl
  · exact .inl rfl

theorem seen_length (s : FlvReplay) (e : Event) : (seen s e).length ≤ 1 := by
  cases e with
  | feedRound env =>
    rcases seen_feedRound s env with h | ⟨_, call, h, _⟩
    · rw [h]
      exact Nat.zero_le 1
    · rw [h]
      exact Nat.le_refl 1
  | command c fuel => exact Nat.le_refl 1
  | _ => exact Nat.zero_le 1

theorem command_of_seen {s : FlvReplay} {e : Event} {c : Command}
    (h : seen s e = [.command c]) : ∃ fuel, e = .command c fuel := by
  cases e with
  | command c' fuel =>
    cases h
    exact ⟨fuel, rfl⟩
  | feedRound env =>
    rcases seen_feedRound s env with h' | ⟨_, call, h', _⟩
    · cases h.symm.trans h'
    · cases h.symm.trans h'
  | _ => cases h

theorem round_of_seen {s : FlvReplay} {e : Event} {env : TagEffects} {calls : Callbacks}
    (h : seen s e = [.callbacks env calls]) :
    e = .feedRound env ∧ s.flv.feed = .looping ∧ ∃ call, call.callbacks = calls ∧
      ((∃ q, s.flv.player.feedRound env = .tag call q) ∨
        s.flv.player.feedRound env = .crash call) := by
  cases e with
  | feedRound env' =>
    rcases seen_feedRound s env' with h' | ⟨hloop, call, h', hround⟩
    · cases h.symm.trans h'
    · cases h.symm.trans h'
      exact ⟨rfl, hloop, call, rfl, hround⟩
  | _ => cases h

theorem replay_of_step {s t : Watched} {e : Event} (h : s.step e = some t) :
    step s.replay e = some t.replay := by
  obtain ⟨r, hr, rfl⟩ := Option.map_eq_some_iff.mp h
  exact hr

/-! ## A player with no step under way -/

/-- No step is under way, and none is pending. -/
structure Quiet (s : FlvReplay) : Prop where
  noSeek : NoSeek s.flv.player
  stepThreads : s.flv.stepThreads = []
  walked : s.walked = 0

theorem finishTag_noSeek {call c : TagCall} {p q : FlvPlayer} (hp : NoSeek p)
    (h : FlvPlayer.finishTag call p = .tag c q) : NoSeek q := by
  rcases FlvPlayer.finishTag_cases call p with ⟨_, hcrash⟩ | ⟨r, hr, htag⟩
  · cases hcrash.symm.trans h
  · obtain ⟨_, rfl⟩ := FlvPlayer.FeedRound.tag.inj (htag.symm.trans h)
    obtain ⟨needSleep, rfl⟩ := FlvPlayer.sleepBehindTag_of hr
    have hslept : NoSeek { p with needSleep } := hp
    rw [hslept.countTag]
    exact hslept

/-- A round starts no step. -/
theorem feedRound_noSeek {env : TagEffects} {p q : FlvPlayer} (hp : NoSeek p)
    (h : FlvPlayer.feedRound env p = .header q ∨
      ∃ call, FlvPlayer.feedRound env p = .tag call q) : NoSeek q := by
  rcases FlvPlayer.feedRound_cases env p with hround | hround | ⟨r, hround, hmoved⟩ |
    ⟨r, call, hround, hmoved, _⟩
  · simp [hround] at h
  · simp [hround] at h
  · rw [hround] at h
    rcases h with h | ⟨_, h⟩
    · obtain rfl := FlvPlayer.FeedRound.header.inj h
      exact ⟨hmoved.isRegulating.trans hp.1, hmoved.stepOneFrame.trans hp.2⟩
    · cases h
  · have hr : NoSeek r := ⟨hmoved.isRegulating.trans hp.1, hmoved.stepOneFrame.trans hp.2⟩
    rw [hround] at h
    rcases h with h | ⟨_, h⟩
    · exact absurd h (FlvPlayer.finishTag_ne_header _ _ _)
    · exact finishTag_noSeek (hr.handleTag env) h

/-- Until a command comes no step is under way, and the player is paused or not. -/
theorem Quiet.kept {s t : FlvReplay} {e : Event} (hs : Quiet s) (h : step s e = some t)
    (hno : ∀ c fuel, e ≠ .command c fuel) :
    Quiet t ∧ t.flv.player.isPause = s.flv.player.isPause := by
  cases steps_of_some h with
  | @command c fuel _ _ => exact absurd rfl (hno c fuel)
  | starts hsec _ =>
    rw [hs.stepThreads] at hsec
    cases hsec
  | completes hwalked =>
    rw [hs.walked] at hwalked
    cases hwalked
  | begins _ => exact ⟨⟨hs.noSeek, hs.stepThreads, hs.walked⟩, rfl⟩
  | @rounds env _ _ hrounds =>
    have hround {q : FlvPlayer} (hq : s.flv.player.feedRound env = .header q ∨
        ∃ call, s.flv.player.feedRound env = .tag call q) :
        NoSeek q ∧ q.isPause = s.flv.player.isPause :=
      ⟨feedRound_noSeek hs.noSeek hq, (Prod.mk.inj (FlvPlayer.feedRound_switches hq)).2⟩
    cases hrounds with
    | rests => exact ⟨hs, rfl⟩
    | header hheader =>
      obtain ⟨hseek, hpause⟩ := hround (.inl hheader)
      exact ⟨⟨hseek, hs.stepThreads, hs.walked⟩, hpause⟩
    | @tag call _ htag =>
      obtain ⟨hseek, hpause⟩ := hround (.inr ⟨call, htag⟩)
      exact ⟨⟨hseek, hs.stepThreads, hs.walked⟩, hpause⟩
    | crash _ => exact ⟨⟨hs.noSeek, hs.stepThreads, hs.walked⟩, rfl⟩

/-- Unseen steps keep it so. -/
theorem Quiet.unseen (isPause : Bool) (s : Watched) (e : Event) (t : Watched)
    (hs : Quiet s.replay ∧ s.flv.player.isPause = isPause) (h : s.step e = some t)
    (hseen : s.seen e = []) : Quiet t.replay ∧ t.flv.player.isPause = isPause := by
  obtain ⟨hquiet, hpause⟩ := hs.1.kept (replay_of_step h) fun c fuel he => by
    subst he
    cases hseen
  exact ⟨hquiet, hpause.trans hs.2⟩

/-- What a player with no step under way hands on is played, and it is not paused. -/
theorem Quiet.callbacks {s : FlvReplay} {e : Event} {env : TagEffects} {calls : Callbacks}
    (hs : Quiet s) (h : seen s e = [.callbacks env calls]) :
    calls.play = true ∧ s.flv.player.isPause = false := by
  obtain ⟨_, _, call, rfl, hround⟩ := round_of_seen h
  rcases FlvPlayer.feedRound_cases env s.flv.player with hend | hend | ⟨r, hend, _⟩ |
    ⟨r, call', hend, _, hplay, hgo⟩
  · simp [hend] at hround
  · simp [hend] at hround
  · simp [hend] at hround
  · rw [hend] at hround
    have hcall : call = call' := FlvPlayer.finishTag_call hround
    refine ⟨?_, ?_⟩
    · show call.play = true
      rw [hcall, hplay, hs.noSeek.1]
      rfl
    · cases hpause : s.flv.player.isPause with
      | false => rfl
      | true =>
        have hstep := hgo hpause
        rw [hs.noSeek.2] at hstep
        cases hstep

theorem Watched.seen_length (s : Watched) (e : Event) : (s.seen e).length ≤ 1 :=
  FlvReplay.seen_length s.replay e

theorem Quiet.plays {s : Watched} (hs : Quiet s.replay) {env : TagEffects} {calls : Callbacks}
    {rest : List Seen} (h : .callbacks env calls :: rest ∈ Traces Watched.step ok Watched.seen s) :
    calls.play = true := by
  obtain ⟨u, e, v, hu, _, hseen, _⟩ := Traces.first Watched.seen_length
    (Quiet.unseen s.flv.player.isPause) ⟨hs, rfl⟩ h
  exact (hu.1.callbacks hseen).1

/-- Once paused it hands on nothing. -/
theorem Quiet.paused {s : Watched} (hs : Quiet s.replay) (hpause : s.flv.player.isPause = false)
    {env : TagEffects} {calls : Callbacks} {rest : List Seen} :
    .command .pause :: .callbacks env calls :: rest ∉ Traces Watched.step ok Watched.seen s := by
  intro h
  obtain ⟨u, e, v, ⟨hu, huPause⟩, hstep, hseen, h⟩ :=
    Traces.first Watched.seen_length (Quiet.unseen false) ⟨hs, hpause⟩ h
  obtain ⟨fuel, rfl⟩ := command_of_seen hseen
  have hv : Quiet v.replay ∧ v.flv.player.isPause = true := by
    obtain ⟨r, hr, rfl⟩ := Option.map_eq_some_iff.mp hstep
    cases steps_of_some hr with
    | command hflv =>
      obtain rfl := Option.some.inj hflv
      exact ⟨⟨hu.noSeek, hu.stepThreads, hu.walked⟩, congrArg (!·) huPause⟩
  obtain ⟨u', e', v', ⟨hu', hpaused⟩, _, hseen, _⟩ :=
    Traces.first Watched.seen_length (Quiet.unseen true) hv h
  cases hpaused.symm.trans (hu'.callbacks hseen).2

/-- Nor behind what it handed on before it was paused. -/
theorem Quiet.unpaused {s : Watched} (hs : Quiet s.replay) {env env' : TagEffects}
    {calls calls' : Callbacks} {rest : List Seen} :
    .callbacks env calls :: .command .pause :: .callbacks env' calls' :: rest ∉
      Traces Watched.step ok Watched.seen s := by
  intro h
  obtain ⟨u, e, v, ⟨hu, _⟩, hstep, hseen, h⟩ := Traces.first Watched.seen_length
    (Quiet.unseen s.flv.player.isPause) ⟨hs, rfl⟩ h
  obtain ⟨rfl, _⟩ := round_of_seen hseen
  obtain ⟨hv, hpause⟩ := hu.kept (replay_of_step hstep) nofun
  exact hv.paused (hpause.trans (hu.callbacks hseen).2) h

/-! ## The key frame is played next -/

/-- Callbacks that do nothing. -/
def noEffects : TagEffects := ⟨[], id⟩

theorem noEffects_keepsHead : noEffects.KeepsHead := fun _ _ _ => rfl

/-- What the settled runs of a session show. -/
abbrev Watched.shown (s : Watched) : Set (List Seen) :=
  Traces Watched.step Watched.Settled Watched.seen s

theorem shown_cons {s : Watched} {r : FlvReplay} {e : Event} {v w : List Seen}
    (h : step s.replay e = some r) (hok : s.Settled e) (hseen : seen s.replay e = v)
    (hw : w ∈ Watched.shown ⟨r, s.rateSet || s.setsRate e⟩) : v ++ w ∈ s.shown := by
  have hstep : s.step e = some ⟨r, s.rateSet || s.setsRate e⟩ := by
    rw [Watched.step, h]
    rfl
  exact Traces.cons hstep hok hseen hw

/-- The feed thread stands in front of the key frame. -/
structure OnKeyFrame (u : FlvReplay) : Prop where
  feed : u.flv.feed = .looping
  cursor : At u.flv.player keyFrameSegment.header [] [keyFrame]
  isPlaying : u.flv.player.isPlaying = true

/-- `u` plays the recording of one key frame on the player in `t`, and has read its header. -/
structure InFront (t u : FlvReplay) : Prop extends OnKeyFrame u where
  isPause : u.flv.player.isPause = false
  needSleep : u.flv.player.needSleep = t.flv.player.needSleep
  isRegulating : u.flv.player.isRegulating = t.flv.player.isRegulating
  stepOneFrame : u.flv.player.stepOneFrame = t.flv.player.stepOneFrame
  stepThreads : u.flv.stepThreads = t.flv.stepThreads
  walked : u.walked = t.walked

/-- The player in `t` before the head of `feed_task`. -/
theorem play_keyFrame {t : FlvReplay} (hstopped : t.flv.player.isPlaying = false) :
    play (some keyFrameSegment.bytes) t =
      { t with flv := { t.flv with
          player := { t.flv.player with
            fileFd := some ⟨keyFrameSegment.bytes, 0⟩
            isPlaying := true
            isPause := false
            needIFrame := true }
          feed := .started } } := by
  simp [play, FlvSession.start, FlvPlayer.setFilePath, FlvPlayer.start, hstopped]

/-- The thread begins, and reads the header. -/
theorem opens_keyFrame {t : FlvReplay} (hstopped : t.flv.player.isPlaying = false) :
    ∃ u, InFront t u ∧ ∀ w ∈ Watched.shown ⟨u, false⟩,
      w ∈ Watched.shown ⟨play (some keyFrameSegment.bytes) t, false⟩ := by
  rw [play_keyFrame hstopped]
  let p : FlvPlayer := { t.flv.player with
    fileFd := some ⟨keyFrameSegment.bytes, 0⟩
    isPlaying := true
    isPause := false
    needIFrame := true }
  have hreading : Reading p.feedBegin [] (upTo keyFrameSegment.header [keyFrame]) :=
    ⟨rfl, rfl, rfl, rfl, rfl⟩
  have hlong : p.feedBegin.totalBytes < 2147483648 :=
    show (keyFrameSegment.bytes.length : Int) < _ by decide
  obtain ⟨q, hround, hat, hmoved⟩ := hreading.header hlong noEffects
  refine ⟨{ t with flv := { t.flv with player := q, feed := .looping } },
    ⟨⟨rfl, hat, hmoved.isPlaying⟩, hmoved.isPause, hmoved.needSleep, hmoved.isRegulating,
      hmoved.stepOneFrame, rfl, rfl⟩, fun w hw => ?_⟩
  let begun : FlvReplay := { t with flv := { t.flv with player := p.feedBegin, feed := .looping } }
  have hbegin : step { t with flv := { t.flv with player := p, feed := .started } } .feedBegin =
      some begun := rfl
  have hheader : step begun (.feedRound noEffects) =
      some { t with flv := { t.flv with player := q, feed := .looping } } := by
    simp [begun, step, FlvSession.feedRound, hround]
  have hunseen : seen begun (.feedRound noEffects) = [] := by
    simp [begun, seen, hround]
  have hset : Watched.setsRate ⟨begun, false⟩ (.feedRound noEffects) = false := by
    simp [Watched.setsRate, noEffects]
  refine shown_cons (e := .feedBegin) hbegin trivial rfl (shown_cons (s := ⟨begun, false⟩) hheader
    ⟨noEffects_keepsHead, FlvPlayer.wholeTag_header hreading⟩ hunseen ?_)
  rwa [hset]

/-- In front of the key frame a player that may hands it on. -/
theorem round_keyFrame {u : FlvReplay} (hu : OnKeyFrame u)
    (hgo : u.flv.player.isPause = true → u.flv.player.stepOneFrame = true) (env : TagEffects) :
    ∃ call, ((∃ q, u.flv.player.feedRound env = .tag call q) ∨
        u.flv.player.feedRound env = .crash call) ∧
      seen u (.feedRound env) = [.callbacks env call.callbacks] ∧
      call.callbacks.play = !u.flv.player.isRegulating := by
  obtain ⟨call, hround, hnalus, hplay⟩ := hu.cursor.handsOn rfl hu.isPlaying hgo env
  have hcall : seenCall env call = [.callbacks env call.callbacks] :=
    if_neg fun h => hnalus h.1
  refine ⟨call, hround, ?_, hplay⟩
  rcases hround with ⟨q, hround⟩ | hround
  · simp [seen, hu.feed, hround, hcall]
  · simp [seen, hu.feed, hround, hcall]

/-- A round that hands a tag on, as a step. -/
theorem step_round {u : FlvReplay} (hfeed : u.flv.feed = .looping) {env : TagEffects}
    {call : TagCall} {q : FlvPlayer} (hround : u.flv.player.feedRound env = .tag call q) :
    step u (.feedRound env) =
      some { u with flv := { u.flv with player := q, calls := u.flv.calls ++ [call] } } := by
  simp [step, FlvSession.feedRound, hfeed, hround]

theorem shows_keyFrame {u : FlvReplay} (hu : OnKeyFrame u)
    (hgo : u.flv.player.isPause = true → u.flv.player.stepOneFrame = true) (rateSet : Bool) :
    ∃ calls : Callbacks, calls.play = !u.flv.player.isRegulating ∧
      [.callbacks noEffects calls] ∈ Watched.shown ⟨u, rateSet⟩ := by
  obtain ⟨call, hround, hseen, hplay⟩ := round_keyFrame hu hgo noEffects
  obtain ⟨v, hv⟩ : ∃ v, step u (.feedRound noEffects) = some v := by
    rcases hround with ⟨q, hround⟩ | hround
    · exact ⟨_, step_round hu.feed hround⟩
    · simp [step, FlvSession.feedRound, hu.feed, hround]
  exact ⟨call.callbacks, hplay, shown_cons (s := ⟨u, rateSet⟩) hv
    ⟨noEffects_keepsHead, hu.cursor.wholeTag_keyFrame⟩ hseen (Traces.nil _)⟩

/-! ## What is left behind shows -/

theorem step_pause {u : FlvReplay} (hfeed : u.flv.feed = .looping) :
    step u (.command .pause 0) =
      some { u with flv := { u.flv with player := u.flv.player.pause } } := by
  unfold step
  rw [if_neg (by rw [hfeed]; decide)]
  rfl

/-- The place is the same, paused or not. -/
theorem OnKeyFrame.setPause {u : FlvReplay} (hu : OnKeyFrame u) (isPause : Bool) (walked : Nat) :
    OnKeyFrame ⟨{ u.flv with player := { u.flv.player with isPause := isPause } }, walked⟩ :=
  ⟨hu.feed, ⟨hu.cursor.readsAt, hu.cursor.curIdx, hu.cursor.totalBytes, hu.cursor.long⟩,
    hu.isPlaying⟩

theorem OnKeyFrame.pause {u : FlvReplay} (hu : OnKeyFrame u) :
    OnKeyFrame { u with flv := { u.flv with player := u.flv.player.pause } } :=
  hu.setPause (!u.flv.player.isPause) u.walked

/-- A thread that clears `is_pause` lets the key frame be handed on. -/
theorem completes_shows {u : FlvReplay} (hu : OnKeyFrame u) (hwalked : 0 < u.walked)
    (rateSet : Bool) :
    ∃ calls, [.callbacks noEffects calls] ∈ Watched.shown ⟨u, rateSet⟩ := by
  let v : FlvReplay := {
    flv := { u.flv with player := { u.flv.player with isPause := false } }
    walked := u.walked - 1 }
  have hcompletes : step u .stepThreadCompletes = some v := by
    unfold step
    rw [if_neg (by rw [hu.feed]; decide)]
    exact if_pos hwalked
  have hv : OnKeyFrame v := hu.setPause false (u.walked - 1)
  obtain ⟨calls, _, hmem⟩ := shows_keyFrame hv nofun (rateSet || false)
  exact ⟨calls, shown_cons (s := ⟨u, rateSet⟩) hcompletes trivial rfl hmem⟩

/-- Callbacks that report two frames a second. -/
def reportsTwo : TagEffects := ⟨[2], id⟩

/-- A thread that has yet to walk comes back to the key frame, and lets it be handed on. -/
theorem starts_shows {u : FlvReplay} {sec : Int} (hu : OnKeyFrame u)
    (hpause : u.flv.player.isPause = false) (hno : NoSeek u.flv.player)
    (hsec : sec ∈ u.flv.stepThreads) :
    ∃ calls calls', [.callbacks reportsTwo calls, .command .pause, .callbacks noEffects calls'] ∈
      Watched.shown ⟨u, false⟩ := by
  -- the key frame is handed on, and a rate is set
  have hreading := hu.cursor.reading hu.isPlaying hpause
  obtain ⟨call, q, htag, _, hq, _, hnoq⟩ :=
    FlvPlayer.feedRound_tag hreading
      (show FlvPlayer.rate reportsTwo _ ≠ some 0 by simp [FlvPlayer.rate, reportsTwo])
  have hfps : q.fps = 2 := feedRound_fps.2 call htag
  obtain ⟨call', _, hseen, _⟩ := round_keyFrame hu (by simp [hpause]) reportsTwo
  let v : FlvReplay :=
    { u with flv := { u.flv with player := q, calls := u.flv.calls ++ [call] } }
  have hround : step u (.feedRound reportsTwo) = some v := step_round hu.feed htag
  -- the thread walks back to it
  have hstands : FlvPlayer.Stands q.pause keyFrameSegment.bytes ⟨38, 38⟩ :=
    ⟨hq.readsAt, hq.curIdx, hq.totalBytes, fun _ => rfl⟩
  have hwalk := FlvPlayer.seekWalk_keyFrame (FlvPlayer.secondsToFrames_two sec)
  obtain ⟨fuel, r, hr, hback⟩ :=
    hstands.stepByFrame (by decide) (by simp [FlvPlayer.pause, (hnoq hno).1.1]) hwalk
  let x : FlvReplay := {
    flv := { v.flv with player := r, stepThreads := u.flv.stepThreads.erase sec }
    walked := u.walked + 1 }
  have hstarts : step { v with flv := { v.flv with player := q.pause } }
      (.stepThreadStarts sec fuel) = some x := by
    have hrate : q.pause.fps = 2 := hfps
    unfold step
    rw [if_neg (by rw [show v.flv.feed = .looping from hu.feed]; decide)]
    dsimp only [stepThreadStarts]
    rw [if_pos (show sec ∈ v.flv.stepThreads from hsec), hrate, hr]
    rfl
  have hx : OnKeyFrame x :=
    ⟨hu.feed, hback.at_keyFrame, (FlvPlayer.stepByFrame_controls hr).isPlaying.trans hq.isPlaying⟩
  obtain ⟨calls', hmem⟩ := completes_shows hx (Nat.succ_pos u.walked) true
  have hset : Watched.setsRate ⟨u, false⟩ (.feedRound reportsTwo) = true := by
    show (handles (u.flv.player.feedRound reportsTwo) && _) = true
    rw [htag]
    rfl
  refine ⟨call'.callbacks, calls', shown_cons (s := ⟨u, false⟩) hround
    ⟨fun _ _ _ => rfl, hu.cursor.wholeTag_keyFrame⟩ hseen ?_⟩
  rw [hset]
  refine shown_cons (s := ⟨v, true⟩) (step_pause (u := v) hu.feed) trivial rfl ?_
  refine shown_cons (s := ⟨{ v with flv := { v.flv with player := q.pause } }, true⟩) hstarts
    ⟨rfl, hu.feed, .inr (.inr ⟨_, hstands.fileFd, hstands.curIdx, hstands.totalBytes,
      by decide, ?_⟩)⟩ rfl hmem
  have hrate : q.pause.fps = 2 := hfps
  rw [hrate]
  exact hwalk.not_cutOff

theorem quiet_new {p : FlvPlayer} (hp : p.Constructed) :
    Quiet (play (some keyFrameSegment.bytes) (init p)) ∧
      (play (some keyFrameSegment.bytes) (init p)).flv.player.isPause = false := by
  rw [play_keyFrame (show (init p).flv.player.isPlaying = false from hp.isPlaying)]
  exact ⟨⟨⟨hp.isRegulating, hp.stepOneFrame⟩, rfl, rfl⟩, rfl⟩

/-- What a settled run shows on the player in `t` is shown on a new one. -/
theorem AsNew.shows {n : FlvPlayer} {t : FlvReplay} (h : AsNew ok n t)
    (hok : ∀ s e, Watched.Settled s e → ok s e) {opened : Option (List UInt8)} {w : List Seen}
    (hw : w ∈ Watched.shown ⟨play opened t, false⟩) :
    w ∈ Traces Watched.step ok Watched.seen ⟨play opened (init n), false⟩ :=
  h opened ▸ Traces.mono hok _ hw

theorem isRegulating_shows {n : FlvPlayer} {t : FlvReplay} (hn : n.Constructed)
    (hok : ∀ s e, Watched.Settled s e → ok s e) (hstopped : t.flv.player.isPlaying = false)
    (hsame : AsNew ok n t) : t.flv.player.isRegulating = false := by
  obtain ⟨u, hu, hsub⟩ := opens_keyFrame hstopped
  have hgo : u.flv.player.isPause = true → u.flv.player.stepOneFrame = true := by
    rw [hu.isPause]
    exact nofun
  obtain ⟨calls, hplay, hmem⟩ := shows_keyFrame hu.toOnKeyFrame hgo false
  have hnew := hsame.shows hok (hsub _ hmem)
  rw [(quiet_new hn).1.plays hnew, hu.isRegulating] at hplay
  simpa using hplay

/-- A player as good as new hands nothing on once it is paused. -/
theorem paused_shows {n : FlvPlayer} {t u : FlvReplay} (hn : n.Constructed)
    (hok : ∀ s e, Watched.Settled s e → ok s e) (hsame : AsNew ok n t) (hu : InFront t u)
    (hsub : ∀ w ∈ Watched.shown ⟨u, false⟩,
      w ∈ Watched.shown ⟨play (some keyFrameSegment.bytes) t, false⟩) (calls : Callbacks) :
    [.callbacks noEffects calls] ∉
      Watched.shown ⟨{ u with flv := { u.flv with player := u.flv.player.pause } }, false⟩ := by
  intro hmem
  have hshown := shown_cons (s := ⟨u, false⟩) (step_pause hu.feed) trivial rfl hmem
  obtain ⟨hquiet, hpause⟩ := quiet_new hn
  exact hquiet.paused hpause (hsame.shows hok (hsub _ hshown))

theorem steps_show {n : FlvPlayer} {t : FlvReplay} (hn : n.Constructed)
    (hok : ∀ s e, Watched.Settled s e → ok s e) (hstopped : t.flv.player.isPlaying = false)
    (hsame : AsNew ok n t) :
    t.flv.player.stepOneFrame = false ∧ t.flv.stepThreads = [] ∧ t.walked = 0 := by
  obtain ⟨u, hu, hsub⟩ := opens_keyFrame hstopped
  have hnone (calls : Callbacks) := paused_shows hn hok hsame hu hsub calls
  have hstep : t.flv.player.stepOneFrame = false := by
    cases hstep : t.flv.player.stepOneFrame with
    | false => rfl
    | true =>
      obtain ⟨calls, _, hmem⟩ := shows_keyFrame hu.toOnKeyFrame.pause
        (fun _ => hu.stepOneFrame.trans hstep) false
      exact absurd hmem (hnone calls)
  refine ⟨hstep, ?_, ?_⟩
  · cases hthreads : t.flv.stepThreads with
    | nil => rfl
    | cons sec threads =>
      have hreg := isRegulating_shows hn hok hstopped hsame
      obtain ⟨calls, calls', hmem⟩ := starts_shows hu.toOnKeyFrame hu.isPause
        ⟨hu.isRegulating.trans hreg, hu.stepOneFrame.trans hstep⟩
        (hu.stepThreads.trans hthreads ▸ List.mem_cons_self)
      exact absurd (hsame.shows hok (hsub _ hmem)) (quiet_new hn).1.unpaused
  · rcases Nat.eq_zero_or_pos t.walked with hzero | hpos
    · exact hzero
    · obtain ⟨calls, hmem⟩ := completes_shows hu.toOnKeyFrame.pause (hu.walked ▸ hpos) false
      exact absurd hmem (hnone calls)

/-! ## A sleep without a rate -/

/-- A sleep is due with no rate to sleep by, and the key frame is played next. -/
structure Due (s : FlvReplay) : Prop where
  quiet : Quiet s
  needSleep : s.flv.player.needSleep = true
  fps : s.flv.player.fps = 0
  isPlaying : s.flv.player.isPlaying = true
  isPause : s.flv.player.isPause = false
  next : (s.flv.feed = .started ∧ s.flv.player.fileFd = some ⟨keyFrameSegment.bytes, 0⟩) ∨
    (s.flv.feed = .looping ∧
      (Reading s.flv.player [] (upTo keyFrameSegment.header [keyFrame]) ∨
        At s.flv.player keyFrameSegment.header [] [keyFrame]))

theorem header_keyFrame {p : FlvPlayer}
    (hp : Reading p [] (upTo keyFrameSegment.header [keyFrame])) (env : TagEffects) :
    ∃ q, p.feedRound env = .header q ∧ At q keyFrameSegment.header [] [keyFrame] ∧
      FlvPlayer.Moved p q := by
  refine hp.header ?_ env
  rw [hp.totalBytes]
  decide

/-- Up to the key frame only the header is read. -/
theorem Due.unseen (s : Watched) (e : Event) (t : Watched) (hs : Due s.replay)
    (h : s.step e = some t) (hseen : s.seen e = []) : Due t.replay := by
  obtain ⟨⟨hquiet, _⟩, h⟩ := And.intro (Quiet.unseen _ s e t ⟨hs.quiet, rfl⟩ h hseen)
    (steps_of_some (replay_of_step h))
  generalize t.replay = r at h hquiet
  cases h with
  | command _ => cases hseen
  | starts hsec _ =>
    rw [hs.quiet.stepThreads] at hsec
    cases hsec
  | completes hwalked =>
    rw [hs.quiet.walked] at hwalked
    cases hwalked
  | begins hstarted =>
    rcases hs.next with ⟨_, hfile⟩ | ⟨hloop, _⟩
    · refine ⟨hquiet, hs.needSleep, hs.fps, hs.isPlaying, hs.isPause,
        .inr ⟨rfl, .inl ⟨?_, rfl, ?_, hs.isPlaying, hs.isPause⟩⟩⟩
      · simp [FlvPlayer.ReadsAt, FlvPlayer.feedBegin, hfile]
        rfl
      · simp [FlvPlayer.feedBegin, hfile]
        rfl
    · cases hstarted.symm.trans hloop
  | @rounds env _ hloop hrounds =>
    rcases hs.next with ⟨hstarted, _⟩ | ⟨_, hreading | hat⟩
    · cases hloop.symm.trans hstarted
    · obtain ⟨q, hround, hat, hmoved⟩ := header_keyFrame hreading env
      cases hrounds with
      | rests => exact hs
      | header hheader =>
        obtain rfl := FlvPlayer.FeedRound.header.inj (hround.symm.trans hheader)
        exact ⟨hquiet, hmoved.needSleep.trans hs.needSleep, hmoved.fps.trans hs.fps,
          hmoved.isPlaying.trans hs.isPlaying, hmoved.isPause.trans hs.isPause,
          .inr ⟨hloop, .inr hat⟩⟩
      | tag htag => cases hround.symm.trans htag
      | crash hcrash => cases hround.symm.trans hcrash
    · -- the key frame is not handed on unseen
      obtain ⟨_, _, hshown, _⟩ := round_keyFrame ⟨hloop, hat, hs.isPlaying⟩
        (by simp [hs.isPause]) env
      cases hshown.symm.trans hseen

/-- Behind the key frame the process is gone. -/
theorem Due.callbacks {s t : FlvReplay} {e : Event} {calls : Callbacks} (hs : Due s)
    (h : step s e = some t) (hseen : seen s e = [.callbacks noEffects calls]) :
    t.flv.feed = .crashed := by
  obtain ⟨rfl, hloop, call, _, hround⟩ := round_of_seen hseen
  rcases hs.next with ⟨hstarted, _⟩ | ⟨_, hreading | hat⟩
  · cases hloop.symm.trans hstarted
  · obtain ⟨q, hheader, _⟩ := header_keyFrame hreading noEffects
    simp [hheader] at hround
  · have hreading := hat.reading hs.isPlaying hs.isPause
    have hrate : FlvPlayer.rate noEffects s.flv.player = some 0 := by
      simp [FlvPlayer.rate, noEffects, FlvPlayer.pendingRate, hs.needSleep, hs.fps]
    obtain ⟨call', hcrash⟩ := FlvPlayer.feedRound_crash hreading hs.quiet.noSeek hrate
    simp only [step, FlvSession.feedRound, hloop, hcrash] at h
    obtain rfl := Option.some.inj h
    rfl

theorem Due.ends {s : Watched} (hs : Due s.replay) {calls : Callbacks} {w : Seen}
    {rest : List Seen} :
    .callbacks noEffects calls :: w :: rest ∉ Traces Watched.step ok Watched.seen s := by
  intro h
  obtain ⟨u, e, v, hu, hstep, hseen, h⟩ :=
    Traces.first Watched.seen_length (I := fun s => Due s.replay) Due.unseen hs h
  have hcrashed := hu.callbacks (replay_of_step hstep) hseen
  have hstuck (e : Event) : v.step e = none := by
    unfold Watched.step
    rw [show FlvReplay.step v.replay e = none from if_pos hcrashed]
    rfl
  cases Traces.eq_nil_of_stuck hstuck h

/-- A new player goes on behind the key frame. -/
theorem new_goes_on {n : FlvPlayer} (hn : n.Constructed) :
    ∃ calls, [.callbacks noEffects calls, .command .pause] ∈
      Watched.shown ⟨play (some keyFrameSegment.bytes) (init n), false⟩ := by
  obtain ⟨u, hu, hsub⟩ := opens_keyFrame (t := init n) hn.isPlaying
  have hreading := hu.cursor.reading hu.isPlaying hu.isPause
  have hrate : FlvPlayer.rate noEffects u.flv.player ≠ some 0 := by
    simp [FlvPlayer.rate, noEffects, FlvPlayer.pendingRate,
      hu.needSleep.trans (show (init n).flv.player.needSleep = false from hn.needSleep)]
  obtain ⟨call, q, htag, _⟩ := FlvPlayer.feedRound_tag hreading hrate
  obtain ⟨call', _, hseen, _⟩ := round_keyFrame hu.toOnKeyFrame (by simp [hu.isPause]) noEffects
  let v : FlvReplay :=
    { u with flv := { u.flv with player := q, calls := u.flv.calls ++ [call] } }
  have hstep : step u (.feedRound noEffects) = some v := step_round hu.feed htag
  refine ⟨call'.callbacks, hsub _ (shown_cons (s := ⟨u, false⟩) hstep
    ⟨noEffects_keepsHead, hu.cursor.wholeTag_keyFrame⟩ hseen ?_)⟩
  exact shown_cons (s := ⟨v, _⟩) (step_pause (u := v) hu.feed) trivial rfl (Traces.nil _)

theorem rate_shows {n : FlvPlayer} {t : FlvReplay} (hn : n.Constructed)
    (hok : ∀ s e, Watched.Settled s e → ok s e) (hstopped : t.flv.player.isPlaying = false)
    (hsame : AsNew ok n t) (hneed : t.flv.player.needSleep = true) : t.flv.player.fps ≠ 0 := by
  intro hfps
  obtain ⟨hstep, hthreads, hwalked⟩ := steps_show hn hok hstopped hsame
  have hreg := isRegulating_shows hn hok hstopped hsame
  have hdue : Due (play (some keyFrameSegment.bytes) t) := by
    rw [play_keyFrame hstopped]
    exact ⟨⟨⟨hreg, hstep⟩, hthreads, hwalked⟩, hneed, hfps, rfl, rfl, .inl ⟨rfl, rfl⟩⟩
  obtain ⟨calls, hnew⟩ := new_goes_on hn
  have hnew := Traces.mono hok _ hnew
  rw [← hsame] at hnew
  exact Due.ends (s := ⟨_, false⟩) hdue hnew

/-! ## As good as new -/

/-- A player that shows what a new one shows has nothing left behind. Settled runs are enough
to tell. -/
theorem leavesNothing_of_asNew {n : FlvPlayer} {t : FlvReplay} (hn : n.Constructed)
    (hok : ∀ s e, Watched.Settled s e → ok s e) (hstopped : t.flv.player.isPlaying = false)
    (hsame : AsNew ok n t) : LeavesNothing t :=
  let ⟨hstep, hthreads, hwalked⟩ := steps_show hn hok hstopped hsame
  ⟨isRegulating_shows hn hok hstopped hsame, hstep, hthreads, hwalked,
    rate_shows hn hok hstopped hsame⟩

/-- After any run, `stop` leaves a player as good as any new one exactly when a step left
nothing behind. -/
theorem asNew_iff {n p : FlvPlayer} (hn : n.Constructed) {history : List Event}
    {s t : FlvReplay} {fuel : Nat} (hrun : exec step (init p) history = some s)
    (hstop : step s (.command .stop fuel) = some t) :
    AsNew Watched.Settled n t ↔ LeavesNothing s := by
  have hstopped := (stop_stopped hstop).1
  have hidle : FeedIdle t :=
    step_feedIdle (reach_feedIdle (reachable_of_exec hrun)) hstop
  rw [← leavesNothing_stop_iff hstop]
  exact ⟨leavesNothing_of_asNew hn (fun _ _ hok => hok) hstopped.isPlaying,
    fun h => asNew_of_leavesNothing hn h hstopped.isPlaying (hidle hstopped.isPlaying)⟩

/-- A player that was just made, over memory that held zeros. -/
def new : FlvPlayer := { FlvPlayer.opened [] with fileFd := none }

theorem new_constructed : new.Constructed := ⟨rfl, rfl, rfl, rfl, rfl, rfl⟩

/-- The recording is played up to its key frame. -/
def begun : List Event :=
  [.command (.setFilePath (some keyFrameSegment.bytes)) 0, .command .start 0, .feedBegin,
    .feedRound noEffects]

/-- The key frame was shown, at 25 frames a second, and nothing was clicked but play and
stop: the player is as good as a new one over memory in which `fps` is 30. -/
theorem asNew_iff_played :
    ∃ s t, exec step (init new) (begun ++ [.feedRound ⟨[25], id⟩]) = some s ∧
      step s (.command .stop 0) = some t ∧ t.flv.player.fps = 25 ∧ t.flv.calls.length = 1 ∧
      AsNew Watched.Settled { new with fps := 30 } t := by
  have hrun : ∃ s t, exec step (init new) (begun ++ [.feedRound ⟨[25], id⟩]) = some s ∧
      step s (.command .stop 0) = some t ∧ t.flv.player.fps = 25 ∧ t.flv.calls.length = 1 ∧
      s.flv.player.isRegulating = false ∧ s.flv.player.stepOneFrame = false ∧
      s.flv.stepThreads = [] ∧ s.walked = 0 ∧ s.flv.player.needSleep = false :=
    ⟨_, _, rfl, rfl, rfl, rfl, rfl, rfl, rfl, rfl, rfl⟩
  obtain ⟨s, t, hexec, hstop, hfps, hcalls, hreg, hstep, hthreads, hwalked, hneed⟩ := hrun
  refine ⟨s, t, hexec, hstop, hfps, hcalls, ?_⟩
  refine (asNew_iff (n := { new with fps := 30 }) ⟨rfl, rfl, rfl, rfl, rfl, rfl⟩ hexec hstop).mpr
    ⟨hreg, hstep, hthreads, hwalked, fun h => ?_⟩
  cases hneed.symm.trans h

/-- A single step is clicked, and then stop: the next recording is not paused when its first
frame is to come, on settled runs and on all. -/
theorem stepped_not_new :
    ∃ s t, exec step (init new) (begun ++ [.command .stepOneFrameForward 0]) = some s ∧
      step s (.command .stop 0) = some t ∧ ∀ n : FlvPlayer, n.Constructed →
        ¬ AsNew (fun _ _ => True) n t ∧ ¬ AsNew Watched.Settled n t := by
  have hrun : ∃ s t,
      exec step (init new) (begun ++ [.command .stepOneFrameForward 0]) = some s ∧
      step s (.command .stop 0) = some t ∧ t.flv.player.isPlaying = false ∧
      t.flv.player.stepOneFrame = true := ⟨_, _, rfl, rfl, rfl, rfl⟩
  obtain ⟨s, t, hexec, hstop, hstopped, hstep⟩ := hrun
  refine ⟨s, t, hexec, hstop, fun n hn => ⟨fun hsame => ?_, fun hsame => ?_⟩⟩
  · have hnothing := leavesNothing_of_asNew hn (fun _ _ _ => trivial) hstopped hsame
    cases hstep.symm.trans hnothing.stepOneFrame
  · have hnothing := leavesNothing_of_asNew hn (fun _ _ hok => hok) hstopped hsame
    cases hstep.symm.trans hnothing.stepOneFrame

end FlvReplay

end MiniSurveillance
