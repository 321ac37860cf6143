import MiniSurveillance.FlvRounds

/-!
# The frame that is played first

A walk of `step_by_frame` leaves the feed loop some video tags to take without playing them,
or an I frame to wait for. `Pending` is what is left of that; `firstPlayed` says which frame
of the tags in front of the cursor is played first. The callbacks have no part in it, nor has
the GUI when it pauses the loop.

* `At.feeds`: a round takes the tag at the cursor, or crashes over it.
* `step_feeding`: an event of a run leaves the tags alone, or takes one.
* `played_iff`: the frame that a run plays first is that of `firstPlayed`.
-/

namespace MiniSurveillance
open Runs

namespace FlvPlayer

/-! ## What is left of a walk -/

/-- The video tags still to regulate, and whether an I frame is waited for. -/
structure Pending where
  count : Nat
  needIFrame : Bool

namespace Pending

/-- The tag is a frame, and it is played. -/
def plays (w : Pending) (t : Tag) : Bool :=
  t.isFrame && (t.isKeyFrame || !w.needIFrame) && w.count == 0

/-- What is left behind the tag. -/
def next (w : Pending) (t : Tag) : Pending where
  count := if t.isVideo then w.count - 1 else w.count
  needIFrame := w.needIFrame && !t.endsWait

/-- The first frame of the tags that is played, with the tags in front of it and behind it. -/
def firstPlayed : Pending → List Tag → Option (List Tag × Tag × List Tag)
  | _, [] => none
  | w, t :: ts =>
    if w.plays t then some ([], t, ts)
    else ((w.next t).firstPlayed ts).map fun played => (t :: played.1, played.2)

variable {w : Pending} {t : Tag} {ts : List Tag}

theorem firstPlayed_plays (h : w.plays t = true) : w.firstPlayed (t :: ts) = some ([], t, ts) :=
  if_pos h

theorem firstPlayed_skips (h : w.plays t = false) :
    w.firstPlayed (t :: ts) =
      ((w.next t).firstPlayed ts).map fun played => (t :: played.1, played.2) :=
  if_neg (by rw [h]; decide)

/-- What is played first is one of the tags. -/
theorem firstPlayed_split {walk rest : List Tag} {target : Tag}
    (h : w.firstPlayed ts = some (walk, target, rest)) :
    ts = walk ++ target :: rest ∧ target.isFrame = true := by
  induction ts generalizing w walk with
  | nil => cases h
  | cons t ts ih =>
    cases hplays : w.plays t with
    | true =>
      rw [firstPlayed_plays hplays] at h
      cases h
      simp only [plays, Bool.and_eq_true] at hplays
      exact ⟨rfl, hplays.1.1⟩
    | false =>
      rw [firstPlayed_skips hplays] at h
      obtain ⟨⟨walk', target', rest'⟩, hrest, heq⟩ := Option.map_eq_some_iff.mp h
      cases heq
      obtain ⟨rfl, hframe⟩ := ih hrest
      exact ⟨rfl, hframe⟩

/-- Tags without a frame play nothing. -/
theorem firstPlayed_none (h : ∀ t ∈ ts, t.isFrame = false) : w.firstPlayed ts = none := by
  cases hfirst : w.firstPlayed ts with
  | none => rfl
  | some played =>
    obtain ⟨walk, target, rest⟩ := played
    obtain ⟨rfl, hframe⟩ := firstPlayed_split hfirst
    rw [h target (by simp)] at hframe
    cases hframe

/-- Of as many video tags as there are to regulate none is played. -/
theorem firstPlayed_regulated (walk : List Tag) (needIFrame : Bool) :
    (⟨walk.countP Tag.isVideo, needIFrame⟩ : Pending).firstPlayed (walk ++ ts) =
      ((⟨0, needIFrame && !walk.any Tag.endsWait⟩ : Pending).firstPlayed ts).map
        fun played => (walk ++ played.1, played.2) := by
  induction walk generalizing needIFrame with
  | nil => simp
  | cons t walk ih =>
    let w : Pending := ⟨(t :: walk).countP Tag.isVideo, needIFrame⟩
    have hskips : w.plays t = false := by
      cases hv : t.isVideo with
      | true => simp [w, plays, hv]
      | false => simp [w, plays, Tag.isFrame, hv]
    have hnext : w.next t = ⟨walk.countP Tag.isVideo, needIFrame && !t.endsWait⟩ := by
      cases hv : t.isVideo with
      | true => simp [w, next, hv]
      | false => simp [w, next, hv]
    rw [List.cons_append, firstPlayed_skips hskips, hnext, ih, Option.map_map, List.any_cons,
      Bool.not_or, Bool.and_assoc]
    rfl

/-- Tags that are no frames are passed over. -/
theorem firstPlayed_idle {mid : List Tag} (hmid : ∀ t ∈ mid, t.isFrame = false)
    (needIFrame : Bool) :
    (⟨0, needIFrame⟩ : Pending).firstPlayed (mid ++ ts) =
      ((⟨0, needIFrame && !mid.any Tag.endsWait⟩ : Pending).firstPlayed ts).map
        fun played => (mid ++ played.1, played.2) := by
  induction mid generalizing needIFrame with
  | nil => simp
  | cons t mid ih =>
    let w : Pending := ⟨0, needIFrame⟩
    have hskips : w.plays t = false := by simp [w, plays, hmid t (by simp)]
    have hnext : w.next t = ⟨0, needIFrame && !t.endsWait⟩ := by simp [w, next]
    rw [List.cons_append, firstPlayed_skips hskips, hnext,
      ih (fun x hx => hmid x (List.mem_cons_of_mem t hx)), Option.map_map, List.any_cons,
      Bool.not_or, Bool.and_assoc]
    rfl

/-- The next tag is what is played first exactly if it is played. -/
theorem firstPlayed_head_iff {rest : List Tag} :
    w.firstPlayed (t :: rest) = some ([], t, rest) ↔ w.plays t = true := by
  cases hplays : w.plays t with
  | true => simp [firstPlayed_plays hplays]
  | false => simp [firstPlayed_skips hplays]

/-- What is played first behind some tags is so with them in front of it. -/
theorem behind_iff (walk front : List Tag) (target : Tag) (rest : List Tag)
    {played : Option (List Tag × Tag × List Tag)} :
    (played.map fun played => (walk ++ played.1, played.2)) =
        some (walk ++ front, target, rest) ↔ played = some (front, target, rest) := by
  have hinj : Function.Injective fun played : List Tag × Tag × List Tag =>
      (walk ++ played.1, played.2) := by
    rintro ⟨_, _⟩ ⟨_, _⟩ heq
    simpa using heq
  exact (Option.map_injective hinj).eq_iff (b := some (front, target, rest))

/-- A frame behind tags without one is played first, unless an I frame is still waited for. -/
theorem firstPlayed_idle_iff {mid : List Tag} {target : Tag} (hmid : ∀ t ∈ mid, t.isFrame = false)
    (htarget : target.isFrame = true) (needIFrame : Bool) (rest : List Tag) :
    (⟨0, needIFrame⟩ : Pending).firstPlayed (mid ++ target :: rest) = some (mid, target, rest) ↔
      (needIFrame = true → ∃ t ∈ mid ++ [target], t.endsWait = true) := by
  let w : Pending := ⟨0, needIFrame && !mid.any Tag.endsWait⟩
  have hhead : (w.firstPlayed (target :: rest)).map (fun played => (mid ++ played.1, played.2)) =
      some (mid, target, rest) ↔ w.firstPlayed (target :: rest) = some ([], target, rest) := by
    rw [← behind_iff mid [], List.append_nil]
  rw [firstPlayed_idle hmid, hhead, firstPlayed_head_iff, plays, htarget,
    ← Tag.endsWait_of_isFrame htarget]
  simp only [w, Bool.true_and, beq_self_eq_true, Bool.and_true, Bool.or_eq_true,
    Bool.not_eq_true', Bool.and_eq_false_iff, List.any_eq_true, Bool.not_eq_false',
    List.mem_append, List.mem_singleton]
  cases needIFrame with
  | false => simp
  | true =>
    constructor
    · rintro (hends | hoff | ⟨x, hx, hends⟩) _
      · exact ⟨target, .inr rfl, hends⟩
      · cases hoff
      · exact ⟨x, .inl hx, hends⟩
    · intro hany
      obtain ⟨x, hx | rfl, hends⟩ := hany rfl
      · exact .inr (.inr ⟨x, hx, hends⟩)
      · exact .inl hends

/-- With nothing to wait for, the first frame is what is played first. -/
theorem firstPlayed_free_iff {front rest : List Tag} {target : Tag}
    (htarget : target.isFrame = true) :
    (⟨0, false⟩ : Pending).firstPlayed (front ++ target :: rest) = some (front, target, rest) ↔
      ∀ t ∈ front, t.isFrame = false := by
  constructor
  · intro hfirst
    induction front with
    | nil => simp
    | cons x front ih =>
      cases hx : x.isFrame with
      | true =>
        rw [List.cons_append, firstPlayed_plays (by simp [plays, hx])] at hfirst
        simp at hfirst
      | false =>
        have hskips : (⟨0, false⟩ : Pending).plays x = false := by simp [plays, hx]
        have hnext : (⟨0, false⟩ : Pending).next x = ⟨0, false⟩ := by simp [next]
        rw [List.cons_append, firstPlayed_skips hskips, hnext] at hfirst
        have hrest := ih ((behind_iff [x] front target rest).mp hfirst)
        simpa [hx] using hrest
  · exact fun hfront => (firstPlayed_idle_iff hfront htarget false rest).mpr nofun

/-- Where an I frame is waited for, an I frame is what is played first exactly if no frame
stands between it and the first tag that ends the wait. -/
theorem firstPlayed_waits_iff {front rest : List Tag} {target : Tag}
    (htarget : target.isKeyFrame = true) :
    (⟨0, true⟩ : Pending).firstPlayed (front ++ target :: rest) = some (front, target, rest) ↔
      ∀ t ∈ front.dropWhile (fun t => !t.endsWait), t.isFrame = false := by
  have hframe := Tag.isFrame_of_isKeyFrame htarget
  induction front with
  | nil =>
    rw [List.nil_append, firstPlayed_head_iff]
    simp [plays, htarget, hframe]
  | cons x front ih =>
    let w : Pending := ⟨0, true⟩
    have hplays : w.plays x = (x.isFrame && x.endsWait) := by
      cases hx : x.isFrame with
      | true => simp [w, plays, hx, Tag.endsWait_of_isFrame hx]
      | false => simp [w, plays, hx]
    have hnext : w.next x = ⟨0, !x.endsWait⟩ := by simp [w, next]
    cases hends : x.endsWait with
    | false =>
      rw [hends, Bool.and_false] at hplays
      rw [List.cons_append, firstPlayed_skips hplays, hnext, hends,
        List.dropWhile_cons_of_pos (by simp [hends])]
      exact (behind_iff [x] front target rest).trans ih
    | true =>
      rw [hends, Bool.and_true] at hplays
      rw [List.dropWhile_cons_of_neg (by simp [hends]), List.forall_mem_cons, List.cons_append]
      cases hx : x.isFrame with
      | true =>
        rw [firstPlayed_plays (hplays.trans hx)]
        simp
      | false =>
        rw [firstPlayed_skips (hplays.trans hx), hnext, hends]
        have hfree := @firstPlayed_free_iff front rest target hframe
        exact (behind_iff [x] front target rest).trans (hfree.trans (by simp))

end Pending

/-- The player has this left of a walk. -/
structure Pends (p : FlvPlayer) (w : Pending) : Prop where
  isRegulating : p.isRegulating = decide (0 < w.count)
  regulateTagCount : 0 < w.count → p.regulateTagCount = w.count
  needIFrame : p.needIFrame = w.needIFrame

/-- Behind the next tag a player has left what is left behind the tag. -/
theorem Pends.feeds {p q : FlvPlayer} {t : Tag} {w : Pending} (hp : Pends p w)
    (hq : Feeds p t q) : Pends q (w.next t) := by
  have hreg := hp.isRegulating
  have hcount := hp.regulateTagCount
  refine ⟨?_, fun hpos => ?_, by rw [hq.needIFrame, hp.needIFrame]; rfl⟩
  · rw [hq.isRegulating, hreg]
    cases hv : t.isVideo with
    | false => simp [Pending.next, hv]
    | true =>
      rcases Nat.eq_zero_or_pos w.count with hzero | hpos
      · simp [Pending.next, hv, hzero]
      · have hone : ((w.count : Int) = 1) ↔ ¬ 0 < w.count - 1 := by omega
        simp only [Pending.next, hv, hpos, hcount hpos, beq_eq_decide, hone, decide_not]
        simp
  · rw [hq.regulateTagCount, hreg]
    cases hv : t.isVideo with
    | false =>
      simp only [Pending.next, hv] at hpos ⊢
      simp [hcount hpos]
    | true =>
      simp only [Pending.next, hv, if_true] at hpos ⊢
      have hwalk : 0 < w.count := by omega
      rw [decide_eq_true hwalk, Bool.and_self, if_pos rfl, hcount hwalk]
      omega

/-! ## Rounds -/

variable {p : FlvPlayer} {h : SegmentHeader} {before after : List Tag} {t : Tag}

/-- Behind the last tag the feed loop waits. -/
theorem At.waits_end (hp : At p h before []) (hplaying : p.isPlaying = true) (env : TagEffects) :
    feedRound env p = .wait := by
  have hroom : p.curIdx + flvHeaderLength > p.totalBytes := by
    have htotal := hp.totalBytes
    have hcur := hp.curIdx
    rw [List.append_nil] at htotal
    simp only [flvHeaderLength]
    omega
  rw [feedRound, if_neg (by simp [hplaying])]
  -- paused or not
  split
  · rfl
  · rfl

theorem sleepBehindTag_ne_none (h : p.fps ≠ 0) : p.sleepBehindTag ≠ none := by
  unfold sleepBehindTag
  split
  · exact Option.some_ne_none _
  · exact Option.some_ne_none _

theorem Handled.sleep {q : FlvPlayer} (hq : Handled p h before after t q) (needSleep : Bool) :
    Handled p h before after t { q with needSleep } :=
  ⟨hq.readsAt, hq.curIdx, hq.totalBytes, hq.type, hq.isPlaying, hq.isPause, hq.needIFrame,
    hq.isRegulating, hq.stepOneFrame, hq.regulateTagCount⟩

/-- A round takes the tag at the cursor, or crashes over it where the rate is zero. -/
theorem At.feeds (hp : At p h before (t :: after)) (hplaying : p.isPlaying = true)
    (hgo : p.isPause = true → p.stepOneFrame = true) (env : TagEffects) :
    ∃ call, call.frame? = (if t.isFrame && (t.isKeyFrame || !p.needIFrame)
        then some (t.data, !p.isRegulating) else none) ∧
      ((feedRound env p = .crash call ∧ env.sleeps.getLast?.getD p.fps = 0) ∨
        ∃ q, feedRound env p = .tag call q ∧ Feeds p t q ∧ At q h (before ++ [t]) after) := by
  obtain ⟨call, q, hround, hhandled, hframe, hfps, _⟩ := hp.handles hplaying hgo env
  refine ⟨call, hframe, ?_⟩
  rw [hround]
  rcases finishTag_cases call q with ⟨hzero, hcrash⟩ | ⟨r, hr, htag⟩
  · exact .inl ⟨hcrash, Classical.byContradiction fun hne =>
      sleepBehindTag_ne_none (hfps ▸ hne) hzero⟩
  · obtain ⟨needSleep, rfl⟩ := sleepBehindTag_of hr
    exact .inr ⟨_, htag, (hhandled.sleep needSleep).feeds hp⟩

/-- The offset tells how many tags are behind the cursor. -/
theorem At.unique {before' after' : List Tag} (hp : At p h before after)
    (hp' : At p h before' after') (hsame : before ++ after = before' ++ after') :
    before = before' ∧ after = after' := by
  have hlength : (upTo h before).length = (upTo h before').length := by
    have := hp.curIdx.symm.trans hp'.curIdx
    omega
  have hnil {tags : List Tag} (hzero : (tags.flatMap Tag.bytes).length = 0) : tags = [] := by
    cases tags with
    | nil => rfl
    | cons t tags =>
      rw [List.flatMap_cons, List.length_append, t.bytes_length] at hzero
      omega
  rcases List.append_eq_append_iff.mp hsame with ⟨mid, rfl, rfl⟩ | ⟨mid, rfl, rfl⟩
  · rw [upTo_append, List.length_append] at hlength
    obtain rfl := hnil (show (mid.flatMap Tag.bytes).length = 0 by omega)
    exact ⟨(List.append_nil _).symm, rfl⟩
  · rw [upTo_append, List.length_append] at hlength
    obtain rfl := hnil (show (mid.flatMap Tag.bytes).length = 0 by omega)
    exact ⟨List.append_nil _, rfl⟩

end FlvPlayer

namespace FlvSession
open FlvPlayer

/-! ## Runs of the feed loop -/

/-- The feed loop goes on, or the GUI pauses it, has it play a frame, or lets it go on. -/
def Event.goesOn : Event → Bool
  | .feedRound _ => true
  | .pause => true
  | .stepOneFrameForward => true
  | _ => false

/-- The event has a frame with this data played. -/
def Plays (s : FlvSession) (e : Event) (data : List UInt8) : Prop :=
  ∃ t call, step s e = some t ∧ t.calls = s.calls ++ [call] ∧ call.frame? = some (data, true)

/-- The feed loop goes on, and no frame is played. -/
def Skips (s : FlvSession) (e : Event) : Prop := e.goesOn = true ∧ ∀ data, ¬ Plays s e data

/-- In a run of the feed loop from `s` a frame is played in `t`, and none before. -/
def PlaysFirst (s t : FlvSession) (data : List UInt8) : Prop :=
  Reach step Skips s t ∧ ∃ env, Plays t (.feedRound env) data

/-- The frame played first in the runs of the feed loop from `s` is `target`, behind the tags
`front`; and until it is played a run that did not crash can go on to it. -/
structure PlaysNext (s : FlvSession) (h : SegmentHeader) (front : List Tag) (target : Tag)
    (rest : List Tag) : Prop where
  goes : ∀ t, Reach step Skips s t → t.feed = .looping → ∃ u data, PlaysFirst t u data
  first : ∀ t data, PlaysFirst s t data →
    At t.player h front (target :: rest) ∧ data = target.data

/-- The feed loop is in front of the tags `after`, with this left of a walk. -/
structure Feeding (s : FlvSession) (h : SegmentHeader) (before after : List Tag) (w : Pending) :
    Prop where
  feed : s.feed = .looping
  stands : At s.player h before after
  isPlaying : s.player.isPlaying = true
  pends : Pends s.player w

/-- What an event of the feed loop makes of the tags: it leaves them, or takes one. -/
inductive FeedsOn (s : FlvSession) (h : SegmentHeader) (before after : List Tag) (w : Pending)
    (t : FlvSession) : Prop
  | rests : t.calls = s.calls → Feeding t h before after w → FeedsOn s h before after w t
  | takes {x : Tag} {rest : List Tag} {call : TagCall} : after = x :: rest →
      t.calls = s.calls ++ [call] →
      (∀ data, call.frame? = some (data, true) ↔ w.plays x = true ∧ data = x.data) →
      t.feed = .crashed ∨ Feeding t h (before ++ [x]) rest (w.next x) →
      FeedsOn s h before after w t

variable {s t : FlvSession} {h : SegmentHeader} {before after : List Tag} {w : Pending}

/-- A frame is played where nothing is left to regulate. -/
theorem plays_iff {call : TagCall} {x : Tag} {p : FlvPlayer} (hp : Pends p w)
    (hcall : call.frame? = if x.isFrame && (x.isKeyFrame || !p.needIFrame)
      then some (x.data, !p.isRegulating) else none) (data : List UInt8) :
    call.frame? = some (data, true) ↔ w.plays x = true ∧ data = x.data := by
  rw [hcall, hp.isRegulating, hp.needIFrame, Pending.plays]
  cases x.isFrame && (x.isKeyFrame || !w.needIFrame) with
  | false => simp
  | true =>
    rw [if_pos rfl, Option.some.injEq, Prod.mk.injEq]
    simp only [Bool.true_and, beq_iff_eq, Bool.not_eq_true', decide_eq_false_iff_not]
    constructor
    · rintro ⟨rfl, hzero⟩
      exact ⟨by omega, rfl⟩
    · rintro ⟨hzero, rfl⟩
      exact ⟨rfl, by omega⟩

/-- An event of the feed loop leaves the tags alone, or takes the one at the cursor. -/
theorem step_feeding {e : Event} (he : e.goesOn = true) (hs : Feeding s h before after w)
    (ht : step s e = some t) : FeedsOn s h before after w t := by
  have hat := hs.stands
  -- the switches are no part of what is left of the walk
  have hswitched {u : FlvSession} (hcalls : u.calls = s.calls) (hfeed : u.feed = s.feed)
      (isPause stepOneFrame : Bool) (hu : u.player = { s.player with isPause, stepOneFrame }) :
      FeedsOn s h before after w u := by
    refine .rests hcalls ⟨hfeed.trans hs.feed, ?_, ?_, ?_⟩
    · rw [hu]
      exact ⟨hat.readsAt, hat.curIdx, hat.totalBytes, hat.long⟩
    · rw [hu]
      exact hs.isPlaying
    · rw [hu]
      exact ⟨hs.pends.isRegulating, hs.pends.regulateTagCount, hs.pends.needIFrame⟩
  cases e with
  | pause =>
    obtain rfl := Option.some.inj ht
    exact hswitched rfl rfl (!s.player.isPause) s.player.stepOneFrame rfl
  | stepOneFrameForward =>
    obtain rfl := Option.some.inj ht
    have hstep : s.stepOneFrameForward =
        { s with player := { s.player with isPause := true, stepOneFrame := true } } :=
      if_pos hs.isPlaying
    rw [hstep]
    exact hswitched rfl rfl true true rfl
  | feedRound env =>
    simp only [step, feedRound] at ht
    rw [if_pos hs.feed] at ht
    by_cases hgo : s.player.isPause = true → s.player.stepOneFrame = true
    · cases hafter : after with
      | nil =>
        rw [hafter] at hat
        rw [hat.waits_end hs.isPlaying env] at ht
        obtain rfl := Option.some.inj ht
        exact .rests rfl (hafter ▸ hs)
      | cons x rest =>
        rw [hafter] at hat
        obtain ⟨call, hcall, hround⟩ := hat.feeds hs.isPlaying hgo env
        have hplays := plays_iff hs.pends hcall
        rcases hround with ⟨hcrash, _⟩ | ⟨q, htag, hfeeds, hq⟩
        · rw [hcrash] at ht
          obtain rfl := Option.some.inj ht
          exact .takes rfl rfl hplays (.inl rfl)
        · rw [htag] at ht
          obtain rfl := Option.some.inj ht
          exact .takes rfl rfl hplays (.inr ⟨hs.feed, hq, hfeeds.isPlaying.trans hs.isPlaying,
            hs.pends.feeds hfeeds⟩)
    · have hwait : s.player.feedRound env = .wait := by
        rw [FlvPlayer.feedRound, if_neg (by simp [hs.isPlaying]), if_pos (by simpa using hgo)]
      rw [hwait] at ht
      obtain rfl := Option.some.inj ht
      exact .rests rfl hs
  | setFilePath _ => cases he
  | start => cases he
  | stop => cases he
  | stepOneFrameBackward _ => cases he
  | stepBySeconds _ => cases he
  | stepThread _ _ => cases he
  | feedBegin => cases he

/-- A crashed loop stays so. -/
theorem step_crashed {e : Event} (he : e.goesOn = true) (hs : s.feed = .crashed)
    (ht : step s e = some t) : t.feed = .crashed := by
  cases e with
  | pause =>
    obtain rfl := Option.some.inj ht
    exact hs
  | stepOneFrameForward =>
    obtain rfl := Option.some.inj ht
    unfold stepOneFrameForward
    split
    · exact hs
    · exact hs
  | feedRound env =>
    have hloop := (feedRound_of_some ht).1
    rw [hs] at hloop
    cases hloop
  | setFilePath _ => cases he
  | start => cases he
  | stop => cases he
  | stepOneFrameBackward _ => cases he
  | stepBySeconds _ => cases he
  | stepThread _ _ => cases he
  | feedBegin => cases he

/-- A run that has played no frame has taken tags from the front, and what is played first
of the others is what was to be played first of all of them. -/
theorem reach_feeding (hs : Feeding s h before after w) (ht : Reach step Skips s t) :
    t.feed = .crashed ∨ ∃ mid rest v, after = mid ++ rest ∧ Feeding t h (before ++ mid) rest v ∧
      w.firstPlayed after = (v.firstPlayed rest).map fun played => (mid ++ played.1, played.2) := by
  refine ht.invariant (I := fun t => t.feed = .crashed ∨ ∃ mid rest v, after = mid ++ rest ∧
    Feeding t h (before ++ mid) rest v ∧
      w.firstPlayed after = (v.firstPlayed rest).map fun played => (mid ++ played.1, played.2))
    (.inr ⟨[], after, w, rfl, by rwa [List.append_nil], by simp⟩) ?_
  rintro t e u (hcrash | ⟨mid, rest, v, rfl, hfeeding, hfirst⟩) ⟨he, hnone⟩ hu
  · exact .inl (step_crashed he hcrash hu)
  · cases step_feeding he hfeeding hu with
    | rests _ hrests => exact .inr ⟨mid, rest, v, rfl, hrests, hfirst⟩
    | @takes x rest call hrest hcalls hplays hnext =>
      subst hrest
      have hskips : v.plays x = false := by
        by_contra hyes
        exact hnone x.data ⟨u, call, hu, hcalls,
          (hplays x.data).mpr ⟨by simpa using hyes, rfl⟩⟩
      refine hnext.imp_right fun hfeeding => ⟨mid ++ [x], rest, v.next x, by simp, ?_, ?_⟩
      · rwa [List.append_assoc] at hfeeding
      · rw [hfirst, Pending.firstPlayed_skips hskips, Option.map_map]
        congr 1
        funext played
        simp

/-- What a run plays first is the first of the tags that is played. -/
theorem PlaysFirst.first {data : List UInt8} (hs : Feeding s h before after w)
    (ht : PlaysFirst s t data) : ∃ walk target rest,
      w.firstPlayed after = some (walk, target, rest) ∧
      At t.player h (before ++ walk) (target :: rest) ∧ data = target.data := by
  obtain ⟨hreach, env, u, call, hu, hcalls, hframe⟩ := ht
  rcases reach_feeding hs hreach with hcrash | ⟨mid, rest, v, rfl, hfeeding, hfirst⟩
  · have hloop := (feedRound_of_some hu).1
    rw [hcrash] at hloop
    cases hloop
  · cases step_feeding rfl hfeeding hu with
    | rests hsame _ =>
      rw [hcalls] at hsame
      exact absurd hsame (by simp)
    | @takes x rest call' hrest hcalls' hplays _ =>
      subst hrest
      obtain rfl : call = call' := by simpa using hcalls.symm.trans hcalls'
      obtain ⟨hplayed, rfl⟩ := (hplays data).mp hframe
      refine ⟨mid, x, rest, ?_, hfeeding.stands, rfl⟩
      rw [hfirst, Pending.firstPlayed_plays hplayed]
      simp

/-- Callbacks that ask for a sleep of one second. -/
def oneRate : TagEffects := ⟨[1], id⟩

/-- A loop that is not paused takes the next tag, and does not crash at that rate. -/
theorem takes_oneRate {x : Tag} {rest : List Tag} (hs : Feeding s h before (x :: rest) w)
    (hpause : s.player.isPause = false) :
    ∃ u call, step s (.feedRound oneRate) = some u ∧ u.calls = s.calls ++ [call] ∧
      (∀ data, call.frame? = some (data, true) ↔ w.plays x = true ∧ data = x.data) ∧
      Feeding u h (before ++ [x]) rest (w.next x) ∧ u.player.isPause = false := by
  obtain ⟨call, hcall, ⟨_, hzero⟩ | ⟨q, htag, hfeeds, hq⟩⟩ :=
    hs.stands.feeds hs.isPlaying (by simp [hpause]) oneRate
  · simp [oneRate] at hzero
  · exact ⟨_, call, step_feedRound hs.feed htag, rfl, plays_iff hs.pends hcall,
      ⟨hs.feed, hq, hfeeds.isPlaying.trans hs.isPlaying, hs.pends.feeds hfeeds⟩,
      hfeeds.isPause.trans hpause⟩

/-- Such a loop comes to the frame that is played first. -/
theorem exists_playsFirst_running {walk rest : List Tag} {target : Tag}
    (hs : Feeding s h before after w) (hpause : s.player.isPause = false)
    (hfirst : w.firstPlayed after = some (walk, target, rest)) :
    ∃ t, PlaysFirst s t target.data := by
  induction after generalizing s before w walk with
  | nil => cases hfirst
  | cons x after ih =>
    obtain ⟨u, call, hu, hcalls, hplays, hfeeding, hpauseu⟩ := takes_oneRate hs hpause
    cases hplayed : w.plays x with
    | true =>
      rw [Pending.firstPlayed_plays hplayed] at hfirst
      cases hfirst
      exact ⟨s, .start, oneRate, u, call, hu, hcalls, (hplays target.data).mpr ⟨hplayed, rfl⟩⟩
    | false =>
      rw [Pending.firstPlayed_skips hplayed] at hfirst
      obtain ⟨⟨walk', target', rest'⟩, hrest, heq⟩ := Option.map_eq_some_iff.mp hfirst
      cases heq
      obtain ⟨t, hreach, hlast⟩ := ih hfeeding hpauseu hrest
      have hskips : Skips s (.feedRound oneRate) := by
        refine ⟨rfl, ?_⟩
        rintro data ⟨u', call', hu', hcalls', hframe⟩
        obtain rfl : u = u' := Option.some.inj (hu.symm.trans hu')
        obtain rfl : call = call' := by simpa using hcalls.symm.trans hcalls'
        have hyes := ((hplays data).mp hframe).1
        rw [hplayed] at hyes
        cases hyes
      exact ⟨t, (Reach.start.next hskips hu).trans hreach, hlast⟩

/-- A paused loop is let go on first. -/
theorem exists_playsFirst {walk rest : List Tag} {target : Tag}
    (hs : Feeding s h before after w)
    (hfirst : w.firstPlayed after = some (walk, target, rest)) :
    ∃ t, PlaysFirst s t target.data := by
  cases hpause : s.player.isPause with
  | false => exact exists_playsFirst_running hs hpause hfirst
  | true =>
    let u : FlvSession := { s with player := s.player.pause }
    have hat := hs.stands
    have hu : Feeding u h before after w := ⟨hs.feed,
      ⟨hat.readsAt, hat.curIdx, hat.totalBytes, hat.long⟩, hs.isPlaying,
      ⟨hs.pends.isRegulating, hs.pends.regulateTagCount, hs.pends.needIFrame⟩⟩
    have hgoes : u.player.isPause = false := by
      show (!s.player.isPause) = false
      rw [hpause]
      rfl
    obtain ⟨t, hreach, hlast⟩ := exists_playsFirst_running hu hgoes hfirst
    have hskips : Skips s .pause := by
      refine ⟨rfl, ?_⟩
      rintro data ⟨u', call, hu', hcalls, _⟩
      obtain rfl : u = u' := Option.some.inj hu'
      exact absurd hcalls (by simp [u])
    exact ⟨t, (Reach.start.next hskips rfl).trans hreach, hlast⟩

/-- The frame that the feed loop plays next is the first of its tags that is played. -/
theorem played_iff {front rest : List Tag} {target : Tag} (hs : Feeding s h before after w)
    (hsplit : before ++ after = front ++ target :: rest) :
    PlaysNext s h front target rest ↔
      ∃ walk, front = before ++ walk ∧ w.firstPlayed after = some (walk, target, rest) := by
  constructor
  · intro hplays
    obtain ⟨t, data, ht⟩ := hplays.goes s .start hs.feed
    obtain ⟨walk, target', rest', hfirst, hat, _⟩ := ht.first hs
    obtain ⟨rfl, _⟩ := Pending.firstPlayed_split hfirst
    obtain ⟨rfl, hrest⟩ := hat.unique (hplays.first t data ht).1 (by
      rw [List.append_assoc]
      exact hsplit)
    cases hrest
    exact ⟨walk, rfl, hfirst⟩
  · rintro ⟨walk, rfl, hfirst⟩
    refine ⟨fun t hreach hloop => ?_, fun t data ht => ?_⟩
    · rcases reach_feeding hs hreach with hcrash | ⟨mid, rest', v, _, hfeeding, hrest⟩
      · rw [hcrash] at hloop
        cases hloop
      · rw [hfirst] at hrest
        obtain ⟨⟨walk', target', rest''⟩, hrest, _⟩ := Option.map_eq_some_iff.mp hrest.symm
        obtain ⟨u, hu⟩ := exists_playsFirst hfeeding hrest
        exact ⟨u, _, hu⟩
    · obtain ⟨walk', target', rest', hfirst', hat, hdata⟩ := ht.first hs
      rw [hfirst] at hfirst'
      cases hfirst'
      exact ⟨hat, hdata⟩

end FlvSession

end MiniSurveillance
