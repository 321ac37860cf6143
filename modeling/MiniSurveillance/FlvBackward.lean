import MiniSurveillance.FlvRounds
import MiniSurveillance.FlvWalks

/-!
# One frame back

`step_one_frame_backward` walks back over two frames, then on to the nearest I frame,
counting the video tags on the way. The feed loop takes the tags from there without
playing them, counts as many video tags down, and plays the next frame it meets.

* `stepByFrame_back`: where the walks lead, and what they count.
* `Takes.regulated`: what a round makes of a tag that was counted.
* `feeds_walk`: the rounds over all of them, by induction on the tags.
* `stepOneFrameBackward_shows`: behind frame `k` the step plays frame `k - 1`.
-/

namespace MiniSurveillance
open Bytes Loops

namespace FlvPlayer

/-! ## The walks -/

/-- `step_by_frame(-1)` behind a frame goes to the nearest I frame in front of the frame
before it. -/
theorem stepByFrame_back {h : SegmentHeader} {before walk mid after : List Tag} {target : Tag}
    (hsized : ∀ t ∈ walk ++ target :: mid, t.Sized) (htarget : target.isFrame = true)
    (hmid : mid.countP Tag.isFrame = 1) (hleads : Leads walk target) {p : FlvPlayer}
    (hp : At p h (before ++ walk ++ target :: mid) after) (hreg : p.isRegulating = false) :
    ∃ fuel q, stepByFrame fuel p (-1) = some q ∧
      At q h before (walk ++ target :: (mid ++ after)) ∧
      q.isRegulating = decide (0 < walk.countP Tag.isVideo) ∧
      (0 < walk.countP Tag.isVideo → q.regulateTagCount = walk.countP Tag.isVideo) ∧
      Moved { p with
        isRegulating := q.isRegulating, regulateTagCount := q.regulateTagCount } q := by
  have hbegin : At { p with isRegulating := true } h (before ++ walk ++ target :: mid) after :=
    ⟨hp.readsAt, hp.curIdx, hp.totalBytes, hp.long⟩
  obtain ⟨r, ⟨n, hcount⟩, hr, hmovedr⟩ := counts_back
    (fun t ht => hsized t (List.mem_append_right _ ht)) htarget hbegin
  rw [hmid] at hcount
  obtain ⟨m, q, hkey, hq, hreg', hcount', hmovedq⟩ := backToKeyFrame_leads
    (fun t ht => hsized t (List.mem_append_left _ ht)) hleads hr hmovedr.isRegulating
  refine ⟨n + m, q, ?_, hq, hreg', hcount', ?_⟩
  · rw [stepByFrame_walks (by rw [hreg]; decide) (by decide)]
    refine Option.bind_eq_some_iff.mpr ⟨r, run_mono hcount (Nat.le_add_right n m), ?_⟩
    -- the frame it counted down to is no end of the file
    refine Option.bind_eq_some_iff.mpr ⟨r, ?_, backToKeyFrame_mono hkey (Nat.le_add_left m n)⟩
    rw [backToVideo, if_neg (by rw [hr.atEnd]; decide)]
  · exact (hmovedr.regulate q.isRegulating q.regulateTagCount).trans hmovedq

/-! ## The rounds behind the walks -/

/-- A single step is under way, with the tags `walk` still to regulate. -/
structure Stepping (p : FlvPlayer) (walk : List Tag) : Prop where
  isPlaying : p.isPlaying = true
  stepOneFrame : p.stepOneFrame = true
  isRegulating : p.isRegulating = decide (0 < walk.countP Tag.isVideo)
  regulateTagCount : 0 < walk.countP Tag.isVideo →
    p.regulateTagCount = walk.countP Tag.isVideo

/-- A tag to regulate is taken without being played, if it is a frame at all. -/
theorem Takes.regulated {p q : FlvPlayer} {t : Tag} {call : TagCall} {walk : List Tag}
    (ht : Takes p t call q) (hp : Stepping p (t :: walk))
    (hneed : p.needIFrame = false ∨ t.isKeyFrame = true) :
    Stepping q walk ∧ call.frame? = if t.isFrame then some (t.data, false) else none := by
  have hreg := hp.isRegulating
  have hcount := hp.regulateTagCount
  have hdue : (t.isKeyFrame || !p.needIFrame) = true := by
    rcases hneed with hneed | hkey
    · rw [hneed, Bool.not_false, Bool.or_true]
    · rw [hkey, Bool.true_or]
  rw [List.countP_cons] at hreg hcount
  cases hv : t.isVideo with
  | true =>
    rw [hv, if_pos rfl] at hreg hcount
    have hon : p.isRegulating = true := hreg.trans (decide_eq_true (Nat.succ_pos _))
    have hcount := hcount (Nat.succ_pos _)
    refine ⟨⟨ht.isPlaying.trans hp.isPlaying, ?_, ?_, fun _ => ?_⟩, ?_⟩
    · rw [ht.stepOneFrame, hon, Bool.true_or]
    · have hone : ((walk.countP Tag.isVideo + 1 : Nat) : Int) = 1 ↔
          ¬ 0 < walk.countP Tag.isVideo := by omega
      rw [ht.isRegulating, hon, hv, hcount, beq_eq_decide, Bool.true_and, Bool.true_and,
        decide_eq_decide.mpr hone, decide_not, Bool.not_not]
    · rw [ht.regulateTagCount, hon, hv, hcount, Bool.and_self, if_pos rfl]
      omega
    · rw [ht.frame, hdue, Bool.and_true, hon]
      rfl
  | false =>
    have hframe : t.isFrame = false := by rw [Tag.isFrame, hv, Bool.false_and]
    rw [hv, if_neg (by decide), Nat.add_zero] at hreg hcount
    refine ⟨⟨ht.isPlaying.trans hp.isPlaying, ?_, ?_, fun hpos => ?_⟩, ?_⟩
    · rw [ht.stepOneFrame, hframe, Bool.not_false, Bool.or_true]
    · rw [ht.isRegulating, hv, Bool.false_and, Bool.not_false, Bool.and_true, hreg]
    · rw [ht.regulateTagCount, hv, Bool.and_false, if_neg (by decide), hcount hpos]
    · rw [ht.frame, hframe, Bool.false_and, if_neg (by decide), if_neg (by decide)]

end FlvPlayer

namespace FlvSession
open FlvPlayer

/-- The tags to regulate are taken one a round, and none of their frames is played. -/
theorem feeds_walk {h : SegmentHeader} {walk after : List Tag} {envs : List TagEffects}
    (henvs : ∀ env ∈ envs, env.KeepsHead) (hlen : envs.length = walk.length)
    {before : List Tag} {s : FlvSession} (hfeed : s.feed = .looping)
    (hat : At s.player h before (walk ++ after)) (hstepping : Stepping s.player walk)
    (hneed : s.player.needIFrame = false ∨ ∀ t ∈ walk.head?, t.isKeyFrame = true) :
    ∃ t calls, Runs.exec step s (envs.map .feedRound) = some t ∧ t.calls = s.calls ++ calls ∧
      calls.length = walk.length ∧
      calls.filterMap TagCall.frame? = (walk.filter Tag.isFrame).map (fun x => (x.data, false)) ∧
      t.feed = .looping ∧ At t.player h (before ++ walk) after ∧ Stepping t.player [] ∧
      t.player.needIFrame = (walk.isEmpty && s.player.needIFrame) ∧
      t.player.isPause = s.player.isPause := by
  induction walk generalizing envs before s with
  | nil =>
    obtain rfl := List.eq_nil_of_length_eq_zero hlen
    exact ⟨s, [], rfl, by simp, rfl, rfl, hfeed, by simpa using hat, hstepping, rfl, rfl⟩
  | cons t walk ih =>
    obtain ⟨env, envs, rfl⟩ := List.exists_cons_of_length_eq_add_one hlen
    have hneed' : s.player.needIFrame = false ∨ t.isKeyFrame = true :=
      hneed.imp_right fun hkey => hkey t rfl
    obtain ⟨call, q, hround, htakes, hq⟩ :=
      hat.takes hstepping.isPlaying hstepping.stepOneFrame (henvs env (by simp))
    obtain ⟨hrest, hframe⟩ := htakes.regulated hstepping hneed'
    have hqNeed := htakes.needIFrame hneed'
    obtain ⟨u, calls, hexec, hcalls, hlength, hframes, hloop, hu, hend, hnone, hpause⟩ :=
      ih (fun e he => henvs e (List.mem_cons_of_mem _ he)) (Nat.succ.inj hlen)
        (s := { s with player := q, calls := s.calls ++ [call] }) hfeed hq hrest (.inl hqNeed)
    refine ⟨u, call :: calls, ?_, ?_, ?_, ?_, hloop, ?_, hend, ?_, hpause.trans htakes.isPause⟩
    · rw [List.map_cons, Runs.exec_cons, step_feedRound hfeed hround]
      exact hexec
    · rw [hcalls, List.append_assoc, List.singleton_append]
    · rw [List.length_cons, hlength, List.length_cons]
    · rw [List.filterMap_cons, hframe, hframes, List.filter_cons]
      cases t.isFrame with
      | true => rfl
      | false => rfl
    · rw [List.append_cons]
      exact hu
    · rw [hnone, show ({ s with player := q, calls := s.calls ++ [call] } :
        FlvSession).player.needIFrame = false from hqNeed, Bool.and_false]
      rfl

/-! ## Frames by number -/

theorem filter_eq_nil_of {l : List Tag} (h : ∀ t ∈ l, t.isFrame = false) :
    l.filter Tag.isFrame = [] := by
  refine List.filter_eq_nil_iff.mpr fun t ht => ?_
  rw [h t ht]
  decide

/-- The frames of the tags that lead to a frame lead to it. -/
theorem leads_filter {walk : List Tag} {target : Tag} (h : Leads walk target) :
    Leads (walk.filter Tag.isFrame) target := by
  cases h with
  | here htarget => exact .here htarget
  | back hkey hrest htarget =>
    rw [List.filter_cons, if_pos (Tag.isFrame_of_isKeyFrame hkey)]
    exact .back hkey (fun t ht => hrest t (List.mem_filter.mp ht).1) htarget

/-- Tags with `k` frames, an I frame among the first `k - 1`: the frame `k - 1`, and the
tags that lead to it. -/
theorem exists_leads {tags : List Tag} {k : Nat} (hk : (tags.filter Tag.isFrame).length = k)
    (hkey : ∃ t ∈ (tags.filter Tag.isFrame).take (k - 1), t.isKeyFrame = true) :
    ∃ before walk target mid, tags = before ++ walk ++ target :: mid ∧ target.isFrame = true ∧
      mid.countP Tag.isFrame = 1 ∧ Leads walk target ∧
      (tags.filter Tag.isFrame).take (k - 1) =
        before.filter Tag.isFrame ++ walk.filter Tag.isFrame ++ [target] := by
  -- there are two frames at least: the last, and the one in front of it
  have htwo : 2 ≤ k := by
    obtain ⟨t, ht, _⟩ := hkey
    have hpos := List.length_pos_of_mem ht
    rw [List.length_take] at hpos
    omega
  obtain ⟨front, last, back, rfl, hlast, hback⟩ := exists_last (P := Tag.isFrame) (l := tags) (by
    obtain ⟨t, ht⟩ := List.exists_mem_of_length_pos (l := tags.filter Tag.isFrame) (by omega)
    exact ⟨t, (List.mem_filter.mp ht).1, (List.mem_filter.mp ht).2⟩)
  rw [List.filter_append, List.filter_cons, if_pos hlast, filter_eq_nil_of hback] at hk hkey ⊢
  rw [List.length_append, List.length_singleton] at hk
  obtain ⟨front, target, mid, rfl, htarget, hmid⟩ := exists_last (P := Tag.isFrame) (l := front) (by
    obtain ⟨t, ht⟩ := List.exists_mem_of_length_pos (l := front.filter Tag.isFrame) (by omega)
    exact ⟨t, (List.mem_filter.mp ht).1, (List.mem_filter.mp ht).2⟩)
  have hmidFrames : (mid ++ last :: back).countP Tag.isFrame = 1 := by
    rw [List.countP_eq_length_filter, List.filter_append, List.filter_cons, if_pos hlast,
      filter_eq_nil_of hmid, filter_eq_nil_of hback]
    rfl
  have hfront : (front ++ target :: mid).filter Tag.isFrame =
      front.filter Tag.isFrame ++ [target] := by
    rw [List.filter_append, List.filter_cons, if_pos htarget, filter_eq_nil_of hmid]
  rw [hfront] at hk hkey ⊢
  rw [List.take_left' (by omega)] at hkey ⊢
  obtain ⟨before, walk, rfl, hleads⟩ :
      ∃ before walk, front = before ++ walk ∧ Leads walk target := by
    obtain ⟨t, ht, htKey⟩ := hkey
    refine leads_of_keyFrame ⟨t, ?_, htKey⟩
    rcases List.mem_append.mp ht with ht | ht
    · exact List.mem_append_left _ (List.mem_filter.mp ht).1
    · exact List.mem_append_right _ ht
  exact ⟨before, walk, target, mid ++ last :: back, by simp, htarget, hmidFrames, hleads,
    by rw [List.filter_append]⟩

/-! ## One frame back -/

/-- A step back from behind frame `k` of a segment plays frame `k - 1`: it decodes the
frames from the nearest I frame on without playing them, and leaves the cursor behind
the frame it played, with no seek under way and the loop waiting. -/
def ShowsPrevious (h : SegmentHeader) (before after : List Tag) (k : Nat) (s : FlvSession) :
    Prop :=
  ∃ fuel n earlier lead target before' after',
    before ++ after = before' ++ target :: after' ∧
    ((before ++ after).filter Tag.isFrame).take (k - 1) = earlier ++ lead ++ [target] ∧
    before'.filter Tag.isFrame = earlier ++ lead ∧ Leads lead target ∧
    -- whatever the callbacks do, every round up to there takes a tag
    ∀ envs : List TagEffects, envs.length = n → (∀ env ∈ envs, env.KeepsHead) →
      ∃ t calls, Runs.exec step s (.stepOneFrameBackward fuel :: envs.map .feedRound) = some t ∧
        t.calls = s.calls ++ calls ∧ calls.length = n ∧
        calls.filterMap TagCall.frame? =
          lead.map (fun x => (x.data, false)) ++ [(target.data, true)] ∧
        NoSeek t.player ∧ At t.player h (before' ++ [target]) after' ∧
        ∀ env, t.player.feedRound env = .wait

/-- Behind frame `k`, with an I frame at or before frame `k - 1`, a step back plays frame
`k - 1`. -/
theorem stepOneFrameBackward_shows {h : SegmentHeader} {before after : List Tag} {k : Nat}
    (hsized : ∀ t ∈ before, t.Sized) (hk : (before.filter Tag.isFrame).length = k)
    (hkey : ∃ t ∈ ((before ++ after).filter Tag.isFrame).take (k - 1), t.isKeyFrame = true)
    {s : FlvSession} (hfeed : s.feed = .looping) (hat : At s.player h before after)
    (hplaying : s.player.isPlaying = true) (hreg : s.player.isRegulating = false) :
    ShowsPrevious h before after k s := by
  have htake : ((before ++ after).filter Tag.isFrame).take (k - 1) =
      (before.filter Tag.isFrame).take (k - 1) := by
    rw [List.filter_append, List.take_append_of_le_length (by omega)]
  unfold ShowsPrevious
  rw [htake] at hkey ⊢
  obtain ⟨front, walk, target, mid, rfl, htarget, hmid, hleads, hframes⟩ := exists_leads hk hkey
  have hpaused : At { s.player with isPause := true } h (front ++ walk ++ target :: mid) after :=
    ⟨hat.readsAt, hat.curIdx, hat.totalBytes, hat.long⟩
  obtain ⟨fuel, q, hback, hq, hqReg, hqCount, hmoved⟩ := stepByFrame_back
    (fun t ht => hsized t (by
      simp only [List.append_assoc, List.mem_append] at ht ⊢
      exact .inr ht)) htarget hmid hleads hpaused hreg
  refine ⟨fuel, walk.length + 1, front.filter Tag.isFrame, walk.filter Tag.isFrame, target,
    front ++ walk, mid ++ after, by simp, hframes, List.filter_append .., leads_filter hleads, ?_⟩
  intro envs hlen henvs
  obtain ⟨es, env, rfl⟩ : ∃ es env, envs = es ++ [env] := by
    have hne : envs ≠ [] := List.ne_nil_of_length_eq_add_one hlen
    exact ⟨envs.dropLast, envs.getLast hne, (List.dropLast_concat_getLast hne).symm⟩
  have hlenEs : es.length = walk.length := by simpa using hlen
  let s' : FlvSession := { s with player := { q with stepOneFrame := true } }
  have hstart : step s (.stepOneFrameBackward fuel) = some s' := by
    simp only [step, stepOneFrameBackward]
    rw [if_pos hplaying]
    exact Option.bind_eq_some_iff.mpr ⟨q, hback, rfl⟩
  have hstepping : Stepping s'.player walk :=
    ⟨hmoved.isPlaying.trans hplaying, rfl, hqReg, hqCount⟩
  have hfirst : ∀ t ∈ walk.head?, t.isKeyFrame = true := by
    cases hleads with
    | here _ => simp
    | back hkeyFrame _ _ =>
      rintro t ⟨⟩
      exact hkeyFrame
  obtain ⟨t, calls, hexec, hcalls, hlength, hplayed, hloop, ht, hend, hneed, hpause⟩ :=
    feeds_walk (s := s') (fun e he => henvs e (List.mem_append_left _ he)) hlenEs hfeed
      ⟨hq.readsAt, hq.curIdx, hq.totalBytes, hq.long⟩ hstepping (.inr hfirst)
  -- the target is played, and ends the single step
  obtain ⟨call, r, hround, htakes, hr⟩ :=
    ht.takes hend.isPlaying hend.stepOneFrame (henvs env (by simp))
  have hoff : t.player.isRegulating = false := hend.isRegulating
  have hdue : (target.isFrame && (target.isKeyFrame || !t.player.needIFrame)) = true := by
    rw [htarget, hneed]
    cases hleads with
    | here htargetKey => rw [htargetKey]; rfl
    | back _ _ _ => simp
  have hlast : call.frame? = some (target.data, true) := by
    rw [htakes.frame, if_pos hdue, hoff]
    rfl
  have hnoSeek : NoSeek r := by
    refine ⟨?_, ?_⟩
    · rw [htakes.isRegulating, hoff, Bool.false_and]
    · rw [htakes.stepOneFrame, hoff, htarget]
      rfl
  refine ⟨{ t with player := r, calls := t.calls ++ [call] }, calls ++ [call], ?_, ?_, ?_, ?_,
    hnoSeek, hr, fun env => ?_⟩
  · rw [Runs.exec_cons, hstart, Option.bind_some, List.map_append, Runs.exec_append, hexec,
      Option.bind_some, List.map_singleton, Runs.exec_cons, step_feedRound hloop hround]
    rfl
  · rw [hcalls, List.append_assoc]
  · rw [List.length_append, hlength, List.length_singleton]
  · rw [List.filterMap_append, hplayed, List.filterMap_cons, hlast, List.filterMap_nil]
  · have hrPause : r.isPause = true := (htakes.isPause.trans hpause).trans hmoved.isPause
    rw [FlvPlayer.feedRound, if_neg (by rw [htakes.isPlaying, hend.isPlaying]; decide),
      if_pos (by rw [hrPause, hnoSeek.2]; rfl)]

/-- A frame that is no I frame. -/
def interFrame : Tag where
  typeByte := 0x09
  size₀ := 0x00
  size₁ := 0x00
  size₂ := 0x0A
  stamp := [0x00, 0x00, 0x28, 0x00, 0x00, 0x00, 0x00]
  data := [0x27, 0x01, 0x00, 0x00, 0x00, 0x00, 0x00, 0x00, 0x01, 0x41]
  previous := keyFrame.previous
  type_known := keyFrame.type_known
  size_eq := by decide
  stamp_length := rfl
  data_long := by decide
  data_short := by decide
  previous_length := keyFrame.previous_length

/-- An audio block of one byte. -/
def audioBlock : Tag where
  typeByte := 0x08
  size₀ := 0x00
  size₁ := 0x00
  size₂ := 0x03
  stamp := [0x00, 0x00, 0x14, 0x00, 0x00, 0x00, 0x00]
  data := [0xAF, 0x01, 0x21]
  previous := [0x00, 0x00, 0x00, 0x0E]
  type_known := by decide
  size_eq := by decide
  stamp_length := rfl
  data_long := by decide
  data_short := by decide
  previous_length := rfl

def gop : Segment where
  header := keyFrameSegment.header
  tags := [keyFrame, audioBlock, interFrame, interFrame]

/-- Three frames are played, and the player is paused. -/
def playThree : List Event :=
  [.setFilePath (some gop.bytes), .start, .feedBegin, .feedRound ⟨[], id⟩, .feedRound ⟨[], id⟩,
    .feedRound ⟨[], id⟩, .feedRound ⟨[], id⟩, .feedRound ⟨[], id⟩, .pause]

theorem stepOneFrameBackward_shows_gop :
    ∃ s, Runs.exec step (init (FlvPlayer.opened [])) playThree = some s ∧
      ShowsPrevious gop.header gop.tags [] 3 s := by
  have hrun : ∃ s, Runs.exec step (init (FlvPlayer.opened [])) playThree = some s ∧
      s.feed = .looping ∧ At s.player gop.header gop.tags [] ∧ s.player.isPlaying = true ∧
      s.player.isRegulating = false := ⟨_, rfl, rfl, ⟨rfl, rfl, rfl, by decide⟩, rfl, rfl⟩
  obtain ⟨s, hexec, hfeed, hat, hplaying, hreg⟩ := hrun
  refine ⟨s, hexec, stepOneFrameBackward_shows ?_ rfl ⟨keyFrame, ?_, rfl⟩ hfeed hat hplaying hreg⟩
  · intro t ht
    simp only [gop, List.mem_cons, List.not_mem_nil, or_false] at ht
    rcases ht with rfl | rfl | rfl | rfl
    · rfl
    · rfl
    · rfl
    · rfl
  · show keyFrame ∈ [keyFrame, interFrame]
    exact List.mem_cons_self

end FlvSession

end MiniSurveillance
