import MiniSurveillance.FlvForward

/-!
# Stepping through a recording frame by frame

The two single-frame buttons move the picture by one frame, and stand still at either end
of the recording. A click is complete when the feed loop waits again.

* `stepByFrame_first`: behind the first frame the walk back ends at the first tag.
* `feeds_skip`, `feeds_shows`: the rounds behind a click, up to the frame that is shown.
* `click_completes`: a click, from behind any frame, by the frame it stands behind.
* `clicks_show`: any number of clicks move a counter between 1 and the number of frames,
  and the frames shown are those it counts to.
-/

namespace MiniSurveillance
open Bytes Loops

namespace FlvPlayer

variable {p : FlvPlayer} {h : SegmentHeader} {before after : List Tag}

/-! ## Back from the first frame -/

/-- With too few frames behind it the first loop walks back to the first tag. -/
theorem counts_first {n : Nat} (hsized : ∀ t ∈ before, t.Sized) (hne : before ≠ [])
    (hfew : before.countP Tag.isFrame ≤ n) (hp : At p h before after) :
    ∃ q, Ends (countRound (-1)) (n + 1, p) q ∧ At q h [] (before ++ after) ∧ Moved p q := by
  induction before using List.reverseRecOn generalizing p after n with
  | nil => exact absurd rfl hne
  | append_singleton before t ih =>
    obtain ⟨hback, hmoved, hshows⟩ := hp.back (hsized t (by simp))
    have hround := countRound_eq (-1) (n + 1, p)
    rw [if_neg (by simp), show (countStep (-1) (n + 1, p)).2 = p.back from rfl, hback.atEnd,
      Bool.false_or] at hround
    rcases List.eq_nil_or_concat before with rfl | hlong
    · rw [hback.atFirstTag, if_pos rfl] at hround
      exact ⟨p.back, ends_inr hround, hback, hmoved⟩
    · have hbefore : before ≠ [] := by
        obtain ⟨front, last, rfl⟩ := hlong
        simp
      rw [hback.not_atFirstTag hbefore, if_neg (by decide)] at hround
      -- the tag may be one of the frames counted, never the last of them
      obtain ⟨m, hm, hrest⟩ : ∃ m, countStep (-1) (n + 1, p) = (m + 1, p.back) ∧
          before.countP Tag.isFrame ≤ m := by
        rw [List.countP_append, List.countP_singleton] at hfew
        have hstep : countStep (-1) (n + 1, p) =
            (if p.back.onFrame then n else n + 1, p.back) := rfl
        rw [hback.onFrame hshows] at hstep
        cases ht : t.isFrame with
        | true =>
          rw [ht, if_pos rfl] at hfew hstep
          exact ⟨n - 1, by rw [hstep, Nat.sub_add_cancel (by omega)], by omega⟩
        | false =>
          rw [ht] at hfew hstep
          exact ⟨n, hstep, hfew⟩
      rw [hm] at hround
      obtain ⟨q, hends, hq, hmovedq⟩ := ih (fun x hx => hsized x (List.mem_append_left _ hx))
        hbefore hrest hback
      exact ⟨q, (ends_inl_iff hround).mpr hends, by simpa using hq, hmoved.trans hmovedq⟩

/-- Behind the first frame `step_by_frame(-1)` goes to the first tag, and leaves nothing to
regulate. -/
theorem stepByFrame_first (hsized : ∀ t ∈ before, t.Sized)
    (hone : before.countP Tag.isFrame = 1) (hp : At p h before after)
    (hreg : p.isRegulating = false) :
    ∃ fuel q, stepByFrame fuel p (-1) = some q ∧ At q h [] (before ++ after) ∧
      q.isRegulating = false ∧ q.isPlaying = p.isPlaying ∧ q.isPause = p.isPause := by
  have hne : before ≠ [] := by
    rintro rfl
    cases hone
  have hbegin : At { p with isRegulating := true } h before after :=
    ⟨hp.readsAt, hp.curIdx, hp.totalBytes, hp.long⟩
  obtain ⟨r, ⟨n, hcount⟩, hr, hmoved⟩ := counts_first hsized hne (Nat.le_of_eq hone) hbegin
  obtain ⟨first, rest, hfirst⟩ := List.exists_cons_of_ne_nil
    (show before ++ after ≠ [] by simp [hne])
  have hr' := hr
  rw [hfirst] at hr'
  have hwalks : ∀ fuel, n ≤ fuel → stepByFrame fuel p (-1) = backToKeyFrame fuel r := by
    intro fuel hle
    rw [stepByFrame_walks (by rw [hreg]; decide) (by decide)]
    have hrun := run_mono hcount hle
    refine (congrArg (Option.bind · _) hrun).trans ?_
    rw [Option.bind_some, backToVideo, if_neg (by rw [hr'.atEnd]; decide), Option.bind_some]
  obtain ⟨hlook, hmovedl, _⟩ := hr'.look
  rw [← hfirst] at hlook
  have hplaying : r.look.isPlaying = p.isPlaying := hmovedl.isPlaying.trans hmoved.isPlaying
  have hpause : r.look.isPause = p.isPause := hmovedl.isPause.trans hmoved.isPause
  cases hkey : (r.move 0).2.2 with
  | true =>
    have hvideo : (r.move 0).2.1 = tagVideo := by
      rw [move_isIFrame, onKeyFrame, Bool.and_eq_true, Bool.and_eq_true] at hkey
      exact (move_type 0 r).mpr hkey.1.1
    refine ⟨n, { r.look with isRegulating := false }, ?_, ?_, rfl, hplaying, hpause⟩
    · rw [hwalks n le_rfl, backToKeyFrame]
      exact if_pos ⟨hvideo, hkey⟩
    · exact ⟨hlook.readsAt, hlook.curIdx, hlook.totalBytes, hlook.long⟩
  | false =>
    -- the third loop ends where it starts, and an I frame is waited for
    have hq : At { r.look with regulateTagCount := 0 } h [] (before ++ after) := hlook.regulate 0
    obtain ⟨m, hrun⟩ : Ends keyFrameRound (false, { r.look with regulateTagCount := 0 })
        (false, { r.look with regulateTagCount := 0 }) := by
      refine ends_inr ?_
      rw [keyFrameRound_eq, if_pos hq.atFirstTag]
    refine ⟨n + m,
      { r.look with regulateTagCount := 0, needIFrame := true, isRegulating := false }, ?_,
      ⟨hlook.readsAt, hlook.curIdx, hlook.totalBytes, hlook.long⟩, rfl, hplaying, hpause⟩
    rw [hwalks _ (Nat.le_add_right n m), backToKeyFrame]
    dsimp only
    rw [hkey, if_neg (by simp)]
    exact Option.bind_eq_some_iff.mpr ⟨_, run_mono hrun (Nat.le_add_left m n), rfl⟩

end FlvPlayer

namespace FlvSession
open FlvPlayer

variable {h : SegmentHeader}

/-! ## The rounds behind a click -/

/-- The tags in front of the next frame are taken, and the single step goes on. -/
theorem feeds_skip {skip after : List Tag} {envs : List TagEffects}
    (henvs : ∀ env ∈ envs, env.KeepsHead) (hlen : envs.length = skip.length)
    (hskip : ∀ t ∈ skip, t.isFrame = false) {before : List Tag} {s : FlvSession}
    (hfeed : s.feed = .looping) (hat : At s.player h before (skip ++ after))
    (hstepping : Stepping s.player []) :
    ∃ t calls, Runs.exec step s (envs.map .feedRound) = some t ∧ t.calls = s.calls ++ calls ∧
      calls.filterMap TagCall.frame? = [] ∧ t.feed = .looping ∧
      At t.player h (before ++ skip) after ∧ Stepping t.player [] ∧
      (s.player.needIFrame = false → t.player.needIFrame = false) ∧
      t.player.isPause = s.player.isPause := by
  induction skip generalizing envs before s with
  | nil =>
    obtain rfl := List.eq_nil_of_length_eq_zero hlen
    exact ⟨s, [], rfl, by simp, rfl, hfeed, by simpa using hat, hstepping, id, rfl⟩
  | cons t skip ih =>
    obtain ⟨env, envs, rfl⟩ := List.exists_cons_of_length_eq_add_one hlen
    obtain ⟨hother, hskip⟩ := List.forall_mem_cons.mp hskip
    obtain ⟨call, q, hround, htakes, hq⟩ :=
      hat.takes hstepping.isPlaying hstepping.stepOneFrame (henvs env (by simp))
    have hoff : s.player.isRegulating = false := hstepping.isRegulating
    have hqStepping : Stepping q [] :=
      ⟨htakes.isPlaying.trans hstepping.isPlaying,
        by rw [htakes.stepOneFrame, hother, Bool.or_comm]; rfl,
        by rw [htakes.isRegulating, hoff]; rfl, fun hpos => absurd hpos (Nat.lt_irrefl 0)⟩
    obtain ⟨u, calls, hexec, hcalls, hframes, hloop, hu, hend, hneed, hpause⟩ :=
      ih (fun e he => henvs e (List.mem_cons_of_mem _ he)) (Nat.succ.inj hlen) hskip
        (s := { s with player := q, calls := s.calls ++ [call] }) hfeed hq hqStepping
    refine ⟨u, call :: calls, ?_, ?_, ?_, hloop, ?_, hend, fun hnone => ?_,
      hpause.trans htakes.isPause⟩
    · rw [List.map_cons, Runs.exec_cons, step_feedRound hfeed hround]
      exact hexec
    · rw [hcalls, List.append_assoc, List.singleton_append]
    · rw [List.filterMap_cons, htakes.frame, hother, Bool.false_and, if_neg (by decide)]
      exact hframes
    · rw [List.append_cons]
      exact hu
    · exact hneed (htakes.needIFrame (.inl hnone))

/-- The data of the frames that were played, as they were handed on. -/
def played (calls : List TagCall) : List (List UInt8) :=
  (calls.filterMap TagCall.frame?).filterMap fun x => if x.2 then some x.1 else none

theorem played_append (calls calls' : List TagCall) :
    played (calls ++ calls') = played calls ++ played calls' := by
  simp [played]

/-- The loop waits: every further round leaves the session as it is. -/
def Waits (s : FlvSession) : Prop := ∀ env, s.player.feedRound env = .wait

/-- A click behind which the loop waits in front of the tags `walk` to regulate, other tags
and a frame plays that frame. -/
theorem feeds_shows {before walk skip after : List Tag} {target : Tag} {envs : List TagEffects}
    (henvs : ∀ env ∈ envs, env.KeepsHead) (hlen : envs.length = walk.length + skip.length + 1)
    (hskip : ∀ t ∈ skip, t.isFrame = false) (htarget : target.isFrame = true) {s : FlvSession}
    (hfeed : s.feed = .looping) (hpause : s.player.isPause = true)
    (hat : At s.player h before (walk ++ (skip ++ target :: after)))
    (hstepping : Stepping s.player walk)
    (hneed : s.player.needIFrame = false ∨
      ∀ t ∈ (walk ++ [target]).head?, t.isKeyFrame = true) :
    ∃ t calls, Runs.exec step s (envs.map .feedRound) = some t ∧ t.calls = s.calls ++ calls ∧
      played calls = [target.data] ∧ t.feed = .looping ∧
      At t.player h (before ++ walk ++ skip ++ [target]) after ∧ t.player.isPlaying = true ∧
      t.player.needIFrame = false ∧ NoSeek t.player ∧ Waits t := by
  obtain ⟨es, rest, rfl, hes⟩ : ∃ es rest, envs = es ++ rest ∧ es.length = walk.length :=
    ⟨envs.take walk.length, envs.drop walk.length, (List.take_append_drop ..).symm,
      by rw [List.length_take]; omega⟩
  obtain ⟨fs, env, rfl⟩ : ∃ fs env, rest = fs ++ [env] := by
    have hne : rest ≠ [] := by
      rintro rfl
      rw [List.append_nil] at hlen
      omega
    exact ⟨rest.dropLast, rest.getLast hne, (List.dropLast_concat_getLast hne).symm⟩
  have hfs : fs.length = skip.length := by
    simp only [List.length_append, List.length_singleton] at hlen
    omega
  have hwalkNeed : s.player.needIFrame = false ∨ ∀ t ∈ walk.head?, t.isKeyFrame = true :=
    hneed.imp_right fun hkey t ht => hkey t (by cases walk with
      | nil => cases ht
      | cons => exact ht)
  obtain ⟨t, calls, hexec, hcalls, -, hplayed, hloop, ht, htStepping, htNeed, htPause⟩ :=
    feeds_walk (fun e he => henvs e (List.mem_append_left _ he)) hes hfeed hat hstepping hwalkNeed
  obtain ⟨u, more, hexec', hmore, hnone, huLoop, hu, huStepping, huNeed, huPause⟩ :=
    feeds_skip (fun e he => henvs e (List.mem_append_right _ (List.mem_append_left _ he))) hfs hskip
      hloop ht htStepping
  -- the frame is played, and ends the single step
  obtain ⟨call, q, hround, htakes, hq⟩ :=
    hu.takes huStepping.isPlaying huStepping.stepOneFrame (henvs env (by simp))
  have hoff : u.player.isRegulating = false := huStepping.isRegulating
  have hdue : u.player.needIFrame = false ∨ target.isKeyFrame = true := by
    rcases hneed with hneed | hkey
    · exact .inl (huNeed (by rw [htNeed, hneed, Bool.and_false]))
    · cases walk with
      | nil => exact .inr (hkey target rfl)
      | cons => exact .inl (huNeed (by rw [htNeed]; rfl))
  have hframe : call.frame? = some (target.data, true) := by
    have htest : (target.isFrame && (target.isKeyFrame || !u.player.needIFrame)) = true := by
      rcases hdue with hdue | hdue
      · rw [htarget, hdue, Bool.not_false, Bool.or_true]
        rfl
      · rw [htarget, hdue]
        rfl
    rw [htakes.frame, if_pos htest, hoff]
    rfl
  have hnoSeek : NoSeek q := by
    refine ⟨?_, ?_⟩
    · rw [htakes.isRegulating, hoff, Bool.false_and]
    · rw [htakes.stepOneFrame, hoff, htarget]
      rfl
  have hqPause : q.isPause = true := htakes.isPause.trans (huPause.trans (htPause.trans hpause))
  have hqPlaying : q.isPlaying = true := htakes.isPlaying.trans huStepping.isPlaying
  refine ⟨{ u with player := q, calls := u.calls ++ [call] }, calls ++ (more ++ [call]),
    ?_, ?_, ?_, huLoop, hq, hqPlaying, htakes.needIFrame hdue, hnoSeek, fun env => ?_⟩
  · rw [List.map_append, List.map_append, Runs.exec_append, hexec, Option.bind_some,
      Runs.exec_append, hexec', Option.bind_some, List.map_singleton, Runs.exec_cons,
      step_feedRound huLoop hround]
    rfl
  · show u.calls ++ [call] = _
    rw [hmore, hcalls, List.append_assoc, List.append_assoc]
  · have hsilent : played calls = [] := by
      rw [played, hplayed, List.filterMap_map]
      exact List.filterMap_eq_nil_iff.mpr fun _ _ => rfl
    rw [played_append, played_append, hsilent, List.nil_append]
    show played more ++ played [call] = _
    rw [played, hnone, played, List.filterMap_cons, hframe]
    rfl
  · rw [FlvPlayer.feedRound, if_neg (by rw [hqPlaying]; decide),
      if_pos (by rw [hqPause, hnoSeek.2]; rfl)]

/-! ## Clicks -/

/-- A click on one of the two single-frame buttons. -/
inductive Click
  | forward
  | backward
deriving DecidableEq, Repr

namespace Click

/-- What the click calls. -/
def event (fuel : Nat) : Click → Event
  | forward => .stepOneFrameForward
  | backward => .stepOneFrameBackward fuel

/-- The frame shown behind a click, of `n` frames, where frame `k` is shown before it. -/
def next (n k : Nat) : Click → Nat
  | forward => min (k + 1) n
  | backward => max (k - 1) 1

/-- What the click plays of the frames: the next one, if there is one; the one before, or
the first one again. -/
def shows (frames : List Tag) (k : Nat) : Click → List Tag
  | forward => (frames.drop k).take 1
  | backward => (frames.drop (k - 2)).take 1

end Click

/-- The cursor stands behind frame `k` and in front of the next one, no walk is under way
and no I frame is waited for. -/
structure Behind (s : FlvSession) (h : SegmentHeader) (tags : List Tag) (k : Nat) : Prop where
  feed : s.feed = .looping
  isPlaying : s.player.isPlaying = true
  isRegulating : s.player.isRegulating = false
  needIFrame : s.player.needIFrame = false
  first : 1 ≤ k
  stands : ∃ before after, tags = before ++ after ∧ before.countP Tag.isFrame = k ∧
    At s.player h before after

/-- The click completes, whatever the callbacks do: behind some number of rounds the loop
waits, and then `P` holds. -/
def Completes (s : FlvSession) (c : Click) (P : FlvSession → Prop) : Prop :=
  ∃ fuel n, ∀ envs : List TagEffects, envs.length = n → (∀ env ∈ envs, env.KeepsHead) →
    ∃ t, Runs.exec step s (c.event fuel :: envs.map .feedRound) = some t ∧ Waits t ∧ P t

/-- A click that leaves `walk` to regulate in front of other tags and a frame plays that
frame. -/
theorem completes_shows {tags : List Tag} (front walk skip after : List Tag) {target : Tag}
    {s t : FlvSession} {c : Click} {fuel k : Nat} (hclick : step s (c.event fuel) = some t)
    (hcalls : t.calls = s.calls) (htags : tags = front ++ walk ++ skip ++ target :: after)
    (hk : (front ++ walk ++ skip).countP Tag.isFrame + 1 = k)
    (hskip : ∀ t ∈ skip, t.isFrame = false) (htarget : target.isFrame = true)
    (hfeed : t.feed = .looping) (hpause : t.player.isPause = true)
    (hat : At t.player h front (walk ++ (skip ++ target :: after)))
    (hstepping : Stepping t.player walk)
    (hneed : t.player.needIFrame = false ∨
      ∀ t ∈ (walk ++ [target]).head?, t.isKeyFrame = true) :
    Completes s c fun u =>
      Behind u h tags k ∧ played u.calls = played s.calls ++ [target.data] := by
  refine ⟨fuel, walk.length + skip.length + 1, fun envs hlen henvs => ?_⟩
  obtain ⟨u, calls, hexec, hucalls, hplayed, hloop, hu, hplaying, hnone, hnoSeek, hwaits⟩ :=
    feeds_shows henvs hlen hskip htarget hfeed hpause hat hstepping hneed
  have hcount : (front ++ walk ++ skip ++ [target]).countP Tag.isFrame = k := by
    rw [List.countP_append, List.countP_singleton, if_pos htarget, hk]
  refine ⟨u, ?_, hwaits,
    ⟨hloop, hplaying, hnoSeek.1, hnone, by omega, _, after, ?_, hcount, hu⟩, ?_⟩
  · rw [Runs.exec_cons, hclick]
    exact hexec
  · rw [htags, List.append_assoc _ [target], List.singleton_append]
  · rw [hucalls, hcalls, played_append, hplayed]

/-- A click ahead from behind frame `k`. -/
theorem forward_completes {tags : List Tag} {k : Nat} {s : FlvSession} (hs : Behind s h tags k) :
    Completes s .forward fun t =>
      Behind t h tags (Click.next (tags.countP Tag.isFrame) k .forward) ∧
      played t.calls = played s.calls ++
        (Click.shows (tags.filter Tag.isFrame) k .forward).map (·.data) := by
  obtain ⟨before, after, rfl, hcount, hat⟩ := hs.stands
  let p : FlvPlayer := { s.player with isPause := true, stepOneFrame := true }
  have hclick : step s (Click.event 0 .forward) = some { s with player := p } := by
    show some s.stepOneFrameForward = _
    rw [stepOneFrameForward, if_pos hs.isPlaying]
  have hp : At p h before after := ⟨hat.readsAt, hat.curIdx, hat.totalBytes, hat.long⟩
  have hstepping : Stepping p [] :=
    ⟨hs.isPlaying, rfl, hs.isRegulating, fun hpos => absurd hpos (Nat.lt_irrefl 0)⟩
  have hlength : (before.filter Tag.isFrame).length = k := by
    rw [← hcount, List.countP_eq_length_filter]
  rw [Click.next, Click.shows, List.filter_append, List.countP_append, hcount,
    List.drop_left' hlength]
  cases hnext : after.find? Tag.isFrame with
  | some target =>
    obtain ⟨htarget, skip, rest, rfl, hskip⟩ := List.find?_eq_some_iff_append.mp hnext
    have hskip : ∀ t ∈ skip, t.isFrame = false := fun t ht => by simpa using hskip t ht
    have hnone := filter_eq_nil_of hskip
    have hmore : (skip ++ target :: rest).countP Tag.isFrame = rest.countP Tag.isFrame + 1 := by
      rw [List.countP_append, List.countP_eq_length_filter, hnone, List.countP_cons_of_pos htarget]
      simp
    rw [List.filter_append, hnone, List.nil_append, List.filter_cons_of_pos htarget, hmore,
      Nat.min_eq_left (by omega)]
    refine completes_shows _ [] skip rest hclick rfl (by simp) ?_ hskip htarget hs.feed rfl hp
      hstepping (.inl hs.needIFrame)
    rw [List.append_nil, List.countP_append, hcount, List.countP_eq_length_filter, hnone]
    rfl
  | none =>
    have hskip : ∀ t ∈ after, t.isFrame = false := fun t ht => by
      simpa using List.find?_eq_none.mp hnext t ht
    have hnone := filter_eq_nil_of hskip
    have hcountNone : after.countP Tag.isFrame = 0 := by
      rw [List.countP_eq_length_filter, hnone]
      rfl
    have hmin : min (k + 1) (k + 0) = k := by omega
    rw [hnone, hcountNone, hmin]
    refine ⟨0, after.length, fun envs hlen henvs => ?_⟩
    obtain ⟨t, calls, hexec, hcalls, hframes, hloop, ht, hend, hneed, -⟩ :=
      feeds_skip (s := { s with player := p }) henvs hlen hskip hs.feed
        (by rwa [List.append_nil]) hstepping
    refine ⟨t, ?_, ht.waits_end hend.isPlaying, ⟨hloop, hend.isPlaying, hend.isRegulating,
      hneed hs.needIFrame, hs.first, before ++ after, [], (List.append_nil _).symm, ?_, ht⟩, ?_⟩
    · rw [Runs.exec_cons, hclick]
      exact hexec
    · rw [List.countP_append, hcount, hcountNone]
      rfl
    · rw [hcalls, played_append]
      simp [played, hframes]

/-- A click back from behind frame `k`. -/
theorem backward_completes {tags : List Tag} {k : Nat} (hsized : ∀ t ∈ tags, t.Sized)
    (hfirst : ∀ t ∈ (tags.filter Tag.isFrame).head?, t.isKeyFrame = true) {s : FlvSession}
    (hs : Behind s h tags k) :
    Completes s .backward fun t =>
      Behind t h tags (Click.next (tags.countP Tag.isFrame) k .backward) ∧
      played t.calls = played s.calls ++
        (Click.shows (tags.filter Tag.isFrame) k .backward).map (·.data) := by
  obtain ⟨before, after, rfl, hcount, hat⟩ := hs.stands
  have hsizedBefore : ∀ t ∈ before, t.Sized := fun t ht => hsized t (List.mem_append_left _ ht)
  have hpaused : At { s.player with isPause := true } h before after :=
    ⟨hat.readsAt, hat.curIdx, hat.totalBytes, hat.long⟩
  have hclick {fuel : Nat} {q : FlvPlayer}
      (hq : stepByFrame fuel { s.player with isPause := true } (-1) = some q) :
      step s (Click.event fuel .backward) =
        some { s with player := { q with stepOneFrame := true } } := by
    show s.stepOneFrameBackward fuel = _
    rw [stepOneFrameBackward, if_pos hs.isPlaying]
    exact Option.bind_eq_some_iff.mpr ⟨q, hq, rfl⟩
  have hk := hs.first
  rw [Click.next, Click.shows]
  rcases Nat.lt_or_ge k 2 with hone | htwo
  · obtain rfl : k = 1 := by omega
    obtain ⟨fuel, q, hwalk, hq, hqReg, hqPlaying, hqPause⟩ :=
      stepByFrame_first hsizedBefore hcount hpaused hs.isRegulating
    -- the first frame is in front of the cursor again
    obtain ⟨target, htarget, skip, rest, hbefore, hskip⟩ :
        ∃ t, t.isFrame = true ∧ ∃ skip rest, before = skip ++ t :: rest ∧
          ∀ t ∈ skip, t.isFrame = false := by
      have hsome : (before.find? Tag.isFrame).isSome = true := by
        rw [List.find?_isSome]
        exact List.countP_pos_iff.mp (by omega)
      obtain ⟨t, ht⟩ := Option.isSome_iff_exists.mp hsome
      obtain ⟨hframe, skip, rest, hbefore, hskip⟩ := List.find?_eq_some_iff_append.mp ht
      exact ⟨t, hframe, skip, rest, hbefore, fun t ht => by simpa using hskip t ht⟩
    have hnone := filter_eq_nil_of hskip
    have hframes : (before ++ after).filter Tag.isFrame =
        target :: (rest ++ after).filter Tag.isFrame := by
      rw [hbefore, List.append_assoc, List.filter_append, hnone, List.nil_append, List.cons_append,
        List.filter_cons_of_pos htarget]
    rw [hframes] at hfirst ⊢
    refine completes_shows [] [] skip (rest ++ after) (hclick hwalk) rfl
      (by simp [hbefore]) ?_ hskip htarget hs.feed hqPause ?_
      ⟨hqPlaying.trans hs.isPlaying, rfl, hqReg, fun hpos => absurd hpos (Nat.lt_irrefl 0)⟩
      (.inr fun t ht => hfirst t ht)
    · rw [List.append_nil, List.nil_append, List.countP_eq_length_filter, hnone]
      rfl
    · rw [hbefore, List.append_assoc, List.cons_append] at hq
      exact ⟨hq.readsAt, hq.curIdx, hq.totalBytes, hq.long⟩
  · have hlength : (before.filter Tag.isFrame).length = k := by
      rw [← hcount, List.countP_eq_length_filter]
    have hkey : ∃ t ∈ (before.filter Tag.isFrame).take (k - 1), t.isKeyFrame = true := by
      obtain ⟨t, frames, hframes⟩ := List.exists_cons_of_length_pos
        (show 0 < (before.filter Tag.isFrame).length by omega)
      rw [List.filter_append, hframes] at hfirst
      refine ⟨t, ?_, hfirst t rfl⟩
      rw [hframes, show k - 1 = k - 2 + 1 by omega]
      exact List.mem_cons_self
    obtain ⟨front, walk, target, mid, rfl, htarget, hmid, hleads, hframes⟩ :=
      exists_leads hlength hkey
    obtain ⟨fuel, q, hwalk, hq, hqReg, hqCount, hmoved⟩ := stepByFrame_back
      (fun t ht => hsizedBefore t (by
        simp only [List.append_assoc, List.mem_append] at ht ⊢
        exact .inr ht)) htarget hmid hleads hpaused hs.isRegulating
    have hearlier : (front.filter Tag.isFrame ++ walk.filter Tag.isFrame).length = k - 2 := by
      have := congrArg List.length hframes
      rw [List.length_take, hlength, List.length_append, List.length_singleton] at this
      omega
    have hshown : (((front ++ walk ++ target :: mid ++ after).filter Tag.isFrame).drop
        (k - 2)).take 1 = [target] := by
      rw [List.filter_append, ← List.take_append_drop (k - 1) (List.filter Tag.isFrame
        (front ++ walk ++ target :: mid)), hframes, List.append_assoc, List.append_assoc _ [target],
        List.drop_left' hearlier]
      rfl
    rw [hshown, Nat.max_eq_left (by omega)]
    refine completes_shows front walk [] (mid ++ after) (hclick hwalk) rfl
      (by simp) ?_ (by simp) htarget hs.feed hmoved.isPause
      ⟨hq.readsAt, hq.curIdx, hq.totalBytes, hq.long⟩
      ⟨hmoved.isPlaying.trans hs.isPlaying, rfl, hqReg, hqCount⟩
      (.inl (hmoved.needIFrame.trans hs.needIFrame))
    rw [List.append_nil, List.countP_eq_length_filter, List.filter_append, hearlier]
    omega

/-- A click shows the next frame or the one before, and completes at either end. -/
theorem click_completes {tags : List Tag} {k : Nat} (hsized : ∀ t ∈ tags, t.Sized)
    (hfirst : ∀ t ∈ (tags.filter Tag.isFrame).head?, t.isKeyFrame = true) {s : FlvSession}
    (hs : Behind s h tags k) (c : Click) :
    Completes s c fun t =>
      Behind t h tags (c.next (tags.countP Tag.isFrame) k) ∧
      played t.calls = played s.calls ++ (c.shows (tags.filter Tag.isFrame) k).map (·.data) := by
  cases c with
  | forward => exact forward_completes hs
  | backward => exact backward_completes hsized hfirst hs

/-! ## A click ends in one way -/

/-- Rounds of a loop that waits change nothing. -/
theorem exec_waits {s t : FlvSession} (hwaits : Waits s) {envs : List TagEffects}
    (h : Runs.exec step s (envs.map .feedRound) = some t) : t = s := by
  induction envs with
  | nil => exact (Option.some.inj h).symm
  | cons env envs ih =>
    rw [List.map_cons, Runs.exec_cons] at h
    obtain ⟨u, hu, h⟩ := Option.bind_eq_some_iff.mp h
    have hloop := (feedRound_of_some hu).1
    have hstep : step s (.feedRound env) = some s := by
      simp [step, feedRound, hloop, hwaits env]
    obtain rfl := Option.some.inj (hstep.symm.trans hu)
    exact ih h

/-- What a click calls does not depend on the fuel. -/
theorem step_click_unique {s t u : FlvSession} {c : Click} {n m : Nat}
    (ht : step s (c.event n) = some t) (hu : step s (c.event m) = some u) : t = u := by
  cases c with
  | forward => exact Option.some.inj (ht.symm.trans hu)
  | backward =>
    simp only [Click.event, step, stepOneFrameBackward] at ht hu
    split at ht
    · next hplaying =>
      rw [if_pos hplaying] at hu
      obtain ⟨p, hp, ht⟩ := Option.bind_eq_some_iff.mp ht
      obtain ⟨q, hq, hu⟩ := Option.bind_eq_some_iff.mp hu
      obtain rfl := stepByFrame_unique hp hq
      exact Option.some.inj (ht.symm.trans hu)
    · next hidle =>
      rw [if_neg hidle] at hu
      exact Option.some.inj (ht.symm.trans hu)

/-- However many rounds a click takes, when the loop waits it has completed. -/
theorem Completes.of_waits {s t : FlvSession} {c : Click} {P : FlvSession → Prop} {fuel : Nat}
    (h : Completes s c P) {envs : List TagEffects} (henvs : ∀ env ∈ envs, env.KeepsHead)
    (hexec : Runs.exec step s (c.event fuel :: envs.map .feedRound) = some t) (ht : Waits t) :
    P t := by
  obtain ⟨fuel', n, h⟩ := h
  -- the rounds that are missing, and those that are made in vain
  let more : List TagEffects := List.replicate (n - envs.length) ⟨[], id⟩
  have hmore : ∀ env ∈ envs.take n ++ more, env.KeepsHead := by
    intro env henv
    rcases List.mem_append.mp henv with henv | henv
    · exact henvs env (List.mem_of_mem_take henv)
    · obtain rfl := List.eq_of_mem_replicate henv
      exact fun m i _ => rfl
  obtain ⟨u, hu, huWaits, hP⟩ := h (envs.take n ++ more)
    (by simp only [List.length_append, List.length_take, more, List.length_replicate]; omega) hmore
  rw [Runs.exec_cons] at hexec hu
  obtain ⟨v, hv, hexec⟩ := Option.bind_eq_some_iff.mp hexec
  obtain ⟨w, hw, hu⟩ := Option.bind_eq_some_iff.mp hu
  obtain rfl := step_click_unique hw hv
  rcases Nat.le_total envs.length n with hle | hle
  · rw [List.take_of_length_le hle, List.map_append, Runs.exec_append, hexec] at hu
    obtain rfl := exec_waits ht hu
    exact hP
  · have hnone : more = [] := by simp [more, hle]
    rw [hnone, List.append_nil] at hu
    rw [← List.take_append_drop n envs, List.map_append, Runs.exec_append, hu] at hexec
    obtain rfl := exec_waits huWaits hexec
    exact hP

/-! ## Any number of clicks -/

/-- `t` is reached by completing clicks one after another, with any callbacks. -/
inductive Clicked (s : FlvSession) : List Click → FlvSession → Prop
  | none : Clicked s [] s
  | click {cs : List Click} {c : Click} {t u : FlvSession} {fuel : Nat} {envs : List TagEffects} :
      Clicked s cs t → (∀ env ∈ envs, env.KeepsHead) →
      Runs.exec step t (c.event fuel :: envs.map .feedRound) = some u → Waits u →
      Clicked s (cs ++ [c]) u

/-- The frame shown behind some clicks, of `n` frames, where frame `k` is shown before them. -/
def shown (n k : Nat) (cs : List Click) : Nat := cs.foldl (fun k c => c.next n k) k

/-- The frames that some clicks play. -/
def showing (frames : List Tag) : Nat → List Click → List Tag
  | _, [] => []
  | k, c :: cs => c.shows frames k ++ showing frames (c.next frames.length k) cs

theorem showing_snoc (frames : List Tag) (k : Nat) (cs : List Click) (c : Click) :
    showing frames k (cs ++ [c]) =
      showing frames k cs ++ c.shows frames (shown frames.length k cs) := by
  induction cs generalizing k with
  | nil => simp [showing, shown]
  | cons d cs ih =>
    rw [List.cons_append, showing, ih, showing, List.append_assoc]
    rfl

/-- Any clicks can be completed one after another, and however that goes, they move a
counter between 1 and the number of frames and play the frames it counts to. -/
theorem clicks_show {tags : List Tag} {k : Nat} (hsized : ∀ t ∈ tags, t.Sized)
    (hfirst : ∀ t ∈ (tags.filter Tag.isFrame).head?, t.isKeyFrame = true) {s : FlvSession}
    (hs : Behind s h tags k) (cs : List Click) :
    (∃ t, Clicked s cs t) ∧ ∀ t, Clicked s cs t →
      Behind t h tags (shown (tags.countP Tag.isFrame) k cs) ∧
      played t.calls =
        played s.calls ++ (showing (tags.filter Tag.isFrame) k cs).map (·.data) := by
  induction cs using List.reverseRecOn with
  | nil =>
    refine ⟨⟨s, .none⟩, fun t ht => ?_⟩
    generalize hcs : [] = cs at ht
    cases ht with
    | none => exact ⟨hs, by simp [showing]⟩
    | click => simp at hcs
  | append_singleton cs c ih =>
    obtain ⟨⟨t, ht⟩, hall⟩ := ih
    refine ⟨?_, fun u hu => ?_⟩
    · obtain ⟨fuel, n, hcompletes⟩ := click_completes hsized hfirst (hall t ht).1 c
      have hkeeps : ∀ env ∈ List.replicate n (⟨[], id⟩ : TagEffects), env.KeepsHead := by
        intro env henv
        obtain rfl := List.eq_of_mem_replicate henv
        exact fun m i _ => rfl
      obtain ⟨u, hu, hwaits, -⟩ := hcompletes _ List.length_replicate hkeeps
      exact ⟨u, .click ht hkeeps hu hwaits⟩
    · generalize hcs : cs ++ [c] = ds at hu
      cases hu with
      | none => simp at hcs
      | click ht henvs hexec hwaits =>
        obtain ⟨rfl, hc⟩ := List.append_inj' hcs rfl
        obtain rfl := List.singleton_inj.mp hc
        obtain ⟨hbehind, hplayed⟩ := hall _ ht
        obtain ⟨hbehind', hplayed'⟩ :=
          (click_completes hsized hfirst hbehind c).of_waits henvs hexec hwaits
        refine ⟨?_, ?_⟩
        · rw [shown, List.foldl_append]
          exact hbehind'
        · rw [hplayed', hplayed, showing_snoc, List.map_append, List.append_assoc,
            List.countP_eq_length_filter]

/-- Back over the first of three frames, and ahead again. -/
theorem clicks_show_gop :
    ∃ s, Runs.exec step (init (FlvPlayer.opened [])) playThree = some s ∧
      ∃ t, Clicked s [.backward, .backward, .backward, .forward] t ∧
        played t.calls = played s.calls ++
          [interFrame.data, keyFrame.data, keyFrame.data, interFrame.data] := by
  have hrun : ∃ s, Runs.exec step (init (FlvPlayer.opened [])) playThree = some s ∧
      Behind s gop.header gop.tags 3 :=
    ⟨_, rfl, rfl, rfl, rfl, rfl, by decide, gop.tags, [], rfl, rfl, rfl, rfl, rfl, by decide⟩
  obtain ⟨s, hexec, hs⟩ := hrun
  obtain ⟨⟨t, ht⟩, hall⟩ := clicks_show gop_sized
    (show ∀ t ∈ some keyFrame, t.isKeyFrame = true by rintro t ⟨⟩; rfl) hs
    [.backward, .backward, .backward, .forward]
  exact ⟨s, hexec, t, ht, (hall t ht).2⟩

end FlvSession

end MiniSurveillance
