import MiniSurveillance.FlvCursor

/-!
# Where the walks of `step_by_frame` end

In a recording of one segment each of the three loops ends at a tag that the list of tags
tells: the first at the frame it counts down to or at the end of the file, the second at the
last video tag, the third at the nearest I frame or at the first tag.

* `counts_back`, `counts_ahead`, `counts_end`: the first loop.
* `video_back`: the second loop.
* `keyFrame_back`, `keyFrame_none`: the third loop, and what it counts.
* `backToKeyFrame_leads`: the third part, with an I frame in front of the tag it starts at.
-/

namespace MiniSurveillance
open Bytes Loops

namespace FlvPlayer

variable {p : FlvPlayer} {h : SegmentHeader} {before after : List Tag} {t : Tag}

/-! ## The first loop -/

/-- The first loop walks back over the tags up to the frame it counts down to. -/
theorem counts_back {h : SegmentHeader} {before mid after : List Tag} {target : Tag}
    (hsized : ∀ t ∈ target :: mid, t.Sized) (htarget : target.isFrame = true) {p : FlvPlayer}
    (hp : At p h (before ++ target :: mid) after) :
    ∃ q, Ends (countRound (-1)) (mid.countP Tag.isFrame + 1, p) q ∧
      At q h before (target :: (mid ++ after)) ∧ Moved p q := by
  induction mid using List.reverseRecOn generalizing p after with
  | nil =>
    obtain ⟨hback, hmoved, hshows⟩ := hp.back (hsized target (by simp))
    have hstep : countStep (-1) (1, p) = (0, p.back) := by
      have hframe : p.back.onFrame = true := (hback.onFrame hshows).trans htarget
      exact Prod.ext (if_pos hframe) rfl
    have hround := countRound_eq (-1) (1, p)
    refine ⟨p.back, ?_, hback, hmoved⟩
    rw [hstep, if_neg (by simp)] at hround
    -- it is counted down, or the first tag of the file
    split at hround
    · exact ends_inr hround
    · exact (ends_inl_iff hround).mpr (ends_inr (countRound_eq (-1) (0, p.back)))
  | append_singleton mid t ih =>
    rw [List.append_cons, ← List.append_assoc, ← List.append_cons] at hp
    obtain ⟨hback, hmoved, hshows⟩ := hp.back (hsized t (by simp))
    have hstep : countStep (-1) ((mid ++ [t]).countP Tag.isFrame + 1, p) =
        (mid.countP Tag.isFrame + 1, p.back) := by
      refine Prod.ext ?_ rfl
      show (if p.back.onFrame then _ else _) = _
      rw [hback.onFrame hshows, List.countP_append, List.countP_singleton]
      cases t.isFrame with
      | true => rfl
      | false => rfl
    have hround := countRound_eq (-1) ((mid ++ [t]).countP Tag.isFrame + 1, p)
    rw [hstep, if_neg (by simp), hback.atEnd, hback.not_atFirstTag (by simp)] at hround
    obtain ⟨q, hends, hq, hmovedq⟩ := ih (fun x hx => hsized x (by
      simp only [List.mem_cons, List.mem_append] at hx ⊢
      tauto)) hback
    exact ⟨q, (ends_inl_iff hround).mpr hends, by simpa using hq, hmoved.trans hmovedq⟩

/-- A move to the end of the file looks at nothing. -/
theorem move_end {n : Int} (h : (p.moveCursor n).atEnd = true) : (p.move n).1 = p.moveCursor n := by
  unfold move
  dsimp only
  rw [if_pos h]

/-- One tag ahead. -/
theorem At.ahead {u : Tag} (hp : At p h before (t :: u :: after)) :
    At (p.move 1).1 h (before ++ [t]) (u :: after) ∧ Moved p (p.move 1).1 ∧
      Shows (p.move 1).1 u :=
  let ⟨hat, hmoved⟩ := hp.aheadCursor
  At.move (n := 1) hat hmoved

/-- Behind the last tag. -/
theorem At.ahead_last (hp : At p h before [t]) :
    At (p.move 1).1 h (before ++ [t]) [] ∧ Moved p (p.move 1).1 := by
  obtain ⟨hat, hmoved⟩ := hp.aheadCursor
  rw [move_end hat.atEnd_nil]
  exact ⟨hat, hmoved⟩

/-- Behind the last tag there is no way ahead. -/
theorem At.ahead_nil (hp : At p h before []) : (p.move 1).1 = p := by
  have hroom : ¬ p.curIdx + tagHeaderSize ≤ p.totalBytes := by
    simpa [FlvPlayer.atEnd] using hp.atEnd_nil
  have hstill : p.moveCursor 1 = p := by
    show p.moveForward 1 = _
    rw [moveForward, if_neg hroom]
  rw [move_end (by rw [hstill]; exact hp.atEnd_nil), hstill]

/-- A round of the walk that comes to the end of the file leaves it. -/
theorem countRound_end {n : Nat} (hend : (p.move 1).1.atEnd = true) :
    Ends (countRound 1) (n + 1, p) (p.move 1).1 := by
  have hround := countRound_eq 1 (n + 1, p)
  rw [if_neg (by simp), show (countStep 1 (n + 1, p)).2 = (p.move 1).1 from rfl, hend,
    Bool.true_or, if_pos rfl] at hround
  exact ends_inr hround

/-- A round of the walk that comes to another tag goes on from there. -/
theorem countRound_ahead {u : Tag} (hp : At p h before (t :: u :: after)) (n : Nat) :
    countRound 1 (n + 1, p) = .inl (if u.isFrame then n else n + 1, (p.move 1).1) := by
  obtain ⟨hat, _, hshows⟩ := hp.ahead
  have hstep : countStep 1 (n + 1, p) = (if u.isFrame then n else n + 1, (p.move 1).1) := by
    refine Prod.ext ?_ rfl
    show (if (p.move 1).1.onFrame then _ else _) = _
    rw [hat.onFrame hshows]
    rfl
  rw [countRound_eq, if_neg (by simp), hstep]
  dsimp only
  rw [hat.atEnd, hat.not_atFirstTag (by simp)]
  rfl

/-- The first loop walks on to the frame it counts down to, the tag it starts at left out. -/
theorem counts_ahead {mid : List Tag} {target : Tag} (htarget : target.isFrame = true)
    (hp : At p h before (t :: (mid ++ target :: after))) :
    ∃ q, Ends (countRound 1) (mid.countP Tag.isFrame + 1, p) q ∧
      At q h (before ++ t :: mid) (target :: after) ∧ Moved p q := by
  induction mid generalizing p before t with
  | nil =>
    obtain ⟨hat, hmoved, _⟩ := hp.ahead
    have hround := countRound_ahead hp 0
    rw [htarget, if_pos rfl] at hround
    exact ⟨(p.move 1).1, (ends_inl_iff hround).mpr (ends_inr (countRound_eq 1 (0, _))), hat, hmoved⟩
  | cons u mid ih =>
    obtain ⟨hat, hmoved, _⟩ := hp.ahead
    have hround := countRound_ahead hp ((u :: mid).countP Tag.isFrame)
    have hleft : (if u.isFrame then (u :: mid).countP Tag.isFrame
        else (u :: mid).countP Tag.isFrame + 1) = mid.countP Tag.isFrame + 1 := by
      rw [List.countP_cons]
      cases u.isFrame with
      | true => rfl
      | false => rfl
    rw [hleft] at hround
    obtain ⟨q, hends, hq, hmovedq⟩ := ih hat
    refine ⟨q, (ends_inl_iff hround).mpr hends, ?_, hmoved.trans hmovedq⟩
    rwa [List.append_assoc, List.singleton_append] at hq

/-- With too few frames ahead the first loop walks to the end of the file. -/
theorem counts_end {n : Nat} (hfew : after.tail.countP Tag.isFrame ≤ n) (hp : At p h before after) :
    ∃ q, Ends (countRound 1) (n + 1, p) q ∧ At q h (before ++ after) [] ∧ Moved p q := by
  induction after generalizing p before n with
  | nil =>
    have hstill := hp.ahead_nil
    have hends := countRound_end (p := p) (n := n) (by rw [hstill]; exact hp.atEnd_nil)
    rw [hstill] at hends
    exact ⟨p, hends, by rwa [List.append_nil], .refl p⟩
  | cons t after ih =>
    cases after with
    | nil =>
      obtain ⟨hat, hmoved⟩ := hp.ahead_last
      exact ⟨(p.move 1).1, countRound_end hat.atEnd_nil, hat, hmoved⟩
    | cons u after =>
      obtain ⟨hat, hmoved, _⟩ := hp.ahead
      have hround := countRound_ahead hp n
      rw [List.tail_cons, List.countP_cons] at hfew
      obtain ⟨m, hm, hrest⟩ : ∃ m, (if u.isFrame then n else n + 1) = m + 1 ∧
          after.countP Tag.isFrame ≤ m := by
        cases hu : u.isFrame with
        | true =>
          rw [hu, if_pos rfl] at hfew
          exact ⟨n - 1, by rw [if_pos rfl]; omega, by omega⟩
        | false =>
          rw [hu] at hfew
          exact ⟨n, rfl, hfew⟩
      rw [hm] at hround
      obtain ⟨q, hends, hq, hmovedq⟩ := ih hrest hat
      refine ⟨q, (ends_inl_iff hround).mpr hends, ?_, hmoved.trans hmovedq⟩
      rwa [List.append_assoc, List.singleton_append] at hq

/-! ## The second loop -/

/-- From the end of the file the second loop walks back to the last video tag. -/
theorem video_back {mid : List Tag} {video : Tag} (hsized : ∀ t ∈ video :: mid, t.Sized)
    (hvideo : video.isVideo = true) (hmid : ∀ t ∈ mid, t.isVideo = false)
    (hp : At p h (before ++ video :: mid) after) :
    ∃ q, Ends videoRound p q ∧ At q h before (video :: (mid ++ after)) ∧ Moved p q := by
  have hround := videoRound_eq p
  induction mid using List.reverseRecOn generalizing p after with
  | nil =>
    obtain ⟨hback, hmoved, hshows⟩ := hp.back (hsized video (by simp))
    rw [hback.onVideo hshows, hvideo, if_pos rfl] at hround
    exact ⟨p.back, ends_inr hround, hback, hmoved⟩
  | append_singleton mid t ih =>
    rw [List.append_cons, ← List.append_assoc, ← List.append_cons] at hp
    obtain ⟨hback, hmoved, hshows⟩ := hp.back (hsized t (by simp))
    rw [hback.onVideo hshows, hmid t (by simp), if_neg (by decide)] at hround
    obtain ⟨q, hends, hq, hmovedq⟩ := ih (fun x hx => hsized x (by
      simp only [List.mem_cons, List.mem_append] at hx ⊢
      tauto)) (fun x hx => hmid x (List.mem_append_left _ hx)) hback (videoRound_eq _)
    exact ⟨q, (ends_inl_iff hround).mpr hends, by simpa using hq, hmoved.trans hmovedq⟩

/-! ## The third loop -/

theorem At.regulate {p : FlvPlayer} {h : SegmentHeader} {before after : List Tag}
    (hp : At p h before after) (n : Int) : At { p with regulateTagCount := n } h before after :=
  ⟨hp.readsAt, hp.curIdx, hp.totalBytes, hp.long⟩

/-- The player with `n` more video tags counted. -/
def counting (p : FlvPlayer) (n : Nat) : FlvPlayer :=
  { p with regulateTagCount := p.regulateTagCount + n }

theorem Moved.counting {p q : FlvPlayer} (h : Moved p q) (n : Nat) :
    Moved (p.counting n) (q.counting n) :=
  ⟨h.isPlaying, h.isPause, h.needSleep, h.needIFrame, h.isRegulating, h.stepOneFrame, h.fps,
    congrArg (· + (n : Int)) h.regulateTagCount, h.totalBytes⟩

theorem Moved.regulate {p q : FlvPlayer} (h : Moved p q) (isRegulating : Bool) (n : Int) :
    Moved { p with isRegulating, regulateTagCount := n }
      { q with isRegulating, regulateTagCount := n } :=
  ⟨h.isPlaying, h.isPause, h.needSleep, h.needIFrame, rfl, h.stepOneFrame, h.fps, rfl,
    h.totalBytes⟩

theorem counting_add (p : FlvPlayer) (m n : Nat) :
    (p.counting m).counting n = p.counting (m + n) := by
  simp [counting, Int.add_assoc]

/-- One step back of the third loop. -/
theorem keyFrameStep_back {h : SegmentHeader} {before after : List Tag} {t : Tag}
    (ht : t.Sized) {p : FlvPlayer} (hp : At p h (before ++ [t]) after) (isIFrame : Bool) :
    ∃ q, keyFrameStep (isIFrame, p) = (t.isKeyFrame, q) ∧ At q h before (t :: after) ∧
      Moved (p.counting ([t].countP Tag.isVideo)) q := by
  obtain ⟨hback, hmoved, hshows⟩ := hp.back ht
  have htype : (p.move (-1)).2.1 = tagVideo ↔ t.isVideo = true := by
    rw [← hback.onVideo hshows]
    exact move_type (-1) p
  have hkey : (p.move (-1)).2.2 = t.isKeyFrame :=
    (move_isIFrame (-1) p).trans (hback.onKeyFrame hshows)
  refine ⟨p.back.counting ([t].countP Tag.isVideo), ?_, hback.regulate _, hmoved.counting _⟩
  unfold keyFrameStep
  dsimp only
  refine Prod.ext hkey ?_
  rw [List.countP_singleton]
  by_cases hv : t.isVideo = true
  · rw [if_pos (htype.mpr hv), if_pos hv]
    rfl
  · rw [if_neg (fun h => hv (htype.mp h)), if_neg hv]
    show p.back = { p.back with regulateTagCount := p.back.regulateTagCount + 0 }
    rw [Int.add_zero]

/-- The third loop walks back to the next I frame and counts the video tags. -/
theorem keyFrame_back {h : SegmentHeader} {before mid after : List Tag} {key : Tag}
    (hsized : ∀ t ∈ key :: mid, t.Sized) (hkey : key.isKeyFrame = true)
    (hmid : ∀ t ∈ mid, t.isKeyFrame = false) {p : FlvPlayer}
    (hp : At p h (before ++ key :: mid) after) :
    ∃ q, Ends keyFrameRound (false, p) (true, q) ∧ At q h before (key :: (mid ++ after)) ∧
      Moved (p.counting ((key :: mid).countP Tag.isVideo)) q := by
  have hfirst : p.atFirstTag = false := hp.not_atFirstTag (by simp)
  have hround := keyFrameRound_eq (false, p)
  rw [if_neg (by rw [hfirst]; decide)] at hround
  induction mid using List.reverseRecOn generalizing p after with
  | nil =>
    obtain ⟨q, hstep, hq, hmoved⟩ := keyFrameStep_back (hsized key (by simp)) hp false
    rw [hstep, hkey] at hround
    exact ⟨q, ends_inr hround, hq, hmoved⟩
  | append_singleton mid t ih =>
    rw [List.append_cons, ← List.append_assoc, ← List.append_cons] at hp
    obtain ⟨r, hstep, hr, hmoved⟩ := keyFrameStep_back (hsized t (by simp)) hp false
    rw [hstep, hmid t (by simp)] at hround
    have hrest := hr.not_atFirstTag (by simp)
    have hagain := keyFrameRound_eq (false, r)
    rw [if_neg (by rw [hrest]; decide)] at hagain
    obtain ⟨q, hends, hq, hmovedq⟩ := ih (fun x hx => hsized x (by
      simp only [List.mem_cons, List.mem_append] at hx ⊢
      tauto)) (fun x hx => hmid x (List.mem_append_left _ hx)) hr hrest hagain
    refine ⟨q, (ends_inl_iff hround).mpr hends, by simpa using hq, ?_⟩
    have hboth := (hmoved.counting _).trans hmovedq
    rw [counting_add, Nat.add_comm, ← List.countP_append] at hboth
    exact hboth

/-- Without an I frame behind it the third loop walks back to the first tag. -/
theorem keyFrame_none (hsized : ∀ t ∈ before, t.Sized) (hnone : ∀ t ∈ before, t.isKeyFrame = false)
    (hp : At p h before after) :
    ∃ q n, Ends keyFrameRound (false, p) (false, q) ∧ At q h [] (before ++ after) ∧
      Moved (p.counting n) q := by
  have hround := keyFrameRound_eq (false, p)
  induction before using List.reverseRecOn generalizing p after with
  | nil =>
    rw [hp.atFirstTag, if_pos rfl] at hround
    exact ⟨p, 0, ends_inr hround, hp, by
      rw [counting, Int.natCast_zero, Int.add_zero]
      exact .refl p⟩
  | append_singleton before t ih =>
    obtain ⟨r, hstep, hr, hmoved⟩ := keyFrameStep_back (hsized t (by simp)) hp false
    rw [hp.not_atFirstTag (by simp), if_neg (by decide), hstep, hnone t (by simp),
      if_neg (by simp)] at hround
    obtain ⟨q, n, hends, hq, hmovedq⟩ := ih (fun x hx => hsized x (List.mem_append_left _ hx))
      (fun x hx => hnone x (List.mem_append_left _ hx)) hr (keyFrameRound_eq _)
    refine ⟨q, [t].countP Tag.isVideo + n, (ends_inl_iff hround).mpr hends, by simpa using hq, ?_⟩
    have hboth := (hmoved.counting n).trans hmovedq
    rwa [counting_add] at hboth

/-- The tags `walk` in front of the frame `target` are those from the nearest I frame on. -/
inductive Leads : List Tag → Tag → Prop
  | here {target : Tag} : target.isKeyFrame = true → Leads [] target
  | back {key target : Tag} {rest : List Tag} : key.isKeyFrame = true →
      (∀ t ∈ rest, t.isKeyFrame = false) → target.isKeyFrame = false → Leads (key :: rest) target

/-- The last element that meets a test, and what is behind it. -/
theorem exists_last {α : Type} {P : α → Bool} {l : List α} (h : ∃ x ∈ l, P x = true) :
    ∃ front x back, l = front ++ x :: back ∧ P x = true ∧ ∀ y ∈ back, P y = false := by
  induction l using List.reverseRecOn with
  | nil =>
    obtain ⟨x, hx, _⟩ := h
    exact nomatch hx
  | append_singleton l x ih =>
    cases hP : P x with
    | true => exact ⟨l, x, [], rfl, hP, nofun⟩
    | false =>
      obtain ⟨y, hy, hPy⟩ := h
      rcases List.mem_append.mp hy with hy | hy
      · obtain ⟨front, z, back, rfl, hz, hback⟩ := ih ⟨y, hy, hPy⟩
        refine ⟨front, z, back ++ [x], by simp, hz, fun w hw => ?_⟩
        rcases List.mem_append.mp hw with hw | hw
        · exact hback w hw
        · rw [List.mem_singleton.mp hw, hP]
      · rw [List.mem_singleton.mp hy, hP] at hPy
        cases hPy

/-- In front of an I frame, or behind one, the tags from the nearest on lead to a tag. -/
theorem leads_of_keyFrame {front : List Tag} {target : Tag}
    (hkey : ∃ t ∈ front ++ [target], t.isKeyFrame = true) :
    ∃ before walk, front = before ++ walk ∧ Leads walk target := by
  cases htarget : target.isKeyFrame with
  | true => exact ⟨front, [], (List.append_nil _).symm, .here htarget⟩
  | false =>
    obtain ⟨t, ht, htKey⟩ := hkey
    have hmem : t ∈ front := by
      rcases List.mem_append.mp ht with ht | ht
      · exact ht
      · rw [List.mem_singleton.mp ht, htarget] at htKey
        cases htKey
    obtain ⟨before, key, rest, rfl, hkeyFrame, hrest⟩ :=
      exists_last (P := Tag.isKeyFrame) ⟨t, hmem, htKey⟩
    exact ⟨before, key :: rest, rfl, .back hkeyFrame hrest htarget⟩

/-- The third part of `step_by_frame` goes back to the I frame in front of the target, and
leaves as many tags to regulate as there are video tags on the way. -/
theorem backToKeyFrame_leads {h : SegmentHeader} {before walk after : List Tag} {target : Tag}
    (hsized : ∀ t ∈ walk, t.Sized) (hleads : Leads walk target) {p : FlvPlayer}
    (hp : At p h (before ++ walk) (target :: after)) (hreg : p.isRegulating = true) :
    ∃ fuel q, backToKeyFrame fuel p = some q ∧ At q h before (walk ++ target :: after) ∧
      q.isRegulating = decide (0 < walk.countP Tag.isVideo) ∧
      (0 < walk.countP Tag.isVideo → q.regulateTagCount = walk.countP Tag.isVideo) ∧
      Moved { p with
        isRegulating := q.isRegulating, regulateTagCount := q.regulateTagCount } q := by
  obtain ⟨hlook, hmoved, hshows⟩ := hp.look
  have hkey : (p.move 0).2.2 = target.isKeyFrame :=
    (move_isIFrame 0 p).trans (hlook.onKeyFrame hshows)
  unfold backToKeyFrame
  cases hleads with
  | here htarget =>
    have hvideo : (p.move 0).2.1 = tagVideo := by
      rw [move_type]
      exact (hlook.onVideo hshows).trans
        (Tag.isVideo_of_isFrame (Tag.isFrame_of_isKeyFrame htarget))
    rw [List.append_nil] at hlook
    refine ⟨0, { p.look with isRegulating := false }, ?_, ?_, rfl, nofun, ?_⟩
    · dsimp only
      rw [if_pos ⟨hvideo, hkey.trans htarget⟩]
      rfl
    · exact ⟨hlook.readsAt, hlook.curIdx, hlook.totalBytes, hlook.long⟩
    · exact hmoved.regulate false p.look.regulateTagCount
  | @back key _ rest hkeyFrame hrest htarget =>
    obtain ⟨q, ⟨fuel, hrun⟩, hq, hmovedq⟩ :=
      keyFrame_back hsized hkeyFrame hrest (hlook.regulate 0)
    have hpos : 0 < (key :: rest).countP Tag.isVideo := List.countP_pos_iff.mpr
      ⟨key, by simp, Tag.isVideo_of_isFrame (Tag.isFrame_of_isKeyFrame hkeyFrame)⟩
    have hcount : q.regulateTagCount = (key :: rest).countP Tag.isVideo :=
      hmovedq.regulateTagCount.trans (Int.zero_add _)
    have hon : q.isRegulating = true :=
      (hmovedq.isRegulating.trans hmoved.isRegulating).trans hreg
    refine ⟨fuel, q, ?_, hq, by rw [hon, decide_eq_true hpos], fun _ => hcount, ?_⟩
    · dsimp only
      rw [hkey, htarget, if_neg (by simp)]
      exact Option.bind_eq_some_iff.mpr ⟨(true, q), hrun, rfl⟩
    · have hall := (hmoved.regulate q.isRegulating q.regulateTagCount).trans
        (hmovedq.regulate q.isRegulating q.regulateTagCount)
      exact hall

end FlvPlayer

end MiniSurveillance
