import Mathlib.Data.List.TakeWhile
import MiniSurveillance.FlvBackward
import MiniSurveillance.FlvPlayed

/-!
# Frames ahead

`step_by_frame` takes one off its count before it walks, since the feed loop plays the frame
under the cursor anyway. Where the tag under the cursor is no frame the walk ends one frame
short. Behind the last frame it goes back to the last video tag, which need not be a frame,
and a count of one is no walk at all.

* `LandsOn`: the tag the first two walks end at.
* `stepByFrame_left`: what the third leaves the feed loop.
* `stepByFrame_plays_iff`: when the feed loop plays the frame that was asked for.
-/

namespace MiniSurveillance
open Bytes Loops

namespace FlvPlayer

variable {p : FlvPlayer} {h : SegmentHeader} {before after : List Tag} {t : Tag}

/-! ## Where the walks lead -/

/-- The player is in front of the tags `after` with this left of a walk. -/
structure Left (q : FlvPlayer) (h : SegmentHeader) (before after : List Tag) (w : Pending) :
    Prop where
  stands : At q h before after
  pends : Pends q w

/-- What walks that end at the tag `target` leave: the tags from the nearest I frame on to
regulate, or where there is none, an I frame to wait for from the first tag on. -/
def LeftFor (needIFrame : Bool) (q : FlvPlayer) (h : SegmentHeader) (front : List Tag)
    (target : Tag) (rest : List Tag) : Prop :=
  if ∃ t ∈ front ++ [target], t.isKeyFrame = true then
    ∃ begun walk, front = begun ++ walk ∧ Leads walk target ∧
      Left q h begun (walk ++ target :: rest) ⟨walk.countP Tag.isVideo, needIFrame⟩
  else Left q h [] (front ++ target :: rest) ⟨0, true⟩

/-- From the tag `target` the third part of `step_by_frame` goes back to the nearest I frame,
or to the first tag where there is none. -/
theorem backToKeyFrame_left {front : List Tag} {target : Tag} (hsized : ∀ t ∈ front, t.Sized)
    (hp : At p h front (target :: after)) (hreg : p.isRegulating = true) :
    ∃ fuel q, backToKeyFrame fuel p = some q ∧ LeftFor p.needIFrame q h front target after ∧
      q.isPlaying = p.isPlaying := by
  unfold LeftFor
  split
  · next hkey =>
    obtain ⟨before, walk, rfl, hleads⟩ := leads_of_keyFrame hkey
    obtain ⟨fuel, q, hback, hq, hqReg, hqCount, hmoved⟩ := backToKeyFrame_leads
      (fun t ht => hsized t (List.mem_append_right _ ht)) hleads hp hreg
    exact ⟨fuel, q, hback, ⟨before, walk, rfl, hleads, hq, hqReg, hqCount, hmoved.needIFrame⟩,
      hmoved.isPlaying⟩
  · next hnone =>
    have hnone (t : Tag) (ht : t ∈ front ++ [target]) : t.isKeyFrame = false :=
      eq_false_of_ne_true fun hkey => hnone ⟨t, ht, hkey⟩
    obtain ⟨hlook, hmoved, hshows⟩ := hp.look
    have hkey : (p.move 0).2.2 = false :=
      ((move_isIFrame 0 p).trans (hlook.onKeyFrame hshows)).trans (hnone target (by simp))
    obtain ⟨q, n, ⟨fuel, hrun⟩, hq, hmovedq⟩ := keyFrame_none hsized
      (fun t ht => hnone t (List.mem_append_left _ ht)) (hlook.regulate 0)
    refine ⟨fuel, { q with needIFrame := true, isRegulating := false }, ?_,
      ⟨⟨hq.readsAt, hq.curIdx, hq.totalBytes, hq.long⟩, ⟨rfl, nofun, rfl⟩⟩,
      hmovedq.isPlaying.trans hmoved.isPlaying⟩
    unfold backToKeyFrame
    dsimp only
    rw [hkey, if_neg (by simp)]
    exact Option.bind_eq_some_iff.mpr ⟨(false, q), hrun, rfl⟩

/-- The tag that the first two walks of `step_by_frame(n)` end at, with the tags in front of it
and behind it. -/
inductive LandsOn (before after : List Tag) (n : Nat) : List Tag → Tag → List Tag → Prop
  /-- The tag under the cursor is not counted. -/
  | frame {t : Tag} {mid : List Tag} {target : Tag} {rest : List Tag} :
      after = t :: (mid ++ target :: rest) → target.isFrame = true →
      mid.countP Tag.isFrame + 2 = n → LandsOn before after n (before ++ t :: mid) target rest
  /-- Behind the end of the file the walk goes back to the last video tag. -/
  | video {front : List Tag} {target : Tag} {rest : List Tag} :
      before ++ after = front ++ target :: rest → target.isVideo = true →
      (∀ t ∈ rest, t.isVideo = false) → after.tail.countP Tag.isFrame + 2 ≤ n →
      LandsOn before after n front target rest

theorem LandsOn.split {n : Nat} {front rest : List Tag} {target : Tag}
    (h : LandsOn before after n front target rest) : before ++ after = front ++ target :: rest := by
  cases h with
  | frame hafter _ _ => rw [hafter, List.append_assoc, List.cons_append]
  | video hsplit _ _ _ => exact hsplit

/-- No frame stands behind a video tag the walk ends at that is none. -/
theorem LandsOn.no_frame {n : Nat} {front rest : List Tag} {target : Tag}
    (hlands : LandsOn before after n front target rest) (htarget : target.isFrame = false) :
    ∀ t ∈ target :: rest, t.isFrame = false := by
  cases hlands with
  | frame _ hframe _ =>
    rw [hframe] at htarget
    cases htarget
  | video _ _ hrest _ =>
    rw [List.forall_mem_cons]
    exact ⟨htarget, fun t ht => by rw [Tag.isFrame, hrest t ht, Bool.false_and]⟩

/-- The first two walks of `step_by_frame(n)`. -/
theorem LandsOn.walks {n : Nat} {front rest : List Tag} {target : Tag}
    (hlands : LandsOn before after n front target rest) (hsized : ∀ t ∈ before ++ after, t.Sized)
    (hp : At p h before after) :
    ∃ q, Ends (countRound 1) (n - 1, p) q ∧ ∃ fuel r, backToVideo fuel q = some r ∧
      At r h front (target :: rest) ∧ Moved p r := by
  cases hlands with
  | @frame t mid _ _ hafter htarget hn =>
    subst hafter
    obtain ⟨q, hends, hq, hmoved⟩ := counts_ahead htarget hp
    refine ⟨q, ?_, 0, q, ?_, hq, hmoved⟩
    · rwa [show mid.countP Tag.isFrame + 1 = n - 1 by omega] at hends
    · rw [backToVideo, if_neg (by rw [hq.atEnd]; decide)]
  | video hsplit hvideo hrest hfew =>
    obtain ⟨q, hends, hq, hmoved⟩ := counts_end (n := n - 2) (by omega) hp
    rw [hsplit] at hq hsized
    obtain ⟨r, ⟨fuel, hrun⟩, hr, hmovedr⟩ :=
      video_back (fun t ht => hsized t (List.mem_append_right _ ht)) hvideo hrest hq
    rw [List.append_nil] at hr
    refine ⟨q, ?_, fuel, r, ?_, hr, hmoved.trans hmovedr⟩
    · rwa [show n - 2 + 1 = n - 1 by omega] at hends
    · rw [backToVideo, if_pos hq.atEnd_nil]
      exact hrun

/-- What `step_by_frame(n)` leaves the feed loop. -/
theorem stepByFrame_left {n : Nat} {front rest : List Tag} {target : Tag}
    (hlands : LandsOn before after n front target rest) (hn : 2 ≤ n)
    (hsized : ∀ t ∈ before ++ after, t.Sized) (hp : At p h before after)
    (hreg : p.isRegulating = false) :
    ∃ fuel q, stepByFrame fuel p n = some q ∧ LeftFor p.needIFrame q h front target rest ∧
      q.isPlaying = p.isPlaying := by
  have hbegin : At { p with isRegulating := true } h before after :=
    ⟨hp.readsAt, hp.curIdx, hp.totalBytes, hp.long⟩
  obtain ⟨q, ⟨k, hcount⟩, m, r, hvideo, hr, hmoved⟩ := hlands.walks hsized hbegin
  obtain ⟨l, s, hkey, hleft, hplaying⟩ := backToKeyFrame_left (fun t ht => hsized t (by
    rw [hlands.split]
    exact List.mem_append_left _ ht)) hr hmoved.isRegulating
  rw [hmoved.needIFrame] at hleft
  refine ⟨k + (m + l), s, ?_, hleft, hplaying.trans hmoved.isPlaying⟩
  rw [stepByFrame_walks (by rw [hreg]; decide) (by omega),
    Int.sign_eq_one_of_pos (by omega), show ((n : Int) - 1).natAbs = n - 1 by omega]
  refine Option.bind_eq_some_iff.mpr ⟨q, run_mono hcount (by omega), ?_⟩
  exact Option.bind_eq_some_iff.mpr ⟨r, backToVideo_mono hvideo (by omega),
    backToKeyFrame_mono hkey (by omega)⟩

/-! ## What is played behind a walk -/

/-- A walk that leads to a frame has it played first. -/
theorem Leads.firstPlayed {walk rest : List Tag} {target : Tag} (hleads : Leads walk target)
    (htarget : target.isFrame = true) (needIFrame : Bool) :
    (⟨walk.countP Tag.isVideo, needIFrame⟩ : Pending).firstPlayed (walk ++ target :: rest) =
      some (walk, target, rest) := by
  have hplays : (⟨0, needIFrame && !walk.any Tag.endsWait⟩ : Pending).plays target = true := by
    cases hleads with
    | here hkey => simp [Pending.plays, htarget, hkey]
    | back hkey _ _ => simp [Pending.plays, htarget, Tag.endsWait_of_isKeyFrame hkey]
  rw [Pending.firstPlayed_regulated, Pending.firstPlayed_plays hplays]
  simp

/-- A walk that leads to a video tag behind the last frame has nothing played. -/
theorem firstPlayed_behind {walk rest : List Tag} {target : Tag}
    (hrest : ∀ t ∈ target :: rest, t.isFrame = false) (needIFrame : Bool) :
    (⟨walk.countP Tag.isVideo, needIFrame⟩ : Pending).firstPlayed (walk ++ target :: rest) =
      none := by
  rw [Pending.firstPlayed_regulated, Pending.firstPlayed_none hrest]
  rfl

end FlvPlayer

namespace FlvSession
open FlvPlayer

/-! ## Seeking -/

/-- The frame that `step_by_frame(n)` is asked for, with the tags in front of it and behind it:
the `n`-th at or behind the cursor, or the last of the recording when fewer remain. -/
inductive Asked (before after : List Tag) (n : Nat) : List Tag → Tag → List Tag → Prop
  | ahead {mid : List Tag} {target : Tag} {rest : List Tag} : after = mid ++ target :: rest →
      target.isFrame = true → mid.countP Tag.isFrame + 1 = n →
      Asked before after n (before ++ mid) target rest
  | last {front : List Tag} {target : Tag} {rest : List Tag} :
      before ++ after = front ++ target :: rest → target.isFrame = true →
      (∀ t ∈ rest, t.isFrame = false) → after.countP Tag.isFrame < n →
      Asked before after n front target rest

/-- `step_by_frame(n)` comes back, and what the feed loop plays next is `target`. -/
def SeeksTo (s : FlvSession) (n : Nat) (h : SegmentHeader) (front : List Tag) (target : Tag)
    (rest : List Tag) : Prop :=
  ∃ fuel q, stepByFrame fuel s.player n = some q ∧
    PlaysNext { s with player := q } h front target rest

/-- When the frame that is asked for is played: for a count of one, a frame is left and is not
kept back to wait for an I frame; with frames enough ahead, the tag under the cursor is a frame,
or the walk, one frame short, meets no I frame and the wait from the first tag on ends
with the frame asked for; with fewer, the last video tag is a frame, or the walk, one frame
short, does not get to the end. -/
def SeekOk (needIFrame : Bool) (before after front : List Tag) (target : Tag) (n : Nat) : Prop :=
  if n = 1 then
    0 < after.countP Tag.isFrame ∧
      (needIFrame = true → ∃ t ∈ front.drop before.length ++ [target], t.endsWait = true)
  else if n ≤ after.countP Tag.isFrame then
    after.head?.any Tag.isFrame = true ∨
      ∀ t ∈ front.dropWhile (fun t => !t.endsWait), t.isFrame = false
  else
    ((before ++ after).filter Tag.isVideo).getLast?.any Tag.isFrame = true ∨
      n = after.countP Tag.isFrame + 1 ∧ after.head?.any (fun t => !t.isFrame) = true

variable {s : FlvSession} {h : SegmentHeader} {before after : List Tag}

/-- What `step_by_frame` left is what the feed loop starts from. -/
theorem seeksTo_iff {fuel : Nat} {q : FlvPlayer} {n : Nat} {begun ahead : List Tag} {w : Pending}
    {front rest : List Tag} {target : Tag} (hfeed : s.feed = .looping)
    (hstep : stepByFrame fuel s.player n = some q) (hplaying : q.isPlaying = true)
    (hleft : Left q h begun ahead w) (hsplit : begun ++ ahead = front ++ target :: rest) :
    SeeksTo s n h front target rest ↔
      ∃ walk, front = begun ++ walk ∧ w.firstPlayed ahead = some (walk, target, rest) := by
  have hfeeding : Feeding { s with player := q } h begun ahead w :=
    ⟨hfeed, hleft.stands, hplaying, hleft.pends⟩
  rw [← played_iff hfeeding hsplit]
  constructor
  · rintro ⟨_, r, hr, hplays⟩
    rwa [stepByFrame_unique hstep hr]
  · exact fun hplays => ⟨fuel, q, hstep, hplays⟩

/-- The frame the walk ends at is the one played next; with no I frame in front of it, the
first behind the wait is. -/
theorem seeksTo_iff_of_landsOn {n : Nat} {front front' rest rest' : List Tag} {target target' : Tag}
    (hlands : LandsOn before after n front target rest) (hn : 2 ≤ n)
    (hsized : ∀ t ∈ before ++ after, t.Sized) (hfeed : s.feed = .looping)
    (hat : At s.player h before after) (hplaying : s.player.isPlaying = true)
    (hreg : s.player.isRegulating = false)
    (hsplit : before ++ after = front' ++ target' :: rest') :
    SeeksTo s n h front' target' rest' ↔
      if ∃ t ∈ front ++ [target], t.isKeyFrame = true then target.isFrame = true ∧ front' = front
      else (⟨0, true⟩ : Pending).firstPlayed (front' ++ target' :: rest') =
        some (front', target', rest') := by
  obtain ⟨fuel, q, hstep, hleft, hon⟩ := stepByFrame_left hlands hn hsized hat hreg
  have hon : q.isPlaying = true := hon.trans hplaying
  have hsame := hlands.split.symm.trans hsplit
  unfold LeftFor at hleft
  split
  · next hkey =>
    rw [if_pos hkey] at hleft
    obtain ⟨begun, walk, rfl, hleads, hleft⟩ := hleft
    rw [seeksTo_iff hfeed hstep hon hleft (by rwa [List.append_assoc] at hsame)]
    cases htarget : target.isFrame with
    | false =>
      rw [firstPlayed_behind (hlands.no_frame htarget)]
      simp
    | true =>
      rw [hleads.firstPlayed htarget]
      constructor
      · rintro ⟨walk', rfl, heq⟩
        cases heq
        exact ⟨rfl, rfl⟩
      · rintro ⟨_, rfl⟩
        refine ⟨walk, rfl, ?_⟩
        rw [List.append_cancel_left_eq] at hsame
        cases hsame
        rfl
  · next hnone =>
    rw [if_neg hnone] at hleft
    rw [seeksTo_iff hfeed hstep hon hleft hsame, hsame]
    simp

/-- A count of one leaves the cursor where it is. -/
theorem seeksTo_one_iff {front rest : List Tag} {target : Tag}
    (hasked : Asked before after 1 front target rest) (hfeed : s.feed = .looping)
    (hat : At s.player h before after) (hplaying : s.player.isPlaying = true)
    (hreg : s.player.isRegulating = false) :
    SeeksTo s 1 h front target rest ↔
      0 < after.countP Tag.isFrame ∧ (s.player.needIFrame = true →
        ∃ t ∈ front.drop before.length ++ [target], t.endsWait = true) := by
  have hstep : stepByFrame 0 s.player (1 : Nat) = some { s.player with isRegulating := false } := by
    rw [stepByFrame, if_neg (by rw [hreg]; decide), if_pos (by simp)]
  have hleft : Left { s.player with isRegulating := false } h before after
      ⟨0, s.player.needIFrame⟩ :=
    ⟨⟨hat.readsAt, hat.curIdx, hat.totalBytes, hat.long⟩,
      ⟨rfl, fun hpos => absurd hpos (Nat.lt_irrefl 0), rfl⟩⟩
  cases hasked with
  | @ahead mid _ _ hafter htarget hone =>
    subst hafter
    have hmid : ∀ t ∈ mid, t.isFrame = false := by
      simpa using List.countP_eq_zero.mp (show mid.countP Tag.isFrame = 0 by omega)
    have hpos : 0 < (mid ++ target :: rest).countP Tag.isFrame :=
      List.countP_pos_iff.mpr ⟨target, by simp, htarget⟩
    rw [seeksTo_iff hfeed hstep hplaying hleft (List.append_assoc ..).symm, List.drop_left,
      and_iff_right hpos]
    refine Iff.trans ?_ (Pending.firstPlayed_idle_iff hmid htarget s.player.needIFrame rest)
    constructor
    · rintro ⟨walk, hwalk, hfirst⟩
      obtain rfl := List.append_cancel_left hwalk
      exact hfirst
    · exact fun hfirst => ⟨mid, rfl, hfirst⟩
  | last hsplit _ _ hfew =>
    have hzero : after.countP Tag.isFrame = 0 := by omega
    have hnone : ∀ t ∈ after, t.isFrame = false := by
      simpa using List.countP_eq_zero.mp hzero
    rw [seeksTo_iff hfeed hstep hplaying hleft hsplit, Pending.firstPlayed_none hnone, hzero]
    simp

/-- The first element that is not dropped, and those behind it, stay. -/
theorem mem_dropWhile_of_neg {α : Type} {P : α → Bool} {x : α} {l : List α} (hx : x ∈ l)
    (hP : P x = false) : x ∈ l.dropWhile P := by
  rw [← List.takeWhile_append_dropWhile (p := P) (l := l), List.mem_append] at hx
  rcases hx with hx | hx
  · rw [List.mem_takeWhile_imp hx] at hP
    cases hP
  · exact hx

/-- With frames enough ahead the walk ends at the frame asked for, or one short of it. -/
theorem seeksTo_ahead_iff {n : Nat} {mid rest : List Tag} {target : Tag} (hn : 2 ≤ n)
    (hcount : mid.countP Tag.isFrame + 1 = n) (htarget : target.isFrame = true)
    (hsized : ∀ t ∈ before ++ (mid ++ target :: rest), t.Sized)
    (hkey : ∃ t ∈ before ++ mid ++ [target], t.isKeyFrame = true) (hfeed : s.feed = .looping)
    (hat : At s.player h before (mid ++ target :: rest)) (hplaying : s.player.isPlaying = true)
    (hreg : s.player.isRegulating = false) :
    SeeksTo s n h (before ++ mid) target rest ↔
      (mid ++ target :: rest).head?.any Tag.isFrame = true ∨
        ∀ t ∈ (before ++ mid).dropWhile (fun t => !t.endsWait), t.isFrame = false := by
  obtain ⟨t, mid, rfl⟩ : ∃ t mid', mid = t :: mid' := List.exists_cons_of_ne_nil (by
    rintro rfl
    rw [List.countP_nil] at hcount
    omega)
  have hsplit : before ++ (t :: mid ++ target :: rest) =
      before ++ t :: mid ++ target :: rest := (List.append_assoc ..).symm
  rw [List.countP_cons] at hcount
  cases ht : t.isFrame with
  | true =>
    rw [ht, if_pos rfl] at hcount
    have hlands : LandsOn before (t :: mid ++ target :: rest) n (before ++ t :: mid) target rest :=
      .frame rfl htarget hcount
    rw [seeksTo_iff_of_landsOn hlands hn hsized hfeed hat hplaying hreg hsplit, if_pos hkey]
    simp [ht, htarget]
  | false =>
    rw [ht, if_neg (by decide)] at hcount
    -- the walk ends at the frame in front of the one asked for
    obtain ⟨walk, short, back, rfl, hshort, hback⟩ := exists_last (P := Tag.isFrame) (l := mid)
      (List.countP_pos_iff.mp (by omega))
    have hwalk : walk.countP Tag.isFrame + 2 = n := by
      rw [List.countP_append, List.countP_cons, if_pos hshort,
        (List.countP_eq_zero (l := back)).mpr (by simpa using hback)] at hcount
      omega
    have hlands : LandsOn before (t :: (walk ++ short :: back) ++ target :: rest) n
        (before ++ t :: walk) short (back ++ target :: rest) :=
      .frame (by simp) hshort hwalk
    rw [seeksTo_iff_of_landsOn hlands hn hsized hfeed hat hplaying hreg hsplit]
    have hhead :
        ¬ (t :: (walk ++ short :: back) ++ target :: rest).head?.any Tag.isFrame = true := by
      simp [ht]
    rw [or_iff_right hhead]
    split
    · next hany =>
      -- it is played, and the frame asked for is not
      obtain ⟨key, hmem, hkeyFrame⟩ := hany
      have hdue : key ∈ (before ++ t :: (walk ++ short :: back)).dropWhile
          (fun t => !t.endsWait) := by
        refine mem_dropWhile_of_neg ?_ (by rw [Tag.endsWait_of_isKeyFrame hkeyFrame]; rfl)
        simp only [List.mem_append, List.mem_cons, List.not_mem_nil, or_false] at hmem ⊢
        tauto
      constructor
      · rintro ⟨_, heq⟩
        exact absurd (congrArg List.length heq) (by simp)
      · intro hnone
        have hframe := Tag.isFrame_of_isKeyFrame hkeyFrame
        rw [hnone key hdue] at hframe
        cases hframe
    · next hnone =>
      refine Pending.firstPlayed_waits_iff ?_
      -- no other tag up to the frame asked for can be the I frame
      obtain ⟨key, hmem, hkeyFrame⟩ := hkey
      have hnot : key ∉ before ++ t :: walk ++ [short] := fun hin => hnone ⟨key, hin, hkeyFrame⟩
      have hfar : key ∉ back := fun hin => by
        have hframe := Tag.isFrame_of_isKeyFrame hkeyFrame
        rw [hback key hin] at hframe
        cases hframe
      have heq : key = target := by
        simp only [List.mem_append, List.mem_cons, List.not_mem_nil, or_false] at hmem hnot
        tauto
      exact heq ▸ hkeyFrame

/-- The last frame of a list of tags stands at one place. -/
theorem last_frame_unique {front front' rest rest' : List Tag} {target target' : Tag}
    (hsame : front ++ target :: rest = front' ++ target' :: rest')
    (htarget : target.isFrame = true) (htarget' : target'.isFrame = true)
    (hrest : ∀ t ∈ rest, t.isFrame = false) (hrest' : ∀ t ∈ rest', t.isFrame = false) :
    front = front' := by
  rcases List.append_eq_append_iff.mp hsame with ⟨mid, rfl, heq⟩ | ⟨mid, rfl, heq⟩
  · cases mid with
    | nil => exact (List.append_nil _).symm
    | cons t mid =>
      rw [List.cons_append, List.cons.injEq] at heq
      rw [hrest target' (by rw [heq.2]; simp)] at htarget'
      cases htarget'
  · cases mid with
    | nil => exact List.append_nil _
    | cons t mid =>
      rw [List.cons_append, List.cons.injEq] at heq
      rw [hrest' target (by rw [heq.2]; simp)] at htarget
      cases htarget

/-- With too few frames ahead the walk ends at the last video tag, or at the last frame because
it is one short. -/
theorem seeksTo_last_iff {n : Nat} {front rest : List Tag} {target : Tag} (hn : 2 ≤ n)
    (hsplit : before ++ after = front ++ target :: rest) (htarget : target.isFrame = true)
    (hrest : ∀ t ∈ rest, t.isFrame = false) (hfew : after.countP Tag.isFrame < n)
    (hsized : ∀ t ∈ before ++ after, t.Sized)
    (hkey : ∃ t ∈ front ++ [target], t.isKeyFrame = true) (hfeed : s.feed = .looping)
    (hat : At s.player h before after) (hplaying : s.player.isPlaying = true)
    (hreg : s.player.isRegulating = false) :
    SeeksTo s n h front target rest ↔
      ((before ++ after).filter Tag.isVideo).getLast?.any Tag.isFrame = true ∨
        n = after.countP Tag.isFrame + 1 ∧ after.head?.any (fun t => !t.isFrame) = true := by
  -- an I frame of the recording stands in front of what the walk ends at
  have hbehind {walk back : List Tag} {last : Tag}
      (hlast : before ++ after = walk ++ last :: back) (hback : ∀ t ∈ back, t.isFrame = false) :
      ∃ t ∈ walk ++ [last], t.isKeyFrame = true := by
    obtain ⟨key, hmem, hkeyFrame⟩ := hkey
    have hin : key ∈ walk ++ last :: back := by
      rw [← hlast, hsplit]
      simp only [List.mem_append, List.mem_cons, List.not_mem_nil, or_false] at hmem ⊢
      tauto
    have hfar : key ∉ back := fun hin => by
      have hframe := Tag.isFrame_of_isKeyFrame hkeyFrame
      rw [hback key hin] at hframe
      cases hframe
    refine ⟨key, ?_, hkeyFrame⟩
    simp only [List.mem_append, List.mem_cons, List.not_mem_nil, or_false] at hin ⊢
    tauto
  by_cases hshort : n = after.countP Tag.isFrame + 1 ∧ after.head?.any (fun t => !t.isFrame) = true
  · -- one short, the walk ends at the last frame
    obtain ⟨hcount, hhead⟩ := hshort
    obtain ⟨t, tags, rfl⟩ : ∃ t tags, after = t :: tags := List.exists_cons_of_ne_nil (by
      rintro rfl
      simp at hhead)
    have ht : t.isFrame = false := by simpa using hhead
    rw [List.countP_cons, ht, if_neg (by decide), Nat.add_zero] at hcount
    obtain ⟨walk, last, back, rfl, hlast, hback⟩ := exists_last (P := Tag.isFrame) (l := tags)
      (List.countP_pos_iff.mp (by omega))
    rw [List.countP_append, List.countP_cons, if_pos hlast,
      (List.countP_eq_zero (l := back)).mpr (by simpa using hback)] at hcount
    have hlands : LandsOn before (t :: (walk ++ last :: back)) n (before ++ t :: walk) last back :=
      .frame rfl hlast (by omega)
    rw [seeksTo_iff_of_landsOn hlands hn hsized hfeed hat hplaying hreg hsplit,
      if_pos (hbehind hlands.split hback)]
    refine ⟨fun _ => .inr ⟨?_, hhead⟩, fun _ => ⟨hlast, ?_⟩⟩
    · rw [List.countP_cons, ht, if_neg (by decide), List.countP_append, List.countP_cons,
        if_pos hlast, (List.countP_eq_zero (l := back)).mpr (by simpa using hback)]
      omega
    · exact last_frame_unique (hsplit.symm.trans hlands.split) htarget hlast hrest hback
  · rw [or_iff_left hshort]
    have hfar : after.tail.countP Tag.isFrame + 2 ≤ n := by
      cases after with
      | nil => exact hn
      | cons t tags =>
        rw [List.countP_cons] at hfew hshort
        cases ht : t.isFrame with
        | true =>
          rw [ht, if_pos rfl] at hfew
          exact hfew
        | false =>
          have hne : n ≠ tags.countP Tag.isFrame + 1 := fun heq =>
            hshort ⟨by rw [ht]; exact heq, by simp [ht]⟩
          rw [ht, if_neg (by decide)] at hfew
          rw [List.tail_cons]
          omega
    obtain ⟨walk, video, back, hlast, hvideo, hback⟩ :=
      exists_last (P := Tag.isVideo) (l := before ++ after)
        ⟨target, by rw [hsplit]; simp, Tag.isVideo_of_isFrame htarget⟩
    have hlands : LandsOn before after n walk video back := .video hlast hvideo hback hfar
    have hnone : ∀ t ∈ back, t.isFrame = false := fun t ht => by
      rw [Tag.isFrame, hback t ht, Bool.false_and]
    have hvideos : ((before ++ after).filter Tag.isVideo).getLast? = some video := by
      rw [hlast, List.filter_append, List.filter_cons_of_pos hvideo,
        (List.filter_eq_nil_iff (l := back)).mpr (by simpa using hback)]
      simp
    rw [seeksTo_iff_of_landsOn hlands hn hsized hfeed hat hplaying hreg hsplit,
      if_pos (hbehind hlast hnone), hvideos, Option.any_some]
    constructor
    · exact fun hboth => hboth.1
    · exact fun hframe =>
        ⟨hframe, last_frame_unique (hsplit.symm.trans hlast) htarget hframe hrest hnone⟩

/-- From any tag boundary, with an I frame at or in front of the frame that is asked for,
`step_by_frame(n)` has it played next exactly under `SeekOk`. -/
theorem stepByFrame_plays_iff {n : Nat} (hn : 1 ≤ n) {front rest : List Tag} {target : Tag}
    (hasked : Asked before after n front target rest)
    (hkey : ∃ t ∈ front ++ [target], t.isKeyFrame = true)
    (hsized : ∀ t ∈ before ++ after, t.Sized) (hfeed : s.feed = .looping)
    (hat : At s.player h before after) (hplaying : s.player.isPlaying = true)
    (hreg : s.player.isRegulating = false) :
    SeeksTo s n h front target rest ↔
      SeekOk s.player.needIFrame before after front target n := by
  unfold SeekOk
  split
  · next hone =>
    subst hone
    exact seeksTo_one_iff hasked hfeed hat hplaying hreg
  · next hmore =>
    cases hasked with
    | @ahead mid _ _ hafter htarget hcount =>
      subst hafter
      have henough : n ≤ (mid ++ target :: rest).countP Tag.isFrame := by
        rw [List.countP_append, List.countP_cons, if_pos htarget]
        omega
      rw [if_pos henough]
      exact seeksTo_ahead_iff (by omega) hcount htarget hsized hkey hfeed hat hplaying hreg
    | last hsplit htarget hrest hfew =>
      rw [if_neg (by omega)]
      exact seeksTo_last_iff (by omega) hsplit htarget hrest hfew hsized hkey hfeed hat hplaying
        hreg

/-- The header of the recording is read, and the player is paused. -/
def readGop : List Event :=
  [.setFilePath (some gop.bytes), .start, .feedBegin, .feedRound oneRate, .pause]

/-- Its first tag is read as well. -/
def readKeyFrame : List Event :=
  [.setFilePath (some gop.bytes), .start, .feedBegin, .feedRound oneRate, .feedRound oneRate,
    .pause]

theorem gop_sized : ∀ t ∈ gop.tags, t.Sized := by
  simp only [gop, List.forall_mem_cons, List.not_mem_nil, false_implies, implies_true, and_true]
  exact ⟨rfl, rfl, rfl, rfl⟩

/-- From the first tag, an I frame, the walk to the second frame has it played. -/
theorem stepByFrame_plays_iff_gop :
    ∃ s, Runs.exec step (init (FlvPlayer.opened [])) readGop = some s ∧
      SeeksTo s 2 gop.header [keyFrame, audioBlock] interFrame [interFrame] := by
  have hrun : ∃ s, Runs.exec step (init (FlvPlayer.opened [])) readGop = some s ∧
      s.feed = .looping ∧ At s.player gop.header [] gop.tags ∧ s.player.isPlaying = true ∧
      s.player.isRegulating = false := ⟨_, rfl, rfl, ⟨rfl, rfl, rfl, by decide⟩, rfl, rfl⟩
  obtain ⟨s, hexec, hfeed, hat, hplaying, hreg⟩ := hrun
  have hasked : Asked [] gop.tags 2 [keyFrame, audioBlock] interFrame [interFrame] :=
    .ahead rfl rfl rfl
  refine ⟨s, hexec, (stepByFrame_plays_iff (by decide) hasked ⟨keyFrame, by simp, rfl⟩ gop_sized
    hfeed hat hplaying hreg).mpr ?_⟩
  exact .inl rfl

/-- From an audio tag the walk to the second frame ends at the first. -/
theorem seek_falls_short :
    ∃ s, Runs.exec step (init (FlvPlayer.opened [])) readKeyFrame = some s ∧
      At s.player gop.header [keyFrame] [audioBlock, interFrame, interFrame] ∧
      s.player.isRegulating = false ∧ keyFrame.isKeyFrame = true ∧ (∀ t ∈ gop.tags, t.Sized) ∧
      Asked [keyFrame] [audioBlock, interFrame, interFrame] 2 [keyFrame, audioBlock, interFrame]
        interFrame [] ∧
      SeeksTo s 2 gop.header [keyFrame, audioBlock] interFrame [interFrame] ∧
      ¬ SeeksTo s 2 gop.header [keyFrame, audioBlock, interFrame] interFrame [] := by
  have hrun : ∃ s, Runs.exec step (init (FlvPlayer.opened [])) readKeyFrame = some s ∧
      s.feed = .looping ∧ At s.player gop.header [keyFrame] [audioBlock, interFrame, interFrame] ∧
      s.player.isPlaying = true ∧ s.player.isRegulating = false :=
    ⟨_, rfl, rfl, ⟨rfl, rfl, rfl, by decide⟩, rfl, rfl⟩
  obtain ⟨s, hexec, hfeed, hat, hplaying, hreg⟩ := hrun
  have hlands : LandsOn [keyFrame] [audioBlock, interFrame, interFrame] 2 [keyFrame, audioBlock]
      interFrame [interFrame] := .frame rfl rfl rfl
  have hkey : ∃ t ∈ [keyFrame, audioBlock] ++ [interFrame], t.isKeyFrame = true :=
    ⟨keyFrame, by simp, rfl⟩
  have hseeks {front rest : List Tag} {target : Tag}
      (hsplit : gop.tags = front ++ target :: rest) :=
    seeksTo_iff_of_landsOn hlands (by decide) gop_sized hfeed hat hplaying hreg hsplit
  have hasked : Asked [keyFrame] [audioBlock, interFrame, interFrame] 2
      ([keyFrame] ++ [audioBlock, interFrame]) interFrame [] := .ahead rfl rfl rfl
  refine ⟨s, hexec, hat, hreg, rfl, gop_sized, hasked, ?_, ?_⟩
  · rw [hseeks rfl, if_pos hkey]
    exact ⟨rfl, rfl⟩
  · rw [hseeks rfl, if_pos hkey]
    exact fun hboth => absurd (congrArg List.length hboth.2) (by decide)

end FlvSession

end MiniSurveillance
