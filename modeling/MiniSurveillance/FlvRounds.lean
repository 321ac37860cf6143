import MiniSurveillance.Crypto
import MiniSurveillance.FlvCursor

/-!
# A round over a tag

A round of the feed loop reads the tag at the cursor, has it handled, counts it and goes
behind it. `TagCall.frame?` is the frame it hands to the callback.

* `At.handles`: the tag is read and handled.
* `Handled.feeds`: what counting it leaves, whatever the callbacks did.
* `At.takes`: a round of a single step, which does not sleep.
-/

namespace MiniSurveillance
open Bytes

/-- The callbacks are given pointers behind the first two bytes of the data. -/
def TagEffects.KeepsHead (env : TagEffects) : Prop :=
  ∀ (m : Mem) (i : Nat), i < 2 → env.rewrite m i = m i

/-- Decrypting a key frame in place, from its NALU on, keeps them. -/
theorem TagEffects.keepsHead_of_crypts {env : TagEffects}
    (h : ∀ m, env.rewrite m = m ∨ ∃ key len, Crypto.Crypts key m 9 len (env.rewrite m)) :
    env.KeepsHead := by
  intro m i hi
  rcases h m with heq | ⟨key, len, hcrypts⟩
  · rw [heq]
  · exact Crypto.crypt_outside hcrypts (.inl (by omega))

/-- A call that hands a video frame to the callback: its data, and the `play` flag. -/
def TagCall.frame? (c : TagCall) : Option (List UInt8 × Bool) :=
  if c.type = FlvPlayer.tagVideo ∧ c.buf 1 = 0x01 ∧
      c.accesses.filterMap (Access.naluCall c.buf) ≠ [] then
    some (slice c.buf 0 c.len, c.play)
  else none

/-- The tag ends a wait for an I frame; it need be no frame itself. -/
def Tag.endsWait (t : Tag) : Bool :=
  t.isVideo && (t.data.getD 1 0 != 0x00 && t.data.getD 0 0 == 0x17)

theorem Tag.endsWait_of_isKeyFrame {t : Tag} (h : t.isKeyFrame = true) : t.endsWait = true := by
  simp only [isKeyFrame, isFrame, Bool.and_eq_true, beq_iff_eq] at h
  obtain ⟨⟨hvideo, hone⟩, hzero⟩ := h
  rw [endsWait, hvideo, hone, hzero]
  rfl

/-- Of the frames only the I frames end the wait. -/
theorem Tag.endsWait_of_isFrame {t : Tag} (h : t.isFrame = true) : t.endsWait = t.isKeyFrame := by
  have hframe := h
  simp only [isFrame, Bool.and_eq_true, beq_iff_eq] at h
  rw [isKeyFrame, hframe, endsWait, h.1, h.2]
  rfl

namespace FlvPlayer

/-! ## Counting and handling -/

/-- What a round makes of a tag while a single step is under way. -/
structure Takes (p : FlvPlayer) (t : Tag) (call : TagCall) (q : FlvPlayer) : Prop where
  frame : call.frame? =
    if t.isFrame && (t.isKeyFrame || !p.needIFrame) then some (t.data, !p.isRegulating) else none
  needIFrame : p.needIFrame = false ∨ t.isKeyFrame = true → q.needIFrame = false
  isPlaying : q.isPlaying = p.isPlaying
  isPause : q.isPause = p.isPause
  stepOneFrame : q.stepOneFrame = (p.isRegulating || !t.isFrame)
  isRegulating : q.isRegulating = (p.isRegulating && !(t.isVideo && p.regulateTagCount == 1))
  regulateTagCount : q.regulateTagCount =
    if p.isRegulating && t.isVideo then p.regulateTagCount - 1 else p.regulateTagCount

theorem sleepBehindTag_stepping {p : FlvPlayer} (h : p.stepOneFrame = true) :
    p.sleepBehindTag = some p := by
  simp [sleepBehindTag, h]

/-- While a walk is regulated only video tags are counted. -/
theorem countTag_regulating {p : FlvPlayer} (h : p.isRegulating = true) :
    p.countTag = if p.headerType == tagVideo then
      { p with
        regulateTagCount := p.regulateTagCount - 1
        isRegulating := p.regulateTagCount - 1 != 0 } else p := by
  simp [countTag, h]

/-- Else a frame ends the single step. -/
theorem countTag_single {p : FlvPlayer} (h : p.isRegulating = false) :
    p.countTag =
      if p.stepOneFrame && (p.headerType == tagVideo && p.tagData 1 == 0x01) then
        { p with stepOneFrame := false } else p := by
  unfold countTag
  simp only [h, Bool.not_false, Bool.and_true, Bool.and_assoc]
  split
  · simp
  · simp [h]

/-- What counting the tag in the buffers changes. -/
theorem countTag_counts {p : FlvPlayer} {t : Tag} (htype : p.headerType = t.type) :
    p.countTag.isRegulating = (p.isRegulating && !(t.isVideo && p.regulateTagCount == 1)) ∧
    p.countTag.regulateTagCount =
      (if p.isRegulating && t.isVideo then p.regulateTagCount - 1 else p.regulateTagCount) ∧
    p.countTag.needIFrame = p.needIFrame := by
  have hvideo : (p.headerType == tagVideo) = t.isVideo := by
    rw [htype]
    rfl
  cases hreg : p.isRegulating with
  | true =>
    rw [countTag_regulating hreg, hvideo]
    cases ht : t.isVideo with
    | true =>
      refine ⟨?_, rfl, rfl⟩
      have hone : p.regulateTagCount - 1 = 0 ↔ p.regulateTagCount = 1 := by omega
      simp [bne, beq_eq_decide, hone]
    | false => exact ⟨hreg, rfl, rfl⟩
  | false =>
    rw [countTag_single hreg]
    split
    · exact ⟨hreg, rfl, rfl⟩
    · exact ⟨hreg, rfl, rfl⟩

/-- A single step ends with the frame that is played. -/
theorem countTag_stepOneFrame {p : FlvPlayer} {t : Tag} (hstep : p.stepOneFrame = true)
    (htype : p.headerType = t.type) (hbyte : p.tagData 1 = t.data.getD 1 0) :
    p.countTag.stepOneFrame = (p.isRegulating || !t.isFrame) := by
  have hframe : (p.headerType == tagVideo && p.tagData 1 == 0x01) = t.isFrame := by
    rw [htype, hbyte]
    rfl
  cases hreg : p.isRegulating with
  | true =>
    rw [countTag_regulating hreg]
    split
    · exact hstep
    · exact hstep
  | false =>
    rw [countTag_single hreg, hstep, hframe]
    cases ht : t.isFrame with
    | true => rfl
    | false => exact hstep

theorem HoldsTag.byte {p : FlvPlayer} {t : Tag} (h : HoldsTag p t.type t.data) {i : Nat}
    (hi : i < 2) : p.tagData i = t.data.getD i 0 := by
  have hlt : i < t.data.length := Nat.lt_of_lt_of_le hi t.data_long
  have hget : (slice p.tagData 0 t.data.length)[i]? = some (p.tagData (0 + i)) :=
    slice_getElem? hlt
  rw [h.data, Nat.zero_add] at hget
  rw [List.getD_eq_getElem?_getD, hget, Option.getD_some]

/-- A frame is handed on, unless it is no I frame and one is waited for. -/
theorem handleFrame_calls (needIFrame : Bool) (buf : Mem) :
    ((handleFrame needIFrame buf).1.filterMap (Access.naluCall buf) ≠ [] ↔
      (buf 0 == 0x17 || !needIFrame) = true) ∧
    (handleFrame needIFrame buf).2 = (needIFrame && !(buf 0 == 0x17)) := by
  unfold handleFrame
  by_cases h₀ : buf 0 = 0x17
  · simp [h₀, frameLengthReads, Access.naluCall]
  · cases needIFrame with
    | true => simp [h₀, frameLengthReads, Access.naluCall]
    | false => simp [h₀, frameLengthReads, Access.naluCall]

/-- What the handlers of a video frame do. -/
theorem tagAccesses_frame {buf : Mem} (hone : buf 1 = 0x01) (needIFrame : Bool) (len : Nat) :
    tagAccesses needIFrame tagVideo buf len =
      (.read 1 :: (handleFrame needIFrame buf).1, (handleFrame needIFrame buf).2) := by
  have hne : buf 1 ≠ 0x00 := by
    rw [hone]
    decide
  rw [tagAccesses, if_pos rfl, handleVideoTagData, if_neg hne]

/-- The call for a tag in the buffers hands it on if it is a frame, and an I frame where
one is waited for. -/
theorem HoldsTag.frame {p : FlvPlayer} {t : Tag} (h : HoldsTag p t.type t.data)
    (headerGot got : Int) :
    (p.tagCall headerGot got).frame? =
      if t.isFrame && (t.isKeyFrame || !p.needIFrame) then some (t.data, !p.isRegulating)
      else none := by
  have hkey : t.isKeyFrame = (t.isFrame && p.tagData 0 == 0x17) := by
    rw [Tag.isKeyFrame, h.byte (by decide)]
  have hframe : t.isFrame = true ↔ t.type = tagVideo ∧ p.tagData 1 = 0x01 := by
    rw [h.byte (by decide), Tag.isFrame, Tag.isVideo, Bool.and_eq_true, beq_iff_eq, beq_iff_eq]
  unfold TagCall.frame? tagCall
  dsimp only
  rw [h.type, h.bufLen, h.data]
  cases ht : t.isFrame with
  | true =>
    obtain ⟨hvideo, hone⟩ := hframe.mp ht
    obtain ⟨hcalls, _⟩ := handleFrame_calls p.needIFrame p.tagData
    rw [hkey, ht, hvideo, tagAccesses_frame hone, List.filterMap_cons_none rfl]
    exact if_congr (by simp only [hone, true_and, Bool.true_and, hcalls]) rfl rfl
  | false =>
    have hnot : ¬ (t.type = tagVideo ∧ p.tagData 1 = 0x01) := fun hand => by
      simp [hframe.mpr hand] at ht
    rw [if_neg fun hand => hnot ⟨hand.1, hand.2.1⟩]
    rfl

/-- The handlers of the tag end the wait, or leave it. -/
theorem HoldsTag.needIFrame {p : FlvPlayer} {t : Tag} (h : HoldsTag p t.type t.data) :
    (tagAccesses p.needIFrame p.headerType p.tagData p.bufLen).2 =
      (p.needIFrame && !t.endsWait) := by
  unfold tagAccesses
  rw [h.type]
  split
  · next hvideo =>
    have hvideo : t.isVideo = true := beq_iff_eq.mpr hvideo
    rw [Tag.endsWait, hvideo, ← h.byte (by decide), ← h.byte (by decide)]
    unfold handleVideoTagData
    split
    · next hzero =>
      rw [hzero]
      simp
    · next hne =>
      rw [show (p.tagData 1 != 0x00) = true from bne_iff_ne.mpr hne]
      exact (handleFrame_calls p.needIFrame p.tagData).2
  · next hvideo =>
    have hvideo : t.isVideo = false := beq_eq_false_iff_ne.mpr hvideo
    rw [Tag.endsWait, hvideo]
    split
    · simp
    · simp

/-- The tag `t` at the cursor is in the buffers, and its handlers are done. -/
structure Handled (p : FlvPlayer) (h : SegmentHeader) (before after : List Tag) (t : Tag)
    (q : FlvPlayer) : Prop where
  readsAt : ReadsAt q (upTo h before ++ (t.header ++ t.data))
    (t.previous ++ after.flatMap Tag.bytes)
  curIdx : q.curIdx = (upTo h before).length + (t.header ++ t.data).length
  totalBytes : q.totalBytes = p.totalBytes
  type : q.headerType = t.type
  isPlaying : q.isPlaying = p.isPlaying
  isPause : q.isPause = p.isPause
  needIFrame : q.needIFrame = (p.needIFrame && !t.endsWait)
  isRegulating : q.isRegulating = p.isRegulating
  stepOneFrame : q.stepOneFrame = p.stepOneFrame
  regulateTagCount : q.regulateTagCount = p.regulateTagCount

/-- A round handles the tag at the cursor. -/
theorem At.handles {p : FlvPlayer} {h : SegmentHeader} {before after : List Tag} {t : Tag}
    (hp : At p h before (t :: after)) (hplaying : p.isPlaying = true)
    (hgo : p.isPause = true → p.stepOneFrame = true) (env : TagEffects) :
    ∃ call q, feedRound env p = finishTag call q ∧ Handled p h before after t q ∧
      call.frame? = (if t.isFrame && (t.isKeyFrame || !p.needIFrame)
        then some (t.data, !p.isRegulating) else none) ∧
      q.fps = env.sleeps.getLast?.getD p.fps ∧
      (env.KeepsHead → q.tagData 1 = t.data.getD 1 0) := by
  obtain ⟨r, headerGot, got, hround, hmoved, hholds, hreads, hcur⟩ := hp.reads hplaying hgo env
  have hframe := hholds.frame headerGot got
  rw [hmoved.needIFrame, hmoved.isRegulating] at hframe
  have hs := handleTag_eq env r
  refine ⟨r.tagCall headerGot got, r.handleTag env, hround, ?_, hframe, ?_, fun henv => ?_⟩
  · rw [hs]
    refine ⟨hreads, hcur, hmoved.totalBytes, hholds.type, hmoved.isPlaying, hmoved.isPause, ?_,
      hmoved.isRegulating, hmoved.stepOneFrame, hmoved.regulateTagCount⟩
    rw [← hmoved.needIFrame]
    exact hholds.needIFrame
  · rw [hs, ← hmoved.fps]
  · rw [hs]
    -- the callbacks leave what the counting looks at
    exact (henv r.tagData 1 (by decide)).trans (hholds.byte (by decide))

/-- What counting the tag and going behind it leaves, whatever the callbacks did. -/
structure Feeds (p : FlvPlayer) (t : Tag) (q : FlvPlayer) : Prop where
  needIFrame : q.needIFrame = (p.needIFrame && !t.endsWait)
  isPlaying : q.isPlaying = p.isPlaying
  isPause : q.isPause = p.isPause
  isRegulating : q.isRegulating = (p.isRegulating && !(t.isVideo && p.regulateTagCount == 1))
  regulateTagCount : q.regulateTagCount =
    if p.isRegulating && t.isVideo then p.regulateTagCount - 1 else p.regulateTagCount

theorem Handled.feeds {p q : FlvPlayer} {h : SegmentHeader} {before after : List Tag} {t : Tag}
    (hq : Handled p h before after t q) (hp : At p h before (t :: after)) :
    Feeds p t q.countTag.skipPreviousTagSize ∧
      At q.countTag.skipPreviousTagSize h (before ++ [t]) after := by
  obtain ⟨hcRegulating, hcCount, hcNeed⟩ := countTag_counts hq.type
  rw [hq.isRegulating, hq.regulateTagCount] at hcRegulating hcCount
  have hsame := (countTag_frame q).1
  refine ⟨⟨hcNeed.trans hq.needIFrame, hsame.isPlaying.trans hq.isPlaying,
    hsame.isPause.trans hq.isPause, hcRegulating, hcCount⟩, ⟨?_, ?_, ?_, ?_⟩⟩
  · have hbehind : ReadsAt q.countTag (upTo h before ++ (t.header ++ t.data))
        (t.previous ++ after.flatMap Tag.bytes) := hsame.fileFd.trans hq.readsAt
    have hseek := hbehind.seekCur
    rw [t.previous_length, List.append_assoc, List.append_assoc, ← t.bytes_eq, ← upTo_snoc] at hseek
    exact hseek
  · show q.countTag.curIdx + 4 = _
    rw [hsame.curIdx, hq.curIdx, upTo_snoc, t.bytes_eq]
    simp only [List.length_append, t.previous_length]
    omega
  · show q.countTag.totalBytes = _
    rw [hsame.totalBytes, hq.totalBytes, hp.totalBytes, List.append_assoc, List.singleton_append]
  · show q.countTag.totalBytes < _
    rw [hsame.totalBytes, hq.totalBytes]
    exact hp.long

/-- In a single step a round takes the tag at the cursor. -/
theorem At.takes {p : FlvPlayer} {h : SegmentHeader} {before after : List Tag} {t : Tag}
    (hp : At p h before (t :: after)) (hplaying : p.isPlaying = true)
    (hstep : p.stepOneFrame = true) {env : TagEffects} (henv : env.KeepsHead) :
    ∃ call q, feedRound env p = .tag call q ∧ Takes p t call q ∧ At q h (before ++ [t]) after := by
  obtain ⟨call, q, hround, hhandled, hframe, _, hbyte⟩ :=
    hp.handles hplaying (fun _ => hstep) env
  have hqStep : q.stepOneFrame = true := hhandled.stepOneFrame.trans hstep
  obtain ⟨hfeeds, hat⟩ := hhandled.feeds hp
  have hcount := countTag_stepOneFrame hqStep hhandled.type (hbyte henv)
  rw [hhandled.isRegulating] at hcount
  refine ⟨call, q.countTag.skipPreviousTagSize, ?_, ⟨hframe, fun hkey => ?_, hfeeds.isPlaying,
    hfeeds.isPause, hcount, hfeeds.isRegulating, hfeeds.regulateTagCount⟩, hat⟩
  · rw [hround, finishTag, sleepBehindTag_stepping hqStep]
  · rw [hfeeds.needIFrame]
    rcases hkey with hoff | hkey
    · rw [hoff, Bool.false_and]
    · rw [Tag.endsWait_of_isKeyFrame hkey, Bool.not_true, Bool.and_false]

end FlvPlayer

namespace FlvSession

theorem step_feedRound {s : FlvSession} {env : TagEffects} {call : TagCall} {q : FlvPlayer}
    (hfeed : s.feed = .looping) (h : s.player.feedRound env = .tag call q) :
    step s (.feedRound env) = some { s with player := q, calls := s.calls ++ [call] } := by
  simp [step, feedRound, hfeed, h]

end FlvSession

end MiniSurveillance
