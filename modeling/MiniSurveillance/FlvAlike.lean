import MiniSurveillance.FlvRounds
import MiniSurveillance.FlvControls
import MiniSurveillance.FlvTags

/-!
# Players that do the same

Of two players that play the same file one may have played others before. `Alike` is what
has to be the same in both. The buffers need not be, nor `buf_len`: a whole tag that is read
covers what its handlers look at. `fps` need not be, as long as no sleep is due by a rate of
zero, nor `is_pause`, `need_I_frame`, `cur_idx` and `total_bytes` before the player plays and
its feed thread has begun.

* `tagAccesses_congr`: what the handlers make of a whole tag does not depend on the buffer.
* `feedRound_alike`: a round over a whole tag shows the same, and leaves players that are
  again alike.
-/

namespace MiniSurveillance
open Bytes

/-- What the callbacks receive during one call of `handle_tag`. -/
structure Callbacks where
  nalus : List (NaluType × List UInt8)
  audios : List (AudioType × AudioChannelType × List UInt8)
  play : Bool
deriving DecidableEq

def TagCall.callbacks (c : TagCall) : Callbacks where
  nalus := c.accesses.filterMap (Access.naluCall c.buf)
  audios := c.accesses.filterMap (Access.audioCall c.buf)
  play := c.play

namespace FlvPlayer

/-! ## The handlers -/

theorem byte_front {m : Mem} {data : List UInt8} (h : slice m 0 data.length = data) {i : Nat}
    (hi : i < data.length) : data[i]? = some (m i) := by
  have hget : (slice m 0 data.length)[i]? = some (m (0 + i)) := slice_getElem? hi
  rwa [h, Nat.zero_add] at hget

/-- The same bytes at the front of two buffers. -/
theorem byte_eq {m m' : Mem} {data : List UInt8} (h : slice m 0 data.length = data)
    (h' : slice m' 0 data.length = data) {i : Nat} (hi : i < data.length) : m i = m' i :=
  Option.some.inj ((byte_front h hi).symm.trans (byte_front h' hi))

/-- What two runs of handlers do is the same, over their buffers. -/
structure SameCalls (m m' : Mem) (as as' : List Access) : Prop where
  nalus : as.filterMap (Access.naluCall m) = as'.filterMap (Access.naluCall m')
  audios : as.filterMap (Access.audioCall m) = as'.filterMap (Access.audioCall m')

theorem SameCalls.read {m m' : Mem} {as as' : List Access} (h : SameCalls m m' as as') (i : Nat) :
    SameCalls m m' (.read i :: as) (.read i :: as') :=
  ⟨h.nalus, h.audios⟩

theorem spsPps_audios (m : Mem) : (spsPps m).filterMap (Access.audioCall m) = [] := by
  rw [List.filterMap_eq_nil_iff]
  intro a ha
  rcases spsPps_mem ha with ⟨i, rfl⟩ | ⟨type, o, n, _, rfl⟩
  · rfl
  · rfl

theorem spsPps_congr {m m' : Mem} {data : List UInt8} {h : SequenceHeader}
    (hm : slice m 0 data.length = data) (hm' : slice m' 0 data.length = data)
    (hdata : data = h.bytes) : SameCalls m m' (spsPps m) (spsPps m') := by
  refine ⟨?_, (spsPps_audios m).trans (spsPps_audios m').symm⟩
  rw [(spsPps_spec (hm.trans hdata)).1, (spsPps_spec (hm'.trans hdata)).1]

theorem handleFrame_congr {m m' : Mem} {data : List UInt8} {needIFrame : Bool}
    (hm : slice m 0 data.length = data) (hm' : slice m' 0 data.length = data)
    (hpos : 0 < data.length)
    (h : (∃ f : FrameBody, data = f.bytes) ∨ (needIFrame = true ∧ data[0]? ≠ some 0x17)) :
    SameCalls m m' (handleFrame needIFrame m).1 (handleFrame needIFrame m').1 ∧
      (handleFrame needIFrame m).2 = (handleFrame needIFrame m').2 := by
  have hzero : m 0 = m' 0 := byte_eq hm hm' hpos
  have hcall (type : NaluType) (hf : ∃ f : FrameBody, data = f.bytes) :
      SameCalls m m' (frameLengthReads ++ [.read 0, .nalu type 9 (frameLength m)])
        (frameLengthReads ++ [.read 0, .nalu type 9 (frameLength m')]) := by
    obtain ⟨f, hf⟩ := hf
    obtain ⟨hlen, hnalu, _⟩ := FrameBody.at (hm.trans hf)
    obtain ⟨hlen', hnalu', _⟩ := FrameBody.at (hm'.trans hf)
    refine ⟨?_, rfl⟩
    show [(type, slice m 9 (frameLength m))] = [(type, slice m' 9 (frameLength m'))]
    rw [hlen, hlen', hnalu, hnalu']
  unfold handleFrame
  rw [← hzero]
  split
  · next hkey =>
    refine ⟨hcall .idr (h.resolve_right fun hwaits => hwaits.2 ?_), rfl⟩
    rw [byte_front hm hpos, hkey]
  · split
    · exact ⟨⟨rfl, rfl⟩, rfl⟩
    · next hneed => exact ⟨hcall .other (h.resolve_right fun hwaits => hneed hwaits.1), rfl⟩

theorem handleAudio_congr {type : AudioType} {m m' : Mem} {data : List UInt8}
    (hm : slice m 0 data.length = data) (hm' : slice m' 0 data.length = data)
    (hlong : 2 ≤ data.length) (hle : data.length ≤ tagDataSize) :
    SameCalls m m' (handleAudio type m data.length) (handleAudio type m' data.length) := by
  have hwithin := @handleAudio_within type m data.length hlong hle
    (.audio type (audioChannel m) 2 (UInt32.ofNat data.length - 2).toNat)
    (List.mem_cons_of_mem _ (List.mem_singleton_self _))
  have hslice : slice m 2 (UInt32.ofNat data.length - 2).toNat =
      slice m' 2 (UInt32.ofNat data.length - 2).toNat := by
    refine List.map_congr_left fun i hi => byte_eq hm hm' ?_
    have := List.mem_range'_1.mp hi
    have : 2 + (UInt32.ofNat data.length - 2).toNat ≤ data.length := hwithin
    omega
  have hchannel : audioChannel m = audioChannel m' := by
    rw [audioChannel, audioChannel, byte_eq hm hm' (by omega)]
  refine ⟨rfl, ?_⟩
  show [(type, audioChannel m, slice m 2 _)] = [(type, audioChannel m', slice m' 2 _)]
  rw [hslice, hchannel]

/-- What the handlers make of a whole tag does not depend on what else is in the buffer. -/
theorem tagAccesses_congr {m m' : Mem} {data : List UInt8} {needIFrame : Bool} {type : Nat}
    (hm : slice m 0 data.length = data) (hm' : slice m' 0 data.length = data)
    (hle : data.length ≤ tagDataSize) (hdata : WholeData needIFrame type data) :
    SameCalls m m' (tagAccesses needIFrame type m data.length).1
        (tagAccesses needIFrame type m' data.length).1 ∧
      (tagAccesses needIFrame type m data.length).2 =
        (tagAccesses needIFrame type m' data.length).2 := by
  unfold tagAccesses
  split
  · next hvideo =>
    unfold handleVideoTagData
    rcases hdata.1 hvideo with ⟨hsecond, h, hbytes⟩ | ⟨b, hsecond, hne, hframe⟩
    · rw [if_pos (slice_byte hm hsecond).2, if_pos (slice_byte hm' hsecond).2]
      exact ⟨(spsPps_congr hm hm' hbytes).read 1, rfl⟩
    · rw [if_neg ((slice_byte hm hsecond).2 ▸ hne), if_neg ((slice_byte hm' hsecond).2 ▸ hne)]
      have hpos : 0 < data.length := Nat.lt_of_succ_lt (slice_byte hm hsecond).1
      obtain ⟨hcalls, hneed⟩ := handleFrame_congr hm hm' hpos hframe
      exact ⟨hcalls.read 1, hneed⟩
  · split
    · next haudio =>
      have hlong := hdata.2 haudio
      refine ⟨?_, rfl⟩
      unfold handleAudioTagData
      rw [← byte_eq hm hm' (show 1 < data.length by omega)]
      split
      · exact (handleAudio_congr hm hm' hlong hle).read 1
      · exact (handleAudio_congr hm hm' hlong hle).read 1
    · exact ⟨⟨rfl, rfl⟩, rfl⟩

/-! ## Alike players -/

/-- What is the same in two players, though they played other recordings before. -/
structure Alike (p q : FlvPlayer) : Prop where
  fileFd : q.fileFd = p.fileFd
  isPlaying : q.isPlaying = p.isPlaying
  isRegulating : q.isRegulating = p.isRegulating
  stepOneFrame : q.stepOneFrame = p.stepOneFrame
  rate : q.pendingRate = some 0 ↔ p.pendingRate = some 0
  isPause : p.isPlaying = true → q.isPause = p.isPause
  needIFrame : p.isPlaying = true → q.needIFrame = p.needIFrame
  regulateTagCount : p.isRegulating = true → q.regulateTagCount = p.regulateTagCount

/-- The feed threads of alike players have begun, and come to the same place. -/
structure Abreast (p q : FlvPlayer) : Prop extends Alike p q where
  curIdx : q.curIdx = p.curIdx
  totalBytes : q.totalBytes = p.totalBytes

variable {p q : FlvPlayer}

theorem Alike.symm (h : Alike p q) : Alike q p where
  fileFd := h.fileFd.symm
  isPlaying := h.isPlaying.symm
  isRegulating := h.isRegulating.symm
  stepOneFrame := h.stepOneFrame.symm
  rate := h.rate.symm
  isPause := fun hon => (h.isPause (h.isPlaying.symm.trans hon)).symm
  needIFrame := fun hon => (h.needIFrame (h.isPlaying.symm.trans hon)).symm
  regulateTagCount := fun hon => (h.regulateTagCount (h.isRegulating.symm.trans hon)).symm

theorem Abreast.symm (h : Abreast p q) : Abreast q p :=
  ⟨h.toAlike.symm, h.curIdx.symm, h.totalBytes.symm⟩

/-! ## The commands -/

theorem Alike.setFilePath (h : Alike p q) (opened : Option (List UInt8)) :
    Alike (p.setFilePath opened) (q.setFilePath opened) := by
  unfold FlvPlayer.setFilePath
  by_cases hon : p.isPlaying = true
  · rw [if_pos hon, if_pos (h.isPlaying.trans hon)]
    exact h
  · rw [if_neg hon, if_neg (h.isPlaying ▸ hon)]
    exact { h with fileFd := rfl }

/-- A player that starts is not paused, and waits for an I frame. -/
theorem Alike.start (h : Alike p q) : Alike p.start q.start := by
  have hsame : (q.isPlaying || q.fileFd.isNone) = (p.isPlaying || p.fileFd.isNone) := by
    rw [h.isPlaying, h.fileFd]
  unfold FlvPlayer.start
  by_cases hno : (p.isPlaying || p.fileFd.isNone) = true
  · rw [if_pos hno, if_pos (hsame.trans hno)]
    exact h
  · rw [if_neg hno, if_neg (hsame ▸ hno)]
    exact { h with isPlaying := rfl, isPause := fun _ => rfl, needIFrame := fun _ => rfl }

theorem Alike.stop (h : Alike p q) : Alike p.stop q.stop := by
  unfold FlvPlayer.stop
  rw [h.isPlaying]
  split
  · exact { h with fileFd := rfl, isPlaying := rfl, isPause := fun _ => rfl, needIFrame := nofun }
  · exact h

theorem Alike.pause (h : Alike p q) : Alike p.pause q.pause :=
  { h with isPause := fun hon => congrArg (!·) (h.isPause hon) }

theorem Alike.setPause (h : Alike p q) (isPause : Bool) :
    Alike { p with isPause } { q with isPause } := { h with isPause := fun _ => rfl }

theorem Alike.setStepOneFrame (h : Alike p q) (stepOneFrame : Bool) :
    Alike { p with stepOneFrame } { q with stepOneFrame } := { h with stepOneFrame := rfl }

/-- The head of `feed_task` sets the cursor and the size. -/
theorem Alike.feedBegin (h : Alike p q) : Abreast p.feedBegin q.feedBegin where
  toAlike := { h with fileFd := congrArg (Option.map _) h.fileFd }
  curIdx := rfl
  totalBytes := by
    unfold FlvPlayer.feedBegin
    rw [h.fileFd]

/-! ## A round of the feed loop -/

/-- Two rounds end the same way, with the same callbacks and players abreast. -/
inductive SameRound : FeedRound → FeedRound → Prop
  | stopped : SameRound .stopped .stopped
  | wait : SameRound .wait .wait
  | header {p q : FlvPlayer} : Abreast p q → SameRound (.header p) (.header q)
  | tag {call call' : TagCall} {p q : FlvPlayer} : call'.callbacks = call.callbacks →
      Abreast p q → SameRound (.tag call p) (.tag call' q)
  | crash {call call' : TagCall} : call'.callbacks = call.callbacks →
      SameRound (.crash call) (.crash call')

/-- A sleep that divides by zero is due without a rate. -/
theorem pendingRate_of_none (h : p.sleepBehindTag = none) :
    p.pendingRate = some 0 ∧ NoSeek p := by
  unfold sleepBehindTag at h
  split at h
  · next hdue =>
    simp only [Bool.and_eq_true, Bool.not_eq_true'] at hdue
    split at h
    · next hfps =>
      refine ⟨?_, hdue.1.2, hdue.2⟩
      rw [pendingRate, if_pos hdue.1.1, hfps]
    · cases h
  · cases h

/-- A sleep that is left out for want of a rate is still due. -/
theorem pendingRate_of_some (h : p.sleepBehindTag = some q) :
    q.pendingRate = some 0 ↔ p.pendingRate = some 0 := by
  constructor
  · intro hq
    by_contra hrate
    obtain ⟨r, hr, _, hne, _⟩ := sleepBehindTag_some hrate
    obtain rfl := Option.some.inj (h.symm.trans hr)
    exact hne hq
  · intro hp
    unfold sleepBehindTag at h
    split at h
    · next hdue =>
      split at h
      · cases h
      · next hfps =>
        simp only [Bool.and_eq_true] at hdue
        rw [pendingRate, if_pos hdue.1.1] at hp
        exact absurd (Option.some.inj hp) hfps
    · obtain rfl := Option.some.inj h
      exact hp

/-- The sleep behind a tag divides by zero in both players or in neither. -/
theorem Abreast.sleepBehindTag (h : Abreast p q) :
    (p.sleepBehindTag = none ∧ q.sleepBehindTag = none) ∨
    ∃ b c, p.sleepBehindTag = some { p with needSleep := b } ∧
      q.sleepBehindTag = some { q with needSleep := c } ∧
      Abreast { p with needSleep := b } { q with needSleep := c } := by
  have hnone {p q : FlvPlayer} (h : Alike p q) (hp : p.sleepBehindTag = none) :
      q.sleepBehindTag = none := by
    obtain ⟨hrate, hreg, hstep⟩ := pendingRate_of_none hp
    exact sleepBehindTag_none ⟨h.isRegulating.trans hreg, h.stepOneFrame.trans hstep⟩
      (h.rate.mpr hrate)
  cases hp : p.sleepBehindTag with
  | none => exact .inl ⟨rfl, hnone h.toAlike hp⟩
  | some p' =>
    cases hq : q.sleepBehindTag with
    | none =>
      rw [hnone h.toAlike.symm hq] at hp
      cases hp
    | some q' =>
      have hratep := pendingRate_of_some hp
      have hrateq := pendingRate_of_some hq
      obtain ⟨b, rfl⟩ := sleepBehindTag_of hp
      obtain ⟨c, rfl⟩ := sleepBehindTag_of hq
      exact .inr ⟨b, c, rfl, rfl,
        { h with rate := (hrateq.trans h.rate).trans hratep.symm }⟩

/-- Counting looks at the type of the tag, and of a video tag at its second byte. -/
theorem Abreast.countTag (h : Abreast p q) (htype : q.headerType = p.headerType)
    (hbyte : p.headerType = tagVideo → q.tagData 1 = p.tagData 1) :
    Abreast p.countTag q.countTag := by
  cases hreg : p.isRegulating with
  | true =>
    rw [countTag_regulating hreg, countTag_regulating (h.isRegulating.trans hreg), htype]
    have hcount := h.regulateTagCount hreg
    split
    · exact { h with
        isRegulating := by
          show (q.regulateTagCount - 1 != 0) = _
          rw [hcount]
        regulateTagCount := fun _ => by
          show q.regulateTagCount - 1 = _
          rw [hcount] }
    · exact h
  | false =>
    have hframe : (q.headerType == tagVideo && q.tagData 1 == 0x01) =
        (p.headerType == tagVideo && p.tagData 1 == 0x01) := by
      rw [htype]
      by_cases hvideo : p.headerType = tagVideo
      · rw [hbyte hvideo]
      · rw [beq_eq_false_iff_ne.mpr hvideo]
        rfl
    rw [countTag_single hreg, countTag_single (h.isRegulating.trans hreg), h.stepOneFrame, hframe]
    split
    · exact { h with stepOneFrame := rfl }
    · exact h

theorem Abreast.skipPreviousTagSize (h : Abreast p q) :
    Abreast p.skipPreviousTagSize q.skipPreviousTagSize :=
  { h with
    fileFd := congrArg (Option.map _) h.fileFd
    curIdx := congrArg (· + 4) h.curIdx }

/-- A whole tag in the buffers is handled and finished alike. -/
theorem Abreast.finishTag (h : Abreast p q) {type : Nat} {data : List UInt8}
    (hp : HoldsTag p type data) (hq : HoldsTag q type data) (hplaying : p.isPlaying = true)
    (hle : data.length ≤ tagDataSize) (hdata : WholeData p.needIFrame type data)
    {env : TagEffects} (henv : env.KeepsHead) (headerGot got headerGot' got' : Int) :
    SameRound (finishTag (p.tagCall headerGot got) (p.handleTag env))
      (finishTag (q.tagCall headerGot' got') (q.handleTag env)) := by
  obtain ⟨hcalls, hneed⟩ := tagAccesses_congr hp.data hq.data hle hdata
  have hwaits := h.needIFrame hplaying
  have hcall : (q.tagCall headerGot' got').callbacks = (p.tagCall headerGot got).callbacks := by
    simp only [TagCall.callbacks, tagCall, hp.type, hq.type, hp.bufLen, hq.bufLen, hwaits,
      hcalls.nalus, hcalls.audios, h.isRegulating]
  have hrate : (q.handleTag env).pendingRate = some 0 ↔ (p.handleTag env).pendingRate = some 0 := by
    rw [handleTag_pendingRate, handleTag_pendingRate, rate, rate]
    cases env.sleeps.getLast? with
    | none => exact h.rate
    | some fps => exact Iff.rfl
  have hbyte : type = tagVideo → (q.handleTag env).tagData 1 = (p.handleTag env).tagData 1 := by
    intro hvideo
    have hlong : 1 < data.length := by
      rcases hdata.1 hvideo with ⟨hsecond, _⟩ | ⟨_, hsecond, _⟩
      · exact (slice_byte hp.data hsecond).1
      · exact (slice_byte hp.data hsecond).1
    rw [handleTag_eq, handleTag_eq]
    show env.rewrite q.tagData 1 = env.rewrite p.tagData 1
    rw [henv q.tagData 1 (by decide), henv p.tagData 1 (by decide), byte_eq hq.data hp.data hlong]
  have hneed' : (q.handleTag env).needIFrame = (p.handleTag env).needIFrame := by
    rw [handleTag_eq, handleTag_eq]
    show (tagAccesses q.needIFrame q.headerType q.tagData q.bufLen).2 =
      (tagAccesses p.needIFrame p.headerType p.tagData p.bufLen).2
    rw [hwaits, hp.type, hq.type, hp.bufLen, hq.bufLen, hneed]
  have htype (p : FlvPlayer) : (p.handleTag env).headerType = p.headerType := by
    rw [handleTag_eq]
    rfl
  have hhandled : Abreast (p.handleTag env) (q.handleTag env) := by
    rw [handleTag_eq, handleTag_eq] at hrate hneed' ⊢
    exact { h with rate := hrate, isPause := h.isPause, needIFrame := fun _ => hneed' }
  unfold FlvPlayer.finishTag
  rcases hhandled.sleepBehindTag with ⟨hnonep, hnoneq⟩ | ⟨b, c, hsomep, hsomeq, hslept⟩
  · rw [hnonep, hnoneq]
    exact .crash hcall
  · rw [hsomep, hsomeq]
    refine .tag hcall (hslept.countTag ?_ ?_).skipPreviousTagSize
    · exact (htype q).trans ((hq.type.trans hp.type.symm).trans (htype p).symm)
    · exact fun hvideo => hbyte (hp.type.symm.trans ((htype p).symm.trans hvideo))

/-- Players abreast reach the same tag. -/
theorem Abreast.wholeTag (h : Abreast p q) (hwhole : WholeTag p) : WholeTag q := by
  rintro ⟨hplaying, hgo, hroom⟩
  have hon : p.isPlaying = true := h.isPlaying.symm.trans hplaying
  rw [h.isPause hon, h.stepOneFrame] at hgo
  rw [h.curIdx, h.totalBytes] at hroom
  obtain ⟨done, front, tail, data, rest, hread, hrest⟩ := hwhole ⟨hon, hgo, hroom⟩
  refine ⟨done, front, tail, data, rest, h.fileFd.trans hread, ?_⟩
  rwa [h.needIFrame hon]

/-- The first nine bytes that are read tell a segment header. -/
theorem isFlvHeader_congr {m m' : Mem} {front : List UInt8}
    (hfront : front.length = flvHeaderLength) :
    isFlvHeader (write m 0 front) = isFlvHeader (write m' 0 front) := by
  unfold isFlvHeader
  rw [Bool.eq_iff_iff, List.all_eq_true, List.all_eq_true]
  refine forall₂_congr fun i hi => ?_
  have hlt : i < front.length := by
    rw [hfront]
    exact List.mem_range.mp hi
  rw [write_zero_of_lt hlt, write_zero_of_lt hlt]

/-- A round that reaches a whole tag shows the same in players abreast. -/
theorem feedRound_alike (h : Abreast p q) (hwhole : WholeTag p) {env : TagEffects}
    (henv : env.KeepsHead) : SameRound (feedRound env p) (feedRound env q) := by
  by_cases hplaying : p.isPlaying = true
  swap
  · rw [feedRound, feedRound, if_pos (by simpa using hplaying),
      if_pos (by simpa [h.isPlaying] using hplaying)]
    exact .stopped
  have hon : ¬ (!p.isPlaying) = true := by simpa using hplaying
  have hon' : ¬ (!q.isPlaying) = true := by rwa [h.isPlaying]
  have hsamePause : (q.isPause && !q.stepOneFrame) = (p.isPause && !p.stepOneFrame) := by
    rw [h.isPause hplaying, h.stepOneFrame]
  by_cases hpause : (p.isPause && !p.stepOneFrame) = true
  · rw [feedRound, feedRound, if_neg hon, if_neg hon', if_pos hpause,
      if_pos (hsamePause.trans hpause)]
    exact .wait
  have hpause' : ¬ (q.isPause && !q.stepOneFrame) = true := by rwa [hsamePause]
  by_cases hend : p.curIdx + flvHeaderLength > p.totalBytes
  · have hend' : q.curIdx + flvHeaderLength > q.totalBytes := by rwa [h.curIdx, h.totalBytes]
    rw [feedRound, feedRound, if_neg hon, if_neg hon', if_neg hpause, if_neg hpause', if_pos hend,
      if_pos hend']
    exact .wait
  have hend' : ¬ q.curIdx + flvHeaderLength > q.totalBytes := by rwa [h.curIdx, h.totalBytes]
  obtain ⟨done, front, tail, data, rest, hread, hfront, hcases⟩ :=
    hwhole ⟨hplaying, by simpa using hpause, by omega⟩
  have hread' : ReadsAt q done (front ++ (tail ++ (data ++ rest))) := h.fileFd.trans hread
  -- both read the same nine bytes
  have hreads {p : FlvPlayer} (hread : ReadsAt p done (front ++ (tail ++ (data ++ rest)))) :
      p.got flvHeaderLength = flvHeaderLength ∧
        ReadsAt (p.readTagHeader 0 flvHeaderLength) (done ++ front) (tail ++ (data ++ rest)) ∧
        (p.readTagHeader 0 flvHeaderLength).tagHeader = write p.tagHeader 0 front := by
    have hgot := hread.got
    have hnext := hread.next
    have hbehind := hread.readTagHeader 0
    rw [hfront] at hgot hnext hbehind
    refine ⟨hgot, hbehind, ?_⟩
    show write p.tagHeader 0 (p.next flvHeaderLength) = _
    rw [hnext]
  obtain ⟨hgot, hbehind, hheader⟩ := hreads hread
  obtain ⟨hgot', hbehind', hheader'⟩ := hreads hread'
  let r := (p.readTagHeader 0 flvHeaderLength).addCurIdx (p.got flvHeaderLength)
  let r' := (q.readTagHeader 0 flvHeaderLength).addCurIdx (q.got flvHeaderLength)
  have hr : Abreast r r' := { h with
    fileFd := hbehind'.trans hbehind.symm
    curIdx := by
      show q.curIdx + q.got flvHeaderLength = p.curIdx + p.got flvHeaderLength
      rw [h.curIdx, hgot, hgot'] }
  have htold : isFlvHeader r'.tagHeader = isFlvHeader r.tagHeader := by
    show isFlvHeader (q.readTagHeader 0 flvHeaderLength).tagHeader =
      isFlvHeader (p.readTagHeader 0 flvHeaderLength).tagHeader
    rw [hheader, hheader']
    exact isFlvHeader_congr hfront
  rw [feedRound, feedRound, if_neg hon, if_neg hon', if_neg hpause, if_neg hpause', if_neg hend,
    if_neg hend']
  dsimp only
  by_cases hsegment : isFlvHeader r.tagHeader = true
  · rw [if_pos hsegment, if_pos (htold.trans hsegment)]
    exact .header hr.skipPreviousTagSize
  · rw [if_neg hsegment, if_neg (htold ▸ hsegment)]
    obtain ⟨htail, hsize, hle, hdata⟩ := hcases.resolve_left (by
      rintro ⟨flags, rfl⟩
      refine hsegment ?_
      show isFlvHeader (p.readTagHeader 0 flvHeaderLength).tagHeader = true
      rw [hheader]
      exact isFlvHeader_front _ flags)
    obtain ⟨htag, hholds, hcur, _, _⟩ :=
      ReadsAt.readTag (p := r) hbehind hheader hfront htail hsize
    obtain ⟨htag', hholds', hcur', _, _⟩ :=
      ReadsAt.readTag (p := r') hbehind' hheader' hfront htail hsize
    have hboth : Abreast r.readTag r'.readTag := { hr with
      fileFd := htag'.trans htag.symm
      curIdx := by rw [hcur, hcur', hr.curIdx] }
    exact hboth.finishTag hholds hholds' hplaying hle hdata henv _ _ _ _

end FlvPlayer

end MiniSurveillance
