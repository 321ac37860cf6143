import MiniSurveillance.FlvPlayer
import Mathlib.Logic.Function.Iterate

/-!
# Playing a recording

A recording is a concatenation of FLV segments. `feed_task` tells a segment
header from a tag by its first nine bytes and keeps `cur_idx` beside the offset;
`Reading` says where both stand between two pieces of the file.

* `feedRound_cases`: what a round can do, wherever the cursor is.
* `feedRound_header`, `feedRound_tag`: one round takes one piece.
* `plays_pieces`: the rounds take all pieces, by induction on them.
* `feedTask_playsWhole`: every tag is handed on once, in order, and the loop then
  waits at the end, unless a frame rate of zero is divided by.
-/

namespace MiniSurveillance
open Bytes

/-! ## Recordings -/

/-- A tag as it lies in the file. -/
structure Tag where
  typeByte : UInt8
  size₀ : UInt8
  size₁ : UInt8
  size₂ : UInt8
  /-- Timestamp and stream id. -/
  stamp : List UInt8
  data : List UInt8
  previous : List UInt8
  type_known : typeByte.toNat &&& 0x1F = FlvPlayer.tagAudio ∨
    typeByte.toNat &&& 0x1F = FlvPlayer.tagVideo ∨
    typeByte.toNat &&& 0x1F = FlvPlayer.tagScriptData
  size_eq : be24 size₀ size₁ size₂ = data.length
  stamp_length : stamp.length = 7
  data_long : 2 ≤ data.length
  data_short : data.length ≤ FlvPlayer.tagDataSize
  previous_length : previous.length = 4

/-- The first nine bytes of a tag, the ones a segment header is told by. -/
def Tag.front (t : Tag) : List UInt8 :=
  t.typeByte :: t.size₀ :: t.size₁ :: t.size₂ :: t.stamp.take 5

def Tag.bytes (t : Tag) : List UInt8 :=
  t.front ++ (t.stamp.drop 5 ++ (t.data ++ t.previous))

/-- A segment header: `flv_header` with any flags, and a previous tag size. -/
structure SegmentHeader where
  flags : UInt8
  previous : List UInt8
  previous_length : previous.length = 4

def SegmentHeader.front (h : SegmentHeader) : List UInt8 := FlvPlayer.flvHeader.set 4 h.flags

def SegmentHeader.bytes (h : SegmentHeader) : List UInt8 := h.front ++ h.previous

theorem SegmentHeader.front_length (h : SegmentHeader) :
    h.front.length = FlvPlayer.flvHeaderLength := rfl

theorem Tag.front_length (t : Tag) : t.front.length = FlvPlayer.flvHeaderLength := by
  simp [front, t.stamp_length, FlvPlayer.flvHeaderLength]

structure Segment where
  header : SegmentHeader
  tags : List Tag

def Segment.bytes (s : Segment) : List UInt8 := s.header.bytes ++ s.tags.flatMap Tag.bytes

/-- The bytes of a recording. -/
def recording (segments : List Segment) : List UInt8 := segments.flatMap Segment.bytes

/-- What one round of the feed loop takes. -/
inductive Piece
  | header (h : SegmentHeader)
  | tag (t : Tag)

def Piece.bytes : Piece → List UInt8
  | .header h => h.bytes
  | .tag t => t.bytes

def Piece.tag? : Piece → Option Tag
  | .header _ => none
  | .tag t => some t

def Segment.pieces (s : Segment) : List Piece := .header s.header :: s.tags.map .tag

theorem Segment.pieces_bytes (s : Segment) : s.pieces.flatMap Piece.bytes = s.bytes := by
  rw [pieces, List.flatMap_cons, List.flatMap_map]
  rfl

theorem Segment.pieces_tags (s : Segment) : s.pieces.filterMap Piece.tag? = s.tags := by
  rw [pieces, List.filterMap_cons, List.filterMap_map]
  exact List.filterMap_some

theorem recording_pieces (segments : List Segment) :
    (segments.flatMap Segment.pieces).flatMap Piece.bytes = recording segments := by
  rw [List.flatMap_assoc, recording]
  exact congrArg (fun f => segments.flatMap f) (funext Segment.pieces_bytes)

theorem recording_tags (segments : List Segment) :
    (segments.flatMap Segment.pieces).filterMap Piece.tag? = segments.flatMap Segment.tags := by
  rw [List.filterMap_flatMap]
  exact congrArg (fun f => segments.flatMap f) (funext Segment.pieces_tags)

/-- What a call of `handle_tag` is given: type, data and length. -/
def TagCall.view (c : TagCall) : Nat × List UInt8 × Nat := (c.type, slice c.buf 0 c.len, c.len)

/-- What a tag of the file should be handed on as. -/
def Tag.view (t : Tag) : Nat × List UInt8 × Nat :=
  (t.typeByte.toNat &&& 0x1F, t.data, t.data.length)

namespace FlvPlayer

/-! ## The feed thread -/

/-- The feed thread: the player, the calls of `handle_tag` so far, and whether a
division by zero ended it. -/
structure Feed where
  player : FlvPlayer
  calls : List TagCall
  crashed : Bool

/-- One round of the loop; `env k` is what the callbacks of call `k` do. -/
def feedStep (env : Nat → TagEffects) (s : Feed) : Feed :=
  if s.crashed then s
  else match feedRound (env s.calls.length) s.player with
    | .stopped => s
    | .wait => s
    | .header p => { s with player := p }
    | .tag call p => { s with player := p, calls := s.calls ++ [call] }
    | .crash call => { s with calls := s.calls ++ [call], crashed := true }

/-- The feed thread as `start` lets it run. -/
def feedTask (p : FlvPlayer) : Feed := ⟨p.start.feedBegin, [], false⟩

/-! ## Between two pieces -/

/-- The feed loop stands between two pieces of the file, with `done` behind it. -/
structure Reading (p : FlvPlayer) (done rest : List UInt8) : Prop where
  readsAt : ReadsAt p done rest
  curIdx : p.curIdx = done.length
  totalBytes : p.totalBytes = (done ++ rest).length
  isPlaying : p.isPlaying = true
  isPause : p.isPause = false

/-- Skipping the previous tag size ends a piece. -/
theorem Reading.skipPreviousTagSize {p : FlvPlayer} {done previous rest : List UInt8}
    (h : Reading p done (previous ++ rest)) (hlen : previous.length = 4) :
    Reading p.skipPreviousTagSize (done ++ previous) rest := by
  have hseek := h.readsAt.seekCur
  rw [hlen] at hseek
  refine ⟨hseek, ?_, ?_, h.isPlaying, h.isPause⟩
  · show p.curIdx + 4 = _
    rw [h.curIdx, List.length_append, hlen]
    omega
  · show p.totalBytes = _
    rw [h.totalBytes, List.append_assoc]

/-- The parts of the player the cursor is made of did not change. -/
structure SameCursor (p q : FlvPlayer) : Prop where
  fileFd : q.fileFd = p.fileFd
  curIdx : q.curIdx = p.curIdx
  totalBytes : q.totalBytes = p.totalBytes
  isPlaying : q.isPlaying = p.isPlaying
  isPause : q.isPause = p.isPause

theorem Reading.congr {p q : FlvPlayer} {done rest : List UInt8} (hs : SameCursor p q)
    (h : Reading p done rest) : Reading q done rest :=
  ⟨hs.fileFd.trans h.readsAt, hs.curIdx.trans h.curIdx, hs.totalBytes.trans h.totalBytes,
    hs.isPlaying.trans h.isPlaying, hs.isPause.trans h.isPause⟩

/-- With nine bytes left a round reads them and looks at what they are. -/
theorem Reading.feedRound {p : FlvPlayer} {done front rest : List UInt8}
    (h : Reading p done (front ++ rest)) (hlen : front.length = flvHeaderLength)
    (env : TagEffects) :
    FlvPlayer.feedRound env p =
      let q := (p.readTagHeader 0 flvHeaderLength).addCurIdx flvHeaderLength
      if isFlvHeader q.tagHeader then .header q.skipPreviousTagSize
      else finishTag (q.readTag.tagCall
          (flvHeaderLength + q.got (tagHeaderSize - flvHeaderLength)) q.readTagGot)
        (q.readTag.handleTag env) := by
  have hgot : p.got flvHeaderLength = flvHeaderLength := by rw [← hlen, h.readsAt.got]
  have hroom : ¬ p.curIdx + flvHeaderLength > p.totalBytes := by
    rw [h.curIdx, h.totalBytes, ← hlen]
    simp only [List.length_append]
    omega
  rw [FlvPlayer.feedRound, if_neg (by simp [h.isPlaying]), if_neg (by simp [h.isPause]),
    if_neg hroom]
  dsimp only
  rw [hgot]

/-- With fewer than nine bytes left the loop waits. -/
theorem Reading.wait {p : FlvPlayer} {done rest : List UInt8} (h : Reading p done rest)
    (hlen : rest.length < flvHeaderLength) (env : TagEffects) :
    FlvPlayer.feedRound env p = .wait := by
  have hroom : p.curIdx + flvHeaderLength > p.totalBytes := by
    rw [h.curIdx, h.totalBytes, List.length_append]
    omega
  rw [FlvPlayer.feedRound, if_neg (by simp [h.isPlaying]), if_neg (by simp [h.isPause]),
    if_pos hroom]

/-! ## Segment headers and tags -/

/-- The type byte of a tag is not the first byte of `flv_header`. -/
theorem isFlvHeader_tag {m : Mem} {t : Tag} (h : m 0 = t.typeByte) : isFlvHeader m = false := by
  have hne : t.typeByte ≠ 0x46 := by
    intro he
    have := t.type_known
    rw [he] at this
    revert this
    decide
  simp [isFlvHeader, flvHeaderLength, flvHeader, List.range, List.range.loop, h, hne]

/-- The rate the next sleep divides by, when one is due. -/
def pendingRate (p : FlvPlayer) : Option UInt32 := if p.needSleep then some p.fps else none

/-- No seek and no single step is under way. -/
def NoSeek (p : FlvPlayer) : Prop := p.isRegulating = false ∧ p.stepOneFrame = false

/-- The first nine bytes of a piece are read. -/
theorem Reading.readFront {p : FlvPlayer} {done front rest : List UInt8}
    (h : Reading p done (front ++ rest)) (hlen : front.length = flvHeaderLength) :
    Reading ((p.readTagHeader 0 flvHeaderLength).addCurIdx flvHeaderLength) (done ++ front) rest ∧
    (p.readTagHeader 0 flvHeaderLength).tagHeader = write p.tagHeader 0 front := by
  have hread := h.readsAt.readTagHeader 0
  have hnext := h.readsAt.next
  rw [hlen] at hread hnext
  refine ⟨⟨hread, ?_, ?_, h.isPlaying, h.isPause⟩, ?_⟩
  · show p.curIdx + (flvHeaderLength : Int) = _
    rw [h.curIdx, List.length_append, hlen]
    omega
  · show p.totalBytes = _
    rw [h.totalBytes, List.append_assoc]
  · show write p.tagHeader 0 (p.next flvHeaderLength) = _
    rw [hnext]

/-- A round over a segment header skips it. -/
theorem feedRound_header {p : FlvPlayer} {done rest : List UInt8} {h : SegmentHeader}
    (hr : Reading p done (h.bytes ++ rest)) (env : TagEffects) :
    ∃ p', feedRound env p = .header p' ∧ Reading p' (done ++ h.bytes) rest ∧
      p'.pendingRate = p.pendingRate ∧ (NoSeek p → NoSeek p') := by
  rw [SegmentHeader.bytes, List.append_assoc] at hr
  obtain ⟨hread, hheader⟩ := hr.readFront h.front_length
  let q := (p.readTagHeader 0 flvHeaderLength).addCurIdx flvHeaderLength
  refine ⟨q.skipPreviousTagSize, ?_, ?_, rfl, fun hs => hs⟩
  · have htold : isFlvHeader q.tagHeader = true := by
      rw [show q.tagHeader = _ from hheader]
      exact isFlvHeader_front _ h.flags
    rw [hr.feedRound h.front_length]
    dsimp only
    rw [if_pos htold]
  · rw [SegmentHeader.bytes, ← List.append_assoc]
    exact hread.skipPreviousTagSize h.previous_length

/-- The call made for a tag shows its type, data and length. -/
theorem HoldsTag.view {q : FlvPlayer} {t : Tag}
    (h : HoldsTag q (t.typeByte.toNat &&& 0x1F) t.data) (headerGot got : Int) :
    (q.tagCall headerGot got).view = t.view := by
  simp only [TagCall.view, tagCall, h.type, h.bufLen, h.data, Tag.view]

/-- Behind the first nine bytes the rest of the header and the data are read. -/
theorem Reading.readTag {p q : FlvPlayer} {done rest : List UInt8} {t : Tag}
    (h : Reading q (done ++ t.front) (t.stamp.drop 5 ++ (t.data ++ rest)))
    (hheader : q.tagHeader = write p.tagHeader 0 t.front) :
    Reading q.readTag (done ++ t.front ++ (t.stamp.drop 5 ++ t.data)) rest ∧
    HoldsTag q.readTag (t.typeByte.toNat &&& 0x1F) t.data := by
  have hstamp : (t.stamp.drop 5).length = 2 := by rw [List.length_drop, t.stamp_length]
  obtain ⟨hread, hholds, hcur, _, _⟩ :=
    h.readsAt.readTag hheader t.front_length hstamp t.size_eq
  refine ⟨⟨hread, ?_, ?_, h.isPlaying, h.isPause⟩, hholds⟩
  · rw [hcur, h.curIdx]
    simp only [List.length_append]
    omega
  · show q.totalBytes = _
    rw [h.totalBytes]
    simp only [List.append_assoc]

/-! ## What a round can do -/

/-- Only the cursor and what is read at it differ. -/
structure Moved (p q : FlvPlayer) : Prop where
  isPlaying : q.isPlaying = p.isPlaying
  isPause : q.isPause = p.isPause
  needSleep : q.needSleep = p.needSleep
  needIFrame : q.needIFrame = p.needIFrame
  isRegulating : q.isRegulating = p.isRegulating
  stepOneFrame : q.stepOneFrame = p.stepOneFrame
  fps : q.fps = p.fps
  regulateTagCount : q.regulateTagCount = p.regulateTagCount
  totalBytes : q.totalBytes = p.totalBytes

theorem Moved.refl (p : FlvPlayer) : Moved p p := ⟨rfl, rfl, rfl, rfl, rfl, rfl, rfl, rfl, rfl⟩

theorem Moved.trans {p q r : FlvPlayer} (h : Moved p q) (h' : Moved q r) : Moved p r :=
  ⟨h'.isPlaying.trans h.isPlaying, h'.isPause.trans h.isPause, h'.needSleep.trans h.needSleep,
    h'.needIFrame.trans h.needIFrame, h'.isRegulating.trans h.isRegulating,
    h'.stepOneFrame.trans h.stepOneFrame, h'.fps.trans h.fps,
    h'.regulateTagCount.trans h.regulateTagCount, h'.totalBytes.trans h.totalBytes⟩

/-- What a round does, wherever the cursor is. -/
theorem feedRound_cases (env : TagEffects) (p : FlvPlayer) :
    feedRound env p = .stopped ∨ feedRound env p = .wait ∨
    (∃ q, feedRound env p = .header q ∧ Moved p q) ∨
    ∃ r call, feedRound env p = finishTag call (r.handleTag env) ∧ Moved p r ∧
      call.play = !p.isRegulating ∧ (p.isPause = true → p.stepOneFrame = true) := by
  unfold feedRound
  split
  · exact .inl rfl
  · split
    · exact .inr (.inl rfl)
    · next hgo =>
      split
      · exact .inr (.inl rfl)
      · dsimp only
        split
        · exact .inr (.inr (.inl ⟨_, rfl, ⟨rfl, rfl, rfl, rfl, rfl, rfl, rfl, rfl, rfl⟩⟩))
        · exact .inr (.inr (.inr ⟨_, _, rfl, ⟨rfl, rfl, rfl, rfl, rfl, rfl, rfl, rfl, rfl⟩, rfl,
            by simpa using hgo⟩))

/-- The sleep behind a tag divides by zero, or the tag is done. -/
theorem finishTag_cases (call : TagCall) (p : FlvPlayer) :
    (p.sleepBehindTag = none ∧ finishTag call p = .crash call) ∨
    ∃ q, p.sleepBehindTag = some q ∧ finishTag call p = .tag call q.countTag.skipPreviousTagSize := by
  unfold finishTag
  cases p.sleepBehindTag with
  | none => exact .inl ⟨rfl, rfl⟩
  | some q => exact .inr ⟨q, rfl, rfl⟩

theorem finishTag_ne_header (call : TagCall) (p q : FlvPlayer) : finishTag call p ≠ .header q := by
  rcases finishTag_cases call p with ⟨_, hfinish⟩ | ⟨_, _, hfinish⟩
  · simp [hfinish]
  · simp [hfinish]

/-- The call is the one made for the tag. -/
theorem finishTag_call {c call : TagCall} {p : FlvPlayer}
    (h : (∃ q, finishTag c p = .tag call q) ∨ finishTag c p = .crash call) : call = c := by
  rcases finishTag_cases c p with ⟨_, hfinish⟩ | ⟨_, _, hfinish⟩
  · simpa [hfinish, eq_comm] using h
  · simpa [hfinish, eq_comm] using h

/-! ## Handling a tag and sleeping behind it -/

/-- Only the last rate given to `sleep_once` counts. -/
theorem foldl_sleepOnce (sleeps : List UInt32) (p : FlvPlayer) :
    sleeps.foldl sleepOnce p =
      { p with
        fps := sleeps.getLast?.getD p.fps
        needSleep := p.needSleep || !sleeps.isEmpty } := by
  induction sleeps generalizing p with
  | nil => simp
  | cons fps sleeps ih =>
    rw [List.foldl_cons, ih]
    cases sleeps with
    | nil => simp [sleepOnce]
    | cons fps' sleeps =>
      rw [List.getLast?_cons_cons, List.getLast?_eq_some_getLast (List.cons_ne_nil fps' sleeps)]
      simp [sleepOnce]

/-- What handling a tag changes. -/
theorem handleTag_eq (env : TagEffects) (p : FlvPlayer) :
    p.handleTag env = { p with
      needIFrame := (tagAccesses p.needIFrame p.headerType p.tagData p.bufLen).2
      tagData := env.rewrite p.tagData
      fps := env.sleeps.getLast?.getD p.fps
      needSleep := p.needSleep || !env.sleeps.isEmpty } := by
  rw [handleTag, foldl_sleepOnce]

/-- The rate the sleep behind a tag divides by. -/
def rate (env : TagEffects) (p : FlvPlayer) : Option UInt32 :=
  env.sleeps.getLast?.or p.pendingRate

theorem handleTag_pendingRate (env : TagEffects) (p : FlvPlayer) :
    (p.handleTag env).pendingRate = rate env p := by
  rw [handleTag_eq, rate]
  cases hs : env.sleeps.getLast? with
  | none =>
    rw [List.getLast?_eq_none_iff] at hs
    simp [hs, pendingRate]
  | some fps =>
    have hne : env.sleeps ≠ [] := by
      intro he
      simp [he] at hs
    simp [pendingRate, hne]

theorem handleTag_sameCursor (env : TagEffects) (p : FlvPlayer) :
    SameCursor p (p.handleTag env) := by
  rw [handleTag_eq]
  exact ⟨rfl, rfl, rfl, rfl, rfl⟩

theorem NoSeek.handleTag {p : FlvPlayer} (h : NoSeek p) (env : TagEffects) :
    NoSeek (p.handleTag env) := by
  rw [handleTag_eq]
  exact h

theorem countTag_frame (p : FlvPlayer) :
    SameCursor p p.countTag ∧ p.countTag.pendingRate = p.pendingRate := by
  unfold countTag
  dsimp only
  split
  · split
    · exact ⟨⟨rfl, rfl, rfl, rfl, rfl⟩, rfl⟩
    · exact ⟨⟨rfl, rfl, rfl, rfl, rfl⟩, rfl⟩
  · split
    · exact ⟨⟨rfl, rfl, rfl, rfl, rfl⟩, rfl⟩
    · exact ⟨⟨rfl, rfl, rfl, rfl, rfl⟩, rfl⟩

theorem NoSeek.countTag {p : FlvPlayer} (h : NoSeek p) : p.countTag = p := by
  obtain ⟨hreg, hstep⟩ := h
  simp [FlvPlayer.countTag, hreg, hstep]

/-- A sleep behind a tag that does not divide by zero clears `need_sleep` at most. -/
theorem sleepBehindTag_of {p q : FlvPlayer} (h : p.sleepBehindTag = some q) :
    ∃ needSleep, q = { p with needSleep } := by
  unfold sleepBehindTag at h
  split at h
  · split at h
    · cases h
    · exact ⟨false, (Option.some.inj h).symm⟩
  · exact ⟨p.needSleep, (Option.some.inj h).symm⟩

/-- The sleep goes well unless the rate is zero, and leaves no zero rate. -/
theorem sleepBehindTag_some {p : FlvPlayer} (h : p.pendingRate ≠ some 0) :
    ∃ q, p.sleepBehindTag = some q ∧ SameCursor p q ∧ q.pendingRate ≠ some 0 ∧
      (NoSeek p → NoSeek q ∧ q.pendingRate = none) := by
  unfold sleepBehindTag
  split
  · next hdue =>
    simp only [Bool.and_eq_true] at hdue
    have hfps : p.fps ≠ 0 := by
      intro he
      apply h
      simp [pendingRate, hdue.1.1, he]
    rw [if_neg hfps]
    exact ⟨_, rfl, ⟨rfl, rfl, rfl, rfl, rfl⟩, by simp [pendingRate], fun hno => ⟨hno, rfl⟩⟩
  · next hdue =>
    refine ⟨p, rfl, ⟨rfl, rfl, rfl, rfl, rfl⟩, h, fun hno => ⟨hno, ?_⟩⟩
    obtain ⟨hreg, hstep⟩ := hno
    simpa [hreg, hstep, pendingRate] using hdue

theorem sleepBehindTag_none {p : FlvPlayer} (hseek : NoSeek p) (h : p.pendingRate = some 0) :
    p.sleepBehindTag = none := by
  obtain ⟨hreg, hstep⟩ := hseek
  unfold pendingRate at h
  split at h
  · next hneed => simp [sleepBehindTag, hneed, hreg, hstep, Option.some.inj h]
  · cases h

/-- A round over a tag, up to the sleep behind it. -/
theorem feedRound_finish {p : FlvPlayer} {done rest : List UInt8} {t : Tag}
    (hr : Reading p done (t.bytes ++ rest)) (env : TagEffects) :
    ∃ call q, feedRound env p = finishTag call (q.handleTag env) ∧ call.view = t.view ∧
      Reading q (done ++ t.front ++ (t.stamp.drop 5 ++ t.data)) (t.previous ++ rest) ∧
      q.pendingRate = p.pendingRate ∧ (NoSeek p → NoSeek q) := by
  rw [Tag.bytes, List.append_assoc, List.append_assoc, List.append_assoc] at hr
  obtain ⟨hread, hheader⟩ := hr.readFront t.front_length
  let q := (p.readTagHeader 0 flvHeaderLength).addCurIdx flvHeaderLength
  have htold : isFlvHeader q.tagHeader = false := by
    apply isFlvHeader_tag (t := t)
    rw [show q.tagHeader = _ from hheader]
    rfl
  obtain ⟨htag, hholds⟩ := hread.readTag hheader
  refine ⟨q.readTag.tagCall (flvHeaderLength + q.got (tagHeaderSize - flvHeaderLength))
    q.readTagGot, q.readTag, ?_, hholds.view _ _, htag, rfl, fun h => h⟩
  rw [hr.feedRound t.front_length]
  dsimp only
  rw [if_neg (by rw [htold]; decide)]

/-- A round over a tag hands it on, unless the sleep behind it divides by zero. -/
theorem feedRound_tag {p : FlvPlayer} {done rest : List UInt8} {t : Tag}
    (hr : Reading p done (t.bytes ++ rest)) {env : TagEffects} (hrate : rate env p ≠ some 0) :
    ∃ call p', feedRound env p = .tag call p' ∧ call.view = t.view ∧
      Reading p' (done ++ t.bytes) rest ∧ p'.pendingRate ≠ some 0 ∧
      (NoSeek p → NoSeek p' ∧ p'.pendingRate = none) := by
  obtain ⟨call, q, hround, hview, hread, hpend, hseek⟩ := feedRound_finish hr env
  rw [rate, ← hpend, ← rate, ← handleTag_pendingRate] at hrate
  obtain ⟨s, hsleep, hsame, hsome, hquiet⟩ := sleepBehindTag_some hrate
  obtain ⟨hcount, hcountRate⟩ := countTag_frame s
  refine ⟨call, s.countTag.skipPreviousTagSize, by rw [hround, finishTag, hsleep], hview, ?_, ?_, ?_⟩
  · have hdone := (((hread.congr (handleTag_sameCursor env q)).congr hsame).congr
      hcount).skipPreviousTagSize t.previous_length
    simpa only [Tag.bytes, List.append_assoc] using hdone
  · exact hcountRate ▸ hsome
  · intro hno
    obtain ⟨hs, hnone⟩ := hquiet ((hseek hno).handleTag env)
    rw [hs.countTag]
    exact ⟨hs, hnone⟩

/-- A zero rate ends the thread when no seek holds the sleep back. -/
theorem feedRound_crash {p : FlvPlayer} {done rest : List UInt8} {t : Tag}
    (hr : Reading p done (t.bytes ++ rest)) {env : TagEffects} (hno : NoSeek p)
    (hrate : rate env p = some 0) : ∃ call, feedRound env p = .crash call := by
  obtain ⟨call, q, hround, _, _, hpend, hseek⟩ := feedRound_finish hr env
  rw [rate, ← hpend, ← rate, ← handleTag_pendingRate] at hrate
  exact ⟨call, by rw [hround, finishTag, sleepBehindTag_none ((hseek hno).handleTag env) hrate]⟩

/-! ## Whole runs -/

/-- From call `c` on none of the next `n` tags leaves a zero rate to sleep by: not
the first, for which a rate may be pending, and no later one. -/
def NoZeroRate (env : Nat → TagEffects) (c : Nat) (p : FlvPlayer) (n : Nat) : Prop :=
  (0 < n → rate (env c) p ≠ some 0) ∧
  ∀ k, c < k → k < c + n → (env k).sleeps.getLast? ≠ some 0

theorem NoZeroRate.congr {env : Nat → TagEffects} {c n : Nat} {p q : FlvPlayer}
    (hpend : q.pendingRate = p.pendingRate) (h : NoZeroRate env c p n) : NoZeroRate env c q n := by
  unfold NoZeroRate rate at h ⊢
  rw [hpend]
  exact h

/-- Behind the first tag only the rates of the callbacks count. -/
theorem NoZeroRate.tail {env : Nat → TagEffects} {c n : Nat} {p q : FlvPlayer}
    (hpend : q.pendingRate ≠ some 0) (h : NoZeroRate env c p (n + 1)) :
    NoZeroRate env (c + 1) q n := by
  refine ⟨fun hn => ?_, fun k hk hlt => h.2 k (by omega) (by omega)⟩
  have hlast := h.2 (c + 1) (by omega) (by omega)
  rw [rate]
  cases hs : (env (c + 1)).sleeps.getLast? with
  | none => simpa [hs] using hpend
  | some fps => simpa [hs] using hlast

theorem NoZeroRate.cons {env : Nat → TagEffects} {c n : Nat} {p q : FlvPlayer}
    (hfirst : rate (env c) p ≠ some 0) (hpend : q.pendingRate = none)
    (h : NoZeroRate env (c + 1) q n) : NoZeroRate env c p (n + 1) := by
  refine ⟨fun _ => hfirst, fun k hk hlt => ?_⟩
  rcases Nat.lt_or_ge (c + 1) k with hgt | hle
  · exact h.2 k hgt (by omega)
  · obtain rfl : k = c + 1 := by omega
    have hrate := h.1 (by omega)
    rwa [rate, hpend, Option.or_none] at hrate

theorem feedStep_header {env : Nat → TagEffects} {s : Feed} {p : FlvPlayer}
    (hs : s.crashed = false) (h : feedRound (env s.calls.length) s.player = .header p) :
    feedStep env s = { s with player := p } := by
  simp [feedStep, hs, h]

theorem feedStep_tag {env : Nat → TagEffects} {s : Feed} {call : TagCall} {p : FlvPlayer}
    (hs : s.crashed = false) (h : feedRound (env s.calls.length) s.player = .tag call p) :
    feedStep env s = { s with player := p, calls := s.calls ++ [call] } := by
  simp [feedStep, hs, h]

/-- Without a zero rate the rounds take every piece in front of the cursor and
hand on every tag among them once, in order. -/
theorem plays_pieces (env : Nat → TagEffects) (pieces : List Piece) {s : Feed}
    {done : List UInt8} (hs : s.crashed = false)
    (hr : Reading s.player done (pieces.flatMap Piece.bytes))
    (hrates : NoZeroRate env s.calls.length s.player (pieces.filterMap Piece.tag?).length) :
    ∃ n, ((feedStep env)^[n] s).crashed = false ∧
      Reading ((feedStep env)^[n] s).player (done ++ pieces.flatMap Piece.bytes) [] ∧
      ((feedStep env)^[n] s).calls.map TagCall.view =
        s.calls.map TagCall.view ++ (pieces.filterMap Piece.tag?).map Tag.view := by
  induction pieces generalizing s done with
  | nil => exact ⟨0, hs, by simpa using hr, by simp⟩
  | cons piece pieces ih =>
    cases piece with
    | header h =>
      obtain ⟨p, hround, hread, hpend, _⟩ := feedRound_header hr (env s.calls.length)
      have hstep := feedStep_header hs hround
      obtain ⟨n, hcrashed, hdone, hcalls⟩ := ih (s := { s with player := p }) hs hread
        (NoZeroRate.congr hpend hrates)
      rw [← hstep, ← Function.iterate_succ_apply] at hcrashed hdone hcalls
      refine ⟨n + 1, hcrashed, by rwa [List.append_assoc] at hdone, ?_⟩
      rw [hcalls, hstep, List.filterMap_cons]
      rfl
    | tag t =>
      -- the rate pending behind this tag is no zero, so the next one has only its own to fear
      obtain ⟨call, p, hround, hview, hread, hpend, _⟩ :=
        feedRound_tag hr (hrates.1 (by simp [Piece.tag?]))
      have hstep := feedStep_tag hs hround
      have hrest : NoZeroRate env (s.calls ++ [call]).length p
          (pieces.filterMap Piece.tag?).length := by
        rw [List.length_append]
        exact NoZeroRate.tail hpend (by simpa [Piece.tag?] using hrates)
      obtain ⟨n, hcrashed, hdone, hcalls⟩ :=
        ih (s := { s with player := p, calls := s.calls ++ [call] }) hs hread hrest
      rw [← hstep, ← Function.iterate_succ_apply] at hcrashed hdone hcalls
      refine ⟨n + 1, hcrashed, by rwa [List.append_assoc] at hdone, ?_⟩
      rw [hcalls, hstep]
      simp [Piece.tag?, hview]

/-- With a zero rate, and no seek to hold the sleep back, the thread crashes. -/
theorem crashes_pieces (env : Nat → TagEffects) (pieces : List Piece) {s : Feed}
    {done : List UInt8} (hs : s.crashed = false) (hno : NoSeek s.player)
    (hr : Reading s.player done (pieces.flatMap Piece.bytes))
    (hrates : ¬ NoZeroRate env s.calls.length s.player (pieces.filterMap Piece.tag?).length) :
    ∃ n, ((feedStep env)^[n] s).crashed = true := by
  induction pieces generalizing s done with
  | nil => exact absurd ⟨fun h => by simp at h, fun k hk hlt => by simp at hlt; omega⟩ hrates
  | cons piece pieces ih =>
    cases piece with
    | header h =>
      obtain ⟨p, hround, hread, hpend, hseek⟩ := feedRound_header hr (env s.calls.length)
      have hstep := feedStep_header hs hround
      obtain ⟨n, hcrashed⟩ := ih (s := { s with player := p }) hs (hseek hno) hread
        (fun h => hrates (h.congr hpend.symm))
      rw [← hstep, ← Function.iterate_succ_apply] at hcrashed
      exact ⟨n + 1, hcrashed⟩
    | tag t =>
      by_cases hrate : rate (env s.calls.length) s.player = some 0
      · obtain ⟨call, hround⟩ := feedRound_crash hr hno hrate
        exact ⟨1, by simp [feedStep, hs, hround]⟩
      · obtain ⟨call, p, hround, _, hread, _, hseek⟩ := feedRound_tag hr hrate
        have hstep := feedStep_tag hs hround
        have hrest : ¬ NoZeroRate env (s.calls ++ [call]).length p
            (pieces.filterMap Piece.tag?).length := by
          rw [List.length_append]
          intro h
          exact hrates (by simpa [Piece.tag?] using NoZeroRate.cons hrate (hseek hno).2 h)
        obtain ⟨n, hcrashed⟩ :=
          ih (s := { s with player := p, calls := s.calls ++ [call] }) hs (hseek hno).1 hread hrest
        rw [← hstep, ← Function.iterate_succ_apply] at hcrashed
        exact ⟨n + 1, hcrashed⟩

/-! ## The whole recording -/

/-- From some round on the thread waits at the end of the recording, with every
tag handed on once, in file order, and nothing else. -/
def PlaysWhole (env : Nat → TagEffects) (p : FlvPlayer) (segments : List Segment) : Prop :=
  ∃ n, ∀ m, n ≤ m →
    ((feedStep env)^[m] (feedTask p)).crashed = false ∧
    ((feedStep env)^[m] (feedTask p)).calls.map TagCall.view =
      (segments.flatMap Segment.tags).map Tag.view ∧
    ((feedStep env)^[m] (feedTask p)).player.curIdx =
      ((feedStep env)^[m] (feedTask p)).player.totalBytes ∧
    ((feedStep env)^[m] (feedTask p)).player.totalBytes = (recording segments).length ∧
    ∀ e, feedRound e ((feedStep env)^[m] (feedTask p)).player = .wait

/-- `start` and the head of `feed_task` put the cursor in front of the file. -/
theorem feedTask_reading {p : FlvPlayer} {content : List UInt8} {offset : Nat}
    (hfile : p.fileFd = some ⟨content, offset⟩) (hstopped : p.isPlaying = false) :
    Reading (feedTask p).player [] content ∧
    (feedTask p).player.pendingRate = p.pendingRate ∧
    (NoSeek p → NoSeek (feedTask p).player) := by
  have hstart : p.start = { p with isPlaying := true, isPause := false, needIFrame := true } := by
    simp [start, hstopped, hfile]
  rw [feedTask, hstart]
  refine ⟨⟨?_, rfl, ?_, rfl, rfl⟩, rfl, fun h => h⟩
  · simp [ReadsAt, feedBegin, hfile]
  · simp [feedBegin, hfile]

theorem iterate_crashed {env : Nat → TagEffects} {s : Feed} (h : s.crashed = true) (n : Nat) :
    (feedStep env)^[n] s = s :=
  Function.iterate_fixed (by rw [feedStep, if_pos h]) n

theorem playsWhole_of_noZeroRate (env : Nat → TagEffects) (segments : List Segment)
    {p : FlvPlayer} {offset : Nat} (hfile : p.fileFd = some ⟨recording segments, offset⟩)
    (hstopped : p.isPlaying = false)
    (hrates : NoZeroRate env 0 p (segments.flatMap Segment.tags).length) :
    PlaysWhole env p segments := by
  obtain ⟨hread, hpend, _⟩ := feedTask_reading hfile hstopped
  rw [← recording_pieces] at hread
  rw [← recording_tags] at hrates
  obtain ⟨n, hcrashed, hdone, hcalls⟩ :=
    plays_pieces env _ (s := feedTask p) rfl hread (NoZeroRate.congr hpend hrates)
  rw [recording_pieces, List.nil_append] at hdone
  rw [recording_tags] at hcalls
  have hwait := hdone.wait (show ([] : List UInt8).length < flvHeaderLength by decide)
  -- at the end of the file a round only sleeps, so all later states are the same
  have hfixed : feedStep env ((feedStep env)^[n] (feedTask p)) =
      (feedStep env)^[n] (feedTask p) := by
    rw [feedStep, hcrashed, hwait]
    rfl
  refine ⟨n, fun m hm => ?_⟩
  obtain ⟨k, rfl⟩ := Nat.exists_eq_add_of_le' hm
  rw [Function.iterate_add_apply, Function.iterate_fixed hfixed]
  refine ⟨hcrashed, hcalls, ?_, ?_, hwait⟩
  · rw [hdone.curIdx, hdone.totalBytes, List.append_nil]
  · rw [hdone.totalBytes, List.append_nil]

theorem not_playsWhole_of_zeroRate (env : Nat → TagEffects) (segments : List Segment)
    {p : FlvPlayer} {offset : Nat} (hfile : p.fileFd = some ⟨recording segments, offset⟩)
    (hstopped : p.isPlaying = false) (hno : NoSeek p)
    (hrates : ¬ NoZeroRate env 0 p (segments.flatMap Segment.tags).length) :
    ¬ PlaysWhole env p segments := by
  obtain ⟨hread, hpend, hseek⟩ := feedTask_reading hfile hstopped
  rw [← recording_pieces] at hread
  rw [← recording_tags] at hrates
  obtain ⟨n, hcrashed⟩ := crashes_pieces env _ (s := feedTask p) rfl (hseek hno) hread
    (fun h => hrates (h.congr hpend.symm))
  rintro ⟨m, hplays⟩
  have hend := (hplays (m + n) (by omega)).1
  rw [Function.iterate_add_apply, iterate_crashed hcrashed, hcrashed] at hend
  cases hend

/-- Without a seek the feed thread plays the whole recording exactly when no tag
leaves it a frame rate of zero to sleep by. A seek left over from an earlier run
can only hold the sleep back. -/
theorem feedTask_playsWhole (env : Nat → TagEffects) (segments : List Segment)
    {p : FlvPlayer} {offset : Nat} (hfile : p.fileFd = some ⟨recording segments, offset⟩)
    (hstopped : p.isPlaying = false) :
    (NoZeroRate env 0 p (segments.flatMap Segment.tags).length → PlaysWhole env p segments) ∧
    (NoSeek p → PlaysWhole env p segments →
      NoZeroRate env 0 p (segments.flatMap Segment.tags).length) :=
  ⟨playsWhole_of_noZeroRate env segments hfile hstopped, fun hno hplays =>
    Classical.byContradiction fun h =>
      not_playsWhole_of_zeroRate env segments hfile hstopped hno h hplays⟩

/-- A key frame whose NALU is one byte long. -/
def keyFrame : Tag where
  typeByte := 0x09
  size₀ := 0x00
  size₁ := 0x00
  size₂ := 0x0A
  stamp := [0x00, 0x00, 0x00, 0x00, 0x00, 0x00, 0x00]
  data := [0x17, 0x01, 0x00, 0x00, 0x00, 0x00, 0x00, 0x00, 0x01, 0x65]
  previous := [0x00, 0x00, 0x00, 0x15]
  type_known := by decide
  size_eq := by decide
  stamp_length := rfl
  data_long := by decide
  data_short := by decide
  previous_length := rfl

def keyFrameSegment : Segment where
  header := ⟨0x05, [0x00, 0x00, 0x00, 0x00], rfl⟩
  tags := [keyFrame]

/-- A script tag. -/
def scriptTag : Tag where
  typeByte := 0x12
  size₀ := 0x00
  size₁ := 0x00
  size₂ := 0x02
  stamp := [0x00, 0x00, 0x00, 0x00, 0x00, 0x00, 0x00]
  data := [0x02, 0x00]
  previous := [0x00, 0x00, 0x00, 0x0D]
  type_known := by decide
  size_eq := by decide
  stamp_length := rfl
  data_long := by decide
  data_short := by decide
  previous_length := rfl

def scriptSegment : Segment where
  header := keyFrameSegment.header
  tags := [scriptTag, keyFrame]

/-- What the callbacks do over the two segments: 25 frames a second are reported, then no rate
behind the script tag, then a rate of zero and at once another one. -/
def reports : Nat → TagEffects
  | 0 => ⟨[25], id⟩
  | 1 => ⟨[], id⟩
  | _ => ⟨[0, 30], id⟩

/-- With a decoder that reports such rates both segments are played. -/
theorem feedTask_playsWhole_twoSegments :
    PlaysWhole reports (opened (recording [keyFrameSegment, scriptSegment]))
      [keyFrameSegment, scriptSegment] := by
  refine (feedTask_playsWhole reports [keyFrameSegment, scriptSegment] rfl rfl).1 ⟨?_, ?_⟩
  · intro _
    decide
  · have hreports : ∀ k, (reports k).sleeps.getLast? ≠ some 0
      | 0 => by decide
      | 1 => by decide
      | _ + 2 => by
        show (some 30 : Option UInt32) ≠ some 0
        decide
    exact fun k _ _ => hreports k

/-- With a decoder that knows no frame rate it is not. -/
theorem feedTask_divides_by_zero :
    ¬ ∀ (env : Nat → TagEffects) (segments : List Segment) (p : FlvPlayer) (offset : Nat),
      segments ≠ [] → p.fileFd = some ⟨recording segments, offset⟩ → p.isPlaying = false →
      NoSeek p → PlaysWhole env p segments := by
  intro h
  refine not_playsWhole_of_zeroRate (fun _ => ⟨[0], id⟩) [keyFrameSegment]
    (p := opened (recording [keyFrameSegment])) rfl rfl ⟨rfl, rfl⟩ ?_
    (h _ _ _ 0 (by simp) rfl rfl ⟨rfl, rfl⟩)
  exact fun hrates => hrates.1 (by decide) (by decide)

end FlvPlayer
end MiniSurveillance
