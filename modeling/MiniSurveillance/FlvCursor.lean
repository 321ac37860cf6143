import MiniSurveillance.FlvFeed
import MiniSurveillance.FlvSeek

/-!
# The cursor between two tags

A recording of one segment is its header and a list of tags, each with its own size
behind it. `At p h before after` says that the player's cursor stands behind the tags
`before` and in front of the tags `after`.

* `At.back`: one tag back, by the size in front of the cursor.
* `At.ahead`: one tag ahead.
* `At.feedRound`: a round of the feed loop takes the tag at the cursor.
-/

namespace MiniSurveillance
open Bytes

/-! ## Tags -/

def Tag.type (t : Tag) : Nat := t.typeByte.toNat &&& 0x1F

def Tag.isVideo (t : Tag) : Bool := t.type == FlvPlayer.tagVideo

/-- A video frame, not a sequence header. -/
def Tag.isFrame (t : Tag) : Bool := t.isVideo && t.data.getD 1 0 == 0x01

/-- An I frame. -/
def Tag.isKeyFrame (t : Tag) : Bool := t.isFrame && t.data.getD 0 0 == 0x17

theorem Tag.isVideo_of_isFrame {t : Tag} (h : t.isFrame = true) : t.isVideo = true := by
  simp only [Tag.isFrame, Bool.and_eq_true] at h
  exact h.1

theorem Tag.isFrame_of_isKeyFrame {t : Tag} (h : t.isKeyFrame = true) : t.isFrame = true := by
  simp only [Tag.isKeyFrame, Bool.and_eq_true] at h
  exact h.1

/-- The previous tag size behind the tag is the size of the tag. -/
def Tag.Sized (t : Tag) : Prop :=
  t.previous = bytes32 (FlvPlayer.tagHeaderSize + t.data.length)

theorem Tag.bytes_length (t : Tag) : t.bytes.length = t.data.length + 15 := by
  simp only [bytes, List.length_append, List.length_drop, t.front_length, t.stamp_length,
    t.previous_length, FlvPlayer.flvHeaderLength]
  omega

theorem SegmentHeader.bytes_length (h : SegmentHeader) : h.bytes.length = 13 := by
  simp [bytes, h.front_length, h.previous_length, FlvPlayer.flvHeaderLength]

/-- The first eleven bytes of a tag. -/
def Tag.header (t : Tag) : List UInt8 := t.front ++ t.stamp.drop 5

theorem Tag.header_length (t : Tag) : t.header.length = FlvPlayer.tagHeaderSize := by
  simp [header, t.front_length, t.stamp_length, FlvPlayer.flvHeaderLength,
    FlvPlayer.tagHeaderSize]

theorem Tag.bytes_eq (t : Tag) : t.bytes = t.header ++ (t.data ++ t.previous) := by
  simp [bytes, header]

/-- The bytes of a segment up to a tag boundary. -/
def upTo (h : SegmentHeader) (tags : List Tag) : List UInt8 := h.bytes ++ tags.flatMap Tag.bytes

theorem upTo_append (h : SegmentHeader) (tags tags' : List Tag) :
    upTo h (tags ++ tags') = upTo h tags ++ tags'.flatMap Tag.bytes := by
  simp [upTo]

theorem upTo_snoc (h : SegmentHeader) (tags : List Tag) (t : Tag) :
    upTo h (tags ++ [t]) = upTo h tags ++ t.bytes := by
  simp [upTo]

namespace FlvPlayer

/-- The cursor stands behind the tags `before` of a segment and in front of the tags
`after`; both counts fit a `long`. -/
structure At (p : FlvPlayer) (h : SegmentHeader) (before after : List Tag) : Prop where
  readsAt : ReadsAt p (upTo h before) (after.flatMap Tag.bytes)
  curIdx : p.curIdx = (upTo h before).length
  totalBytes : p.totalBytes = (upTo h (before ++ after)).length
  long : p.totalBytes < 2147483648

/-- The buffers show the head of a tag: its type and two bytes of its data. -/
structure Shows (p : FlvPlayer) (t : Tag) : Prop where
  type : p.headerType = t.type
  byte₀ : p.tagData 0 = t.data.getD 0 0
  byte₁ : p.tagData 1 = t.data.getD 1 0

/-! ## Reading and seeking -/

theorem toLong_eq {x : Int} (hlow : -2147483648 ≤ x) (hhigh : x < 2147483648) : toLong x = x :=
  Int.bmod_eq_of_le (by omega) (by omega)

/-- Seeking back takes bytes from behind the descriptor in front of it. -/
theorem ReadsAt.seekBack {p : FlvPlayer} {done xs rest : List UInt8}
    (h : ReadsAt p (done ++ xs) rest) : ReadsAt (p.seekCur (-xs.length)) done (xs ++ rest) := by
  have hroom : (0 : Int) ≤ ((done ++ xs).length : Int) + -xs.length := by
    rw [List.length_append]
    omega
  have hto : (((done ++ xs).length : Int) + -xs.length).toNat = done.length := by
    rw [List.length_append]
    omega
  unfold ReadsAt
  rw [FlvPlayer.seekCur, h.fd, Option.map_some, Fd.seekCur, if_pos hroom]
  simp only [hto, List.append_assoc]

/-- The size in front of the cursor is read without moving. -/
theorem ReadsAt.readPreviousTagSize {p : FlvPlayer} {done previous rest : List UInt8} {n : Nat}
    (h : ReadsAt p (done ++ previous) rest) (hsize : previous = bytes32 n) (hn : n < 4294967296) :
    ReadsAt p.readPreviousTagSize (done ++ previous) rest ∧ p.readPreviousTagSize.bufLen = n := by
  have hlen : previous.length = 4 := by rw [hsize, bytes32_length]
  have hread := h.seekBack.readTagHeader 0
  have hnext := h.seekBack.next
  rw [hlen] at hread hnext
  have hheader : p.readPreviousTagSize.tagHeader = write p.tagHeader 0 previous :=
    congrArg (write p.tagHeader 0) hnext
  refine ⟨hread, ?_⟩
  show be32 (p.readPreviousTagSize.tagHeader 0) (p.readPreviousTagSize.tagHeader 1)
    (p.readPreviousTagSize.tagHeader 2) (p.readPreviousTagSize.tagHeader 3) = _
  rw [hheader, hsize]
  exact be32_bytes32 hn

namespace At

variable {p : FlvPlayer} {h : SegmentHeader} {before after : List Tag} {t : Tag}

theorem length_cons (hp : At p h before (t :: after)) :
    p.totalBytes = (upTo h before).length + (t.data.length + 15 : Nat) +
      (after.flatMap Tag.bytes).length := by
  rw [hp.totalBytes, List.append_cons, upTo_append, upTo_snoc]
  simp only [List.length_append, t.bytes_length]
  omega

theorem atEnd (hp : At p h before (t :: after)) : p.atEnd = false := by
  have htotal := hp.length_cons
  have hcur := hp.curIdx
  have hroom : ¬ p.curIdx + tagHeaderSize > p.totalBytes := by
    simp only [tagHeaderSize]
    omega
  exact decide_eq_false hroom

theorem atEnd_nil (hp : At p h before []) : p.atEnd = true := by
  have htotal := hp.totalBytes
  have hcur := hp.curIdx
  rw [List.append_nil] at htotal
  have hroom : p.curIdx + tagHeaderSize > p.totalBytes := by
    simp only [tagHeaderSize]
    omega
  exact decide_eq_true hroom

theorem atFirstTag (hp : At p h [] after) : p.atFirstTag = true := by
  have hcur := hp.curIdx
  simp [FlvPlayer.atFirstTag, hcur, upTo, h.bytes_length, flvHeaderLength]

theorem not_atFirstTag (hp : At p h before after) (hne : before ≠ []) :
    p.atFirstTag = false := by
  obtain ⟨t, before, rfl⟩ := List.exists_cons_of_ne_nil hne
  have hcur := hp.curIdx
  have hlen : (upTo h (t :: before)).length =
      13 + (t.data.length + 15) + (before.flatMap Tag.bytes).length := by
    simp only [upTo, List.flatMap_cons, List.length_append, h.bytes_length, t.bytes_length]
    omega
  simp only [FlvPlayer.atFirstTag, flvHeaderLength, beq_eq_false_iff_ne]
  omega

/-- The previous tag size leads back over the tag. -/
theorem backCursor (hp : At p h (before ++ [t]) after) (ht : t.Sized) :
    At p.backCursor h before (t :: after) ∧ Moved p p.backCursor := by
  have hlong := hp.long
  have hcur := hp.curIdx
  have htotal := hp.totalBytes
  rw [upTo_snoc, List.length_append, t.bytes_length] at hcur
  rw [upTo_append, upTo_snoc, List.length_append, List.length_append, t.bytes_length] at htotal
  have hpos : 0 < p.curIdx := by omega
  have hsize : tagHeaderSize + t.data.length < 4294967296 := by
    simp only [tagHeaderSize]
    omega
  -- the four bytes in front of the cursor are the size of the tag
  have hat := hp.readsAt
  rw [upTo_snoc, t.bytes_eq, ← List.append_assoc t.header, ← List.append_assoc] at hat
  obtain ⟨hlast, hbuf⟩ := hat.readPreviousTagSize ht hsize
  rw [List.append_assoc, List.append_assoc, ← t.bytes_eq] at hlast
  have hback : toLong (-4 - (tagHeaderSize + t.data.length : Nat)) = -t.bytes.length := by
    rw [t.bytes_length, tagHeaderSize, toLong_eq (by omega) (by omega)]
    omega
  have hnew : toLong (p.curIdx - (4 + (tagHeaderSize + t.data.length : Nat))) =
      (upTo h before).length := by
    rw [hcur, tagHeaderSize, toLong_eq (by omega) (by omega)]
    omega
  rw [FlvPlayer.backCursor, if_pos hpos]
  dsimp only
  rw [hbuf, if_neg (by simp [tagHeaderSize]), hback]
  refine ⟨⟨hlast.seekBack, hnew, ?_, hp.long⟩, ⟨rfl, rfl, rfl, rfl, rfl, rfl, rfl, rfl, rfl⟩⟩
  show p.totalBytes = _
  rw [hp.totalBytes, List.append_assoc, List.singleton_append]

/-- The tag at the cursor is looked at without moving. -/
theorem peek (hp : At p h before (t :: after)) :
    At p.peek h before (t :: after) ∧ Moved p p.peek ∧ Shows p.peek t := by
  have htwo : (t.data.take 2).length = 2 := by
    rw [List.length_take, Nat.min_eq_left t.data_long]
  -- the header and two bytes of the data are read
  have hbytes : (t :: after).flatMap Tag.bytes = t.header ++ (t.data.take 2 ++
      (t.data.drop 2 ++ (t.previous ++ after.flatMap Tag.bytes))) := by
    rw [List.flatMap_cons, t.bytes_eq, List.append_assoc, List.append_assoc,
      ← List.append_assoc (t.data.take 2), List.take_append_drop]
  have hat := hp.readsAt
  rw [hbytes] at hat
  have hheader := hat.readTagHeader 0
  have hnext := hat.next
  rw [t.header_length] at hheader hnext
  have hdata := hheader.readTagData
  have hnextData := hheader.next
  rw [htwo, List.append_assoc] at hdata
  rw [htwo] at hnextData
  have hback : (-(tagHeaderSize : Int) - 2) = -((t.header ++ t.data.take 2).length : Int) := by
    rw [List.length_append, t.header_length, htwo]
    omega
  have hshow : p.peek.tagHeader = write p.tagHeader 0 t.header :=
    congrArg (write p.tagHeader 0) hnext
  have hbyte : ∀ i, i < 2 → p.peek.tagData i = t.data.getD i 0 := by
    intro i hi
    show write p.tagData 0 ((p.readTagHeader 0 tagHeaderSize).next 2) i = _
    rw [hnextData, write_zero_of_lt (by rw [htwo]; exact hi)]
    simp [List.getD_eq_getElem?_getD, hi]
  refine ⟨⟨?_, hp.curIdx, hp.totalBytes, hp.long⟩,
    ⟨rfl, rfl, rfl, rfl, rfl, rfl, rfl, rfl, rfl⟩, ?_, hbyte 0 (by decide), hbyte 1 (by decide)⟩
  · rw [hbytes, ← List.append_assoc t.header, FlvPlayer.peek, hback]
    exact hdata.seekBack
  · show (p.peek.tagHeader 0).toNat &&& 0x1F = _
    rw [hshow, write_zero_of_lt (by rw [t.header_length]; decide)]
    rfl

theorem onVideo (hp : At p h before (t :: after)) (ht : Shows p t) : p.onVideo = t.isVideo := by
  rw [FlvPlayer.onVideo, hp.atEnd, ht.type]
  rfl

theorem onFrame (hp : At p h before (t :: after)) (ht : Shows p t) : p.onFrame = t.isFrame := by
  rw [FlvPlayer.onFrame, hp.onVideo ht, ht.byte₁]
  rfl

theorem onKeyFrame (hp : At p h before (t :: after)) (ht : Shows p t) :
    p.onKeyFrame = t.isKeyFrame := by
  rw [FlvPlayer.onKeyFrame, hp.onVideo ht, ht.byte₀, ht.byte₁, Tag.isKeyFrame, Tag.isFrame,
    Bool.and_right_comm]

/-- A move that ends in front of a tag looks at it. -/
theorem move {n : Int} (hp : At (p.moveCursor n) h before (t :: after))
    (hmoved : Moved p (p.moveCursor n)) :
    At (p.move n).1 h before (t :: after) ∧ Moved p (p.move n).1 ∧ Shows (p.move n).1 t := by
  have hmove : (p.move n).1 = (p.moveCursor n).peek := by
    unfold FlvPlayer.move
    dsimp only
    rw [if_neg (by rw [hp.atEnd]; decide)]
  rw [hmove]
  obtain ⟨hat, hpeek, hshows⟩ := hp.peek
  exact ⟨hat, hmoved.trans hpeek, hshows⟩

/-- One tag back. -/
theorem back (hp : At p h (before ++ [t]) after) (ht : t.Sized) :
    At p.back h before (t :: after) ∧ Moved p p.back ∧ Shows p.back t :=
  let ⟨hat, hmoved⟩ := hp.backCursor ht
  At.move (p := p) (n := -1) hat hmoved

/-- No tag back. -/
theorem look (hp : At p h before (t :: after)) :
    At p.look h before (t :: after) ∧ Moved p p.look ∧ Shows p.look t :=
  At.move (p := p) (n := 0) hp (.refl p)

/-- The size in the header leads ahead over the tag. -/
theorem forwardTag (hp : At p h before (t :: after)) :
    At p.forwardTag h (before ++ [t]) after ∧ Moved p p.forwardTag := by
  have hat := hp.readsAt
  rw [List.flatMap_cons, t.bytes_eq, List.append_assoc] at hat
  have hread := hat.readTagHeader 0
  have hnext := hat.next
  have hgot := hat.got
  rw [t.header_length] at hread hnext hgot
  let q := ((p.readTagHeader 0 tagHeaderSize).addCurIdx (p.got tagHeaderSize)).setBufLen
  have hheader : q.tagHeader = write p.tagHeader 0 t.header := congrArg (write p.tagHeader 0) hnext
  have hbyte : ∀ i, i < tagHeaderSize → q.tagHeader i = t.header.getD i 0 := fun i hi => by
    rw [hheader, write_zero_of_lt (by rw [t.header_length]; exact hi)]
  have hbuf : q.bufLen = t.data.length := by
    show be24 (q.tagHeader 1) (q.tagHeader 2) (q.tagHeader 3) = _
    rw [hbyte 1 (by decide), hbyte 2 (by decide), hbyte 3 (by decide)]
    exact t.size_eq
  have hq : ReadsAt q (upTo h before ++ t.header)
      ((t.data ++ t.previous) ++ after.flatMap Tag.bytes) := hread
  have hseek := hq.seekCur
  have hlen : ((t.data ++ t.previous).length : Int) = (q.bufLen : Int) + 4 := by
    rw [List.length_append, t.previous_length, hbuf]
    omega
  rw [hlen, List.append_assoc, ← t.bytes_eq, ← upTo_snoc] at hseek
  refine ⟨⟨hseek, ?_, ?_, hp.long⟩, ⟨rfl, rfl, rfl, rfl, rfl, rfl, rfl, rfl, rfl⟩⟩
  · show p.curIdx + p.got tagHeaderSize + ((q.bufLen : Int) + 4) = _
    rw [hgot, hbuf, hp.curIdx, upTo_snoc, List.length_append, t.bytes_length, tagHeaderSize]
    omega
  · show p.totalBytes = _
    rw [hp.totalBytes, List.append_assoc, List.singleton_append]

/-- A step ahead takes the cursor behind the tag. -/
theorem aheadCursor (hp : At p h before (t :: after)) :
    At (p.moveCursor 1) h (before ++ [t]) after ∧ Moved p (p.moveCursor 1) := by
  have hroom : p.curIdx + tagHeaderSize ≤ p.totalBytes := by
    simpa [FlvPlayer.atEnd] using hp.atEnd
  have hcursor : p.moveCursor 1 = p.forwardTag := by
    show p.moveForward 1 = _
    rw [moveForward, if_pos hroom]
    rfl
  rw [hcursor]
  exact hp.forwardTag

/-! ## A round of the feed loop -/

/-- A round reads the tag at the cursor into the buffers, up to the size behind it. -/
theorem reads (hp : At p h before (t :: after)) (hplaying : p.isPlaying = true)
    (hgo : p.isPause = true → p.stepOneFrame = true) (env : TagEffects) :
    ∃ (q : FlvPlayer) (headerGot got : Int),
      FlvPlayer.feedRound env p = finishTag (q.tagCall headerGot got) (q.handleTag env) ∧
      Moved p q ∧ HoldsTag q t.type t.data ∧
      ReadsAt q (upTo h before ++ (t.header ++ t.data)) (t.previous ++ after.flatMap Tag.bytes) ∧
      q.curIdx = (upTo h before).length + (t.header ++ t.data).length := by
  have hat := hp.readsAt
  rw [List.flatMap_cons, Tag.bytes, List.append_assoc, List.append_assoc, List.append_assoc] at hat
  have hread := hat.readTagHeader 0
  have hnext := hat.next
  have hgot := hat.got
  rw [t.front_length] at hread hnext hgot
  let q := (p.readTagHeader 0 flvHeaderLength).addCurIdx flvHeaderLength
  have hheader : q.tagHeader = write p.tagHeader 0 t.front := congrArg (write p.tagHeader 0) hnext
  have htold : isFlvHeader q.tagHeader = false := by
    apply isFlvHeader_tag (t := t)
    rw [hheader]
    rfl
  have hstamp : (t.stamp.drop 5).length = 2 := by rw [List.length_drop, t.stamp_length]
  have hq : ReadsAt q (upTo h before ++ t.front) (t.stamp.drop 5 ++ (t.data ++ (t.previous ++
      after.flatMap Tag.bytes))) := hread
  obtain ⟨hrest, hholds, hcur, _, _⟩ := hq.readTag hheader t.front_length hstamp t.size_eq
  have hroom : ¬ p.curIdx + flvHeaderLength > p.totalBytes := by
    have htotal := hp.length_cons
    have hcur := hp.curIdx
    simp only [flvHeaderLength]
    omega
  refine ⟨q.readTag, flvHeaderLength + q.got (tagHeaderSize - flvHeaderLength), q.readTagGot, ?_,
    ⟨rfl, rfl, rfl, rfl, rfl, rfl, rfl, rfl, rfl⟩, hholds, ?_, ?_⟩
  · rw [FlvPlayer.feedRound, if_neg (by simp [hplaying]), if_neg (by simpa using hgo),
      if_neg hroom]
    dsimp only
    rw [hgot, if_neg (by rw [htold]; decide)]
  · rw [Tag.header, List.append_assoc, ← List.append_assoc (upTo h before)]
    exact hrest
  · rw [hcur]
    show p.curIdx + (flvHeaderLength : Int) + _ + _ = _
    rw [hp.curIdx, Tag.header, List.append_assoc, List.length_append, List.length_append,
      t.front_length]
    omega

end At

/-- A round over the header of a segment leads in front of its first tag. -/
theorem Reading.header {p : FlvPlayer} {h : SegmentHeader} {tags : List Tag}
    (hr : Reading p [] (upTo h tags)) (hlong : p.totalBytes < 2147483648) (env : TagEffects) :
    ∃ q, FlvPlayer.feedRound env p = .header q ∧ At q h [] tags ∧ Moved p q := by
  have htotal := hr.totalBytes
  rw [upTo, SegmentHeader.bytes, List.append_assoc] at hr
  obtain ⟨hread, hheader⟩ := hr.readFront h.front_length
  let q := (p.readTagHeader 0 flvHeaderLength).addCurIdx flvHeaderLength
  have htold : isFlvHeader q.tagHeader = true := by
    rw [show q.tagHeader = _ from hheader]
    exact isFlvHeader_front _ h.flags
  have hskip := hread.skipPreviousTagSize h.previous_length
  have hfirst : upTo h [] = [] ++ h.front ++ h.previous := by simp [upTo, SegmentHeader.bytes]
  refine ⟨q.skipPreviousTagSize, ?_, ⟨?_, ?_, htotal, hlong⟩,
    ⟨rfl, rfl, rfl, rfl, rfl, rfl, rfl, rfl, rfl⟩⟩
  · rw [hr.feedRound h.front_length]
    dsimp only
    rw [if_pos htold]
  · rw [hfirst]
    exact hskip.readsAt
  · rw [hfirst]
    exact hskip.curIdx

end FlvPlayer

end MiniSurveillance
