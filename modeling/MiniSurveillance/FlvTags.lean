import MiniSurveillance.FlvFeed
import MiniSurveillance.FlvSession

/-!
# What the callbacks see of a recording

`feed_task` takes a 24-bit size from the file, reads that many bytes into a
buffer of `tagDataSize` and hands the tag on, whatever `read` returned; the
handlers take the lengths inside the tag as they come. In a session each of whose
rounds reaches a whole tag (`WholeTag`) every call is sound
(`calls_sound`); a recording broken off inside a tag gives an unsound one
(`calls_unsound`).
-/

namespace MiniSurveillance
open Bytes

/-- A call of `handle_tag` is sound: the declared length fits the buffer, header
and data were read for this tag, and every slice handed on lies in the data. -/
structure TagCall.Sound (c : TagCall) : Prop where
  len_le : c.len ≤ FlvPlayer.tagDataSize
  headerGot : c.headerGot = FlvPlayer.tagHeaderSize
  got : c.got = c.len
  slices : ∀ a ∈ c.accesses, a.SliceWithin c.len

namespace FlvPlayer

/-- The data of a video tag: a sequence header, or a frame; one that is no key
frame goes unread while the player waits for a key frame. -/
def WholeVideo (needIFrame : Bool) (data : List UInt8) : Prop :=
  (data[1]? = some 0x00 ∧ ∃ h : SequenceHeader, data = h.bytes) ∨
  (∃ b, data[1]? = some b ∧ b ≠ 0x00 ∧
    ((∃ f : FrameBody, data = f.bytes) ∨ (needIFrame = true ∧ data[0]? ≠ some 0x17)))

/-- The data of a tag of a type. -/
def WholeData (needIFrame : Bool) (type : Nat) (data : List UInt8) : Prop :=
  (type = tagVideo → WholeVideo needIFrame data) ∧ (type = tagAudio → 2 ≤ data.length)

/-- A round gets as far as reading. -/
def Reads (p : FlvPlayer) : Prop :=
  p.isPlaying = true ∧ (p.isPause = true → p.stepOneFrame = true) ∧
    p.curIdx + flvHeaderLength ≤ p.totalBytes

/-- When a round gets as far as reading, the descriptor stands in front of a
segment header, or of a tag header with all of the data it announces, no more than
the buffer has room for and well formed inside. -/
def WholeTag (p : FlvPlayer) : Prop :=
  Reads p →
    ∃ done front tail data rest, ReadsAt p done (front ++ (tail ++ (data ++ rest))) ∧
      front.length = flvHeaderLength ∧
      ((∃ flags, front = flvHeader.set 4 flags) ∨
        (tail.length = tagHeaderSize - flvHeaderLength ∧
          be24 (front.getD 1 0) (front.getD 2 0) (front.getD 3 0) = data.length ∧
          data.length ≤ tagDataSize ∧
          WholeData p.needIFrame ((front.getD 0 0).toNat &&& 0x1F) data))

/-! ## The slices of a tag -/

theorem frameLengthReads_within (size : Nat) : ∀ a ∈ frameLengthReads, a.SliceWithin size := by
  intro a ha
  simp only [frameLengthReads, List.mem_cons, List.not_mem_nil, or_false] at ha
  rcases ha with rfl | rfl | rfl | rfl
  · trivial
  · trivial
  · trivial
  · trivial

theorem handleFrame_within {buf : Mem} {data : List UInt8} (hb : slice buf 0 data.length = data)
    {needIFrame : Bool} {b : UInt8} (hsecond : data[1]? = some b)
    (h : (∃ f : FrameBody, data = f.bytes) ∨ (needIFrame = true ∧ data[0]? ≠ some 0x17)) :
    ∀ a ∈ (handleFrame needIFrame buf).1, a.SliceWithin data.length := by
  have hreads : ∀ a ∈ frameLengthReads ++ [Access.read 0], a.SliceWithin data.length := by
    intro a ha
    rcases List.mem_append.mp ha with ha | ha
    · exact frameLengthReads_within _ a ha
    · rw [List.mem_singleton.mp ha]
      trivial
  have hframe : ∀ type, (∃ f : FrameBody, data = f.bytes) →
      ∀ a ∈ frameLengthReads ++ [Access.read 0, .nalu type 9 (frameLength buf)],
        a.SliceWithin data.length := by
    rintro type ⟨f, hf⟩ a ha
    obtain ⟨hlen, _, hle⟩ := FrameBody.at (hb.trans hf)
    rw [← List.singleton_append (l := [Access.nalu _ _ _]), ← List.append_assoc] at ha
    rcases List.mem_append.mp ha with ha | ha
    · exact hreads a ha
    · rw [List.mem_singleton.mp ha]
      show 9 + frameLength buf ≤ data.length
      omega
  unfold handleFrame
  split
  · next hkey =>
    rcases h with hf | ⟨_, hno⟩
    · exact hframe .idr hf
    · have hlt := (slice_byte hb hsecond).1
      have hfirst : data[0]? = some (buf 0) := by
        rw [← hb, slice_getElem? (by omega)]
      exact absurd (hkey ▸ hfirst) hno
  · split
    · exact hreads
    · next hneed =>
      rcases h with hf | ⟨hyes, _⟩
      · exact hframe .other hf
      · exact absurd hyes hneed

theorem handleVideo_within {buf : Mem} {data : List UInt8} (hb : slice buf 0 data.length = data)
    {needIFrame : Bool} (h : WholeVideo needIFrame data) :
    ∀ a ∈ (handleVideoTagData needIFrame buf).1, a.SliceWithin data.length := by
  rcases h with ⟨hsecond, hd, hhead⟩ | ⟨b, hsecond, hb0, hframe⟩
  · have hzero := (slice_byte hb hsecond).2
    rw [handleVideoTagData, if_pos hzero]
    intro a ha
    rcases List.mem_cons.mp ha with rfl | ha
    · trivial
    · exact ((spsPps_spec (hb.trans hhead)).2 a ha).2.1
  · have hnz : buf 1 ≠ 0x00 := (slice_byte hb hsecond).2 ▸ hb0
    rw [handleVideoTagData, if_neg hnz]
    intro a ha
    rcases List.mem_cons.mp ha with rfl | ha
    · trivial
    · exact handleFrame_within hb hsecond hframe a ha

theorem handleAudio_within {type : AudioType} {buf : Mem} {len : Nat} (h : 2 ≤ len)
    (hle : len ≤ tagDataSize) : ∀ a ∈ handleAudio type buf len, a.SliceWithin len := by
  intro a ha
  simp only [handleAudio, List.mem_cons, List.not_mem_nil, or_false] at ha
  rcases ha with rfl | rfl
  · trivial
  · show 2 + (UInt32.ofNat len - 2).toNat ≤ len
    have hlt : len < 4294967296 := Nat.lt_of_le_of_lt hle (by decide)
    have hn : (UInt32.ofNat len).toNat = len := by
      rw [UInt32.toNat_ofNat']
      exact Nat.mod_eq_of_lt hlt
    rw [UInt32.toNat_sub, hn]
    simp only [UInt32.reduceToNat]
    omega

/-- The handlers of a whole tag hand on nothing outside its data. -/
theorem tagAccesses_within {buf : Mem} {data : List UInt8} (hb : slice buf 0 data.length = data)
    (hle : data.length ≤ tagDataSize) {needIFrame : Bool} {type : Nat}
    (h : WholeData needIFrame type data) :
    ∀ a ∈ (tagAccesses needIFrame type buf data.length).1, a.SliceWithin data.length := by
  unfold tagAccesses
  split
  · next hv => exact handleVideo_within hb (h.1 hv)
  · split
    · next ha =>
      have hlen := h.2 ha
      intro a hmem
      rcases List.mem_cons.mp hmem with rfl | hmem
      · trivial
      · split at hmem
        · exact handleAudio_within hlen hle a hmem
        · exact handleAudio_within hlen hle a hmem
    · intro a hmem
      cases hmem

/-! ## One round -/

/-- The call of a round is made for the tag it read. -/
theorem feedRound_call {env : TagEffects} {p : FlvPlayer} {call : TagCall}
    (h : (∃ p', feedRound env p = .tag call p') ∨ feedRound env p = .crash call) :
    let q := (p.readTagHeader 0 flvHeaderLength).addCurIdx (p.got flvHeaderLength)
    Reads p ∧ isFlvHeader q.tagHeader = false ∧
    call = q.readTag.tagCall
      (p.got flvHeaderLength + q.got (tagHeaderSize - flvHeaderLength)) q.readTagGot := by
  unfold feedRound at h
  split at h
  · simp at h
  · next hplaying =>
    split at h
    · simp at h
    · next hpause =>
      split at h
      · simp at h
      · next hroom =>
        dsimp only at h
        split at h
        · simp at h
        · next htold =>
          refine ⟨⟨by simpa using hplaying, ?_, by omega⟩, by simpa using htold,
            finishTag_call h⟩
          simpa using hpause

/-- The call for a whole tag in the buffers is sound. -/
theorem HoldsTag.sound {q : FlvPlayer} {type : Nat} {data : List UInt8} {headerGot got : Int}
    (h : HoldsTag q type data) (hle : data.length ≤ tagDataSize)
    (hdata : WholeData q.needIFrame type data) (hheader : headerGot = tagHeaderSize)
    (hgot : got = data.length) : (q.tagCall headerGot got).Sound := by
  refine ⟨?_, hheader, ?_, ?_⟩
  · show q.bufLen ≤ tagDataSize
    rw [h.bufLen]
    exact hle
  · show got = q.bufLen
    rw [h.bufLen]
    exact hgot
  · show ∀ a ∈ (tagAccesses q.needIFrame q.headerType q.tagData q.bufLen).1,
      a.SliceWithin q.bufLen
    rw [h.type, h.bufLen]
    exact tagAccesses_within h.data hle hdata

/-- A round that reaches a whole tag makes a sound call. -/
theorem feedRound_sound {env : TagEffects} {p : FlvPlayer} {call : TagCall} (hwhole : WholeTag p)
    (h : (∃ p', feedRound env p = .tag call p') ∨ feedRound env p = .crash call) :
    call.Sound := by
  obtain ⟨hreads, htold, rfl⟩ := feedRound_call h
  obtain ⟨done, front, tail, data, rest, hread, hfront, hcases⟩ := hwhole hreads
  have hgot := hread.got
  have hq := hread.readTagHeader 0
  have hheader : (p.readTagHeader 0 flvHeaderLength).tagHeader = write p.tagHeader 0 front := by
    have hnext := hread.next
    rw [hfront] at hnext
    show write p.tagHeader 0 (p.next flvHeaderLength) = _
    rw [hnext]
  rw [hfront] at hgot hq
  rcases hcases with ⟨flags, hflags⟩ | ⟨htail, hsize, hle, hdata⟩
  · -- a segment header makes no call
    have htrue := isFlvHeader_front p.tagHeader flags
    rw [← hflags, ← hheader] at htrue
    exact absurd (htrue.symm.trans htold) (by decide)
  · obtain ⟨_, hholds, _, hgot₂, hdataGot⟩ := ReadsAt.readTag
      (p := (p.readTagHeader 0 flvHeaderLength).addCurIdx (p.got flvHeaderLength))
      hq hheader hfront htail hsize
    refine hholds.sound hle hdata ?_ hdataGot
    rw [hgot₂, hgot, htail]
    rfl

end FlvPlayer

/-! ## A whole session -/

namespace FlvSession
open FlvPlayer (keyFrame keyFrameSegment)

/-- Every round of the feed loop that gets as far as reading reaches a whole tag. -/
def RoundsReachTags (s : FlvSession) (e : Event) : Prop :=
  ∀ env, e = .feedRound env → s.player.WholeTag

/-- In a session whose rounds reach whole tags every call is sound, whatever the
buffers held at its start and whatever the callbacks, seeks and replays do. -/
theorem calls_sound {p : FlvPlayer} {s : FlvSession}
    (h : Runs.Reach step RoundsReachTags (init p) s) : ∀ call ∈ s.calls, call.Sound := by
  refine h.invariant (I := fun s => ∀ call ∈ s.calls, call.Sound) ?_ ?_
  · intro call hmem
    cases hmem
  · intro s e t hs hok hstep call hmem
    rcases step_calls hstep with heq | ⟨env, call', he, _, heq, hround⟩
    · exact hs call (heq ▸ hmem)
    · rw [heq] at hmem
      rcases List.mem_append.mp hmem with hold | hnew
      · exact hs call hold
      · rw [List.mem_singleton.mp hnew]
        exact FlvPlayer.feedRound_sound (hok env he) hround

/-- No callback does anything. -/
def quiet : TagEffects := ⟨[], id⟩

/-- A player that was just made and given a file. -/
def opened (content : List UInt8) : FlvSession := init (FlvPlayer.opened content)

/-- Starting a player and the two rounds over a segment of one tag. -/
def playOneTag : List Event := [.start, .feedBegin, .feedRound quiet, .feedRound quiet]

/-- The session that plays the key frame of `keyFrameSegment`. -/
theorem calls_sound_keyFrame :
    ∃ s, Runs.exec step (opened (recording [keyFrameSegment])) playOneTag = some s ∧
      s.calls.length = 1 ∧ ∀ call ∈ s.calls, call.Sound := by
  have hrun : ∃ s, Runs.exec step (opened (recording [keyFrameSegment])) playOneTag =
      some s ∧ s.calls.length = 1 := ⟨_, rfl, rfl⟩
  obtain ⟨s, hexec, hlen⟩ := hrun
  refine ⟨s, hexec, hlen, calls_sound (Runs.Reach.start.exec hexec ⟨?_, ?_, ?_, ?_, trivial⟩)⟩
  · exact fun env he => nomatch he
  · exact fun env he => nomatch he
  · exact fun _ _ _ => ⟨[], FlvPlayer.flvHeader.set 4 0x05, [], [], _, rfl, rfl, .inl ⟨0x05, rfl⟩⟩
  · intro _ _ _
    refine ⟨keyFrameSegment.header.bytes, keyFrame.front, keyFrame.stamp.drop 5, keyFrame.data,
      keyFrame.previous, rfl, rfl, .inr ⟨rfl, keyFrame.size_eq, keyFrame.data_short, ?_, ?_⟩⟩
    · intro _
      exact .inr ⟨0x01, rfl, by decide, .inl ⟨⟨[0x17, 0x01, 0x00, 0x00, 0x00], [0x65], [], rfl,
        by decide⟩, rfl⟩⟩
    · intro htype
      exact absurd htype (by decide)

/-- A recording broken off inside its first tag: of the sixteen bytes the tag
announces, a frame of seven, ten arrived. -/
def brokenOff : List UInt8 :=
  [0x46, 0x4C, 0x56, 0x01, 0x05, 0x00, 0x00, 0x00, 0x09, 0x00, 0x00, 0x00, 0x00,
    0x09, 0x00, 0x00, 0x10, 0x00, 0x00, 0x00, 0x00, 0x00, 0x00, 0x00,
    0x17, 0x01, 0x00, 0x00, 0x00, 0x00, 0x00, 0x00, 0x07, 0x65]

/-- The broken tag is handed on with whatever the buffer held behind the ten bytes. -/
theorem calls_unsound :
    ¬ ∀ (p : FlvPlayer) (s : FlvSession), Runs.Reachable step (init p) s →
      ∀ call ∈ s.calls, call.Sound := by
  intro h
  have hrun : ∃ s, Runs.exec step (opened brokenOff)
      playOneTag = some s ∧ s.calls.map (fun call => (call.got, call.len)) = [(10, 16)] := ⟨_, rfl, rfl⟩
  obtain ⟨s, hexec, hcalls⟩ := hrun
  obtain ⟨call, hmem, hcall⟩ := List.mem_map.mp (hcalls ▸ List.mem_singleton_self (10, 16))
  have hgot := (h _ s (Runs.reachable_of_exec hexec) call hmem).got
  simp only [Prod.mk.injEq] at hcall
  rw [hcall.1, hcall.2] at hgot
  exact absurd hgot (by decide)

end FlvSession
end MiniSurveillance
