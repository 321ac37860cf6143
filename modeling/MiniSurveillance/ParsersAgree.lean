import Mathlib.Data.List.Basic
import Mathlib.Data.List.TakeWhile
import MiniSurveillance.FlvTags
import MiniSurveillance.VideoCapture

/-!
# The live and the recording parser

`VideoCapture::handle_packet` and `FlvPlayer::handle_tag` walk the same bodies, the
one over the body of a packet, the other over the buffer of the feed thread, where
bytes of earlier tags lie behind the body. `recorded_eq_live`: on whole bodies both
make the same callbacks, but that the player leaves out every frame in front of the
first key frame.
-/

namespace MiniSurveillance
open Bytes

/-- A call of the NALU or the audio callback, without the player's `play` flag. -/
inductive Callback
  | nalu (type : NaluType) (data : List UInt8)
  | audio (type : AudioType) (channel : AudioChannelType) (data : List UInt8)
deriving DecidableEq, Repr

namespace Callback

/-- The callback is `NALU_TYPE_IDR`. -/
def isIdr : Callback → Bool
  | .nalu .idr _ => true
  | _ => false

/-- The callback is `NALU_TYPE_OTHER`. -/
def isOther : Callback → Bool
  | .nalu .other _ => true
  | _ => false

end Callback

/-- The callback an access makes. -/
def Access.callback (m : Mem) : Access → Option Callback
  | .read _ => none
  | .nalu type offset len => some (.nalu type (slice m offset len))
  | .audio type channel offset len => some (.audio type channel (slice m offset len))

/-- The callbacks of a list of accesses. -/
def callbacks (m : Mem) (accesses : List Access) : List Callback :=
  accesses.filterMap (Access.callback m)

/-- A type and a body, as a packet carries them and as the feed thread has them in
its buffer. The lengths inside the body stay inside the body. -/
structure Carried where
  packet : RTMPPacket
  buf : Mem
  type_known : packet.packetType = packetTypeAudio ∨ packet.packetType = packetTypeVideo
  same : slice buf 0 packet.nBodySize.toNat = packet.bytes
  whole : FlvPlayer.WholeData false packet.packetType packet.bytes

/-- The callbacks of `VideoCapture::handle_packet`. -/
def live (c : Carried) : List Callback :=
  callbacks c.packet.body (VideoCapture.handlePacket c.packet)

/-- The callbacks of `FlvPlayer::handle_tag`, called for one body after the other. -/
def recorded : Bool → List Carried → List Callback
  | _, [] => []
  | needIFrame, c :: cs =>
    let (accesses, needIFrame) :=
      FlvPlayer.tagAccesses needIFrame c.packet.packetType c.buf c.packet.nBodySize.toNat
    callbacks c.buf accesses ++ recorded needIFrame cs

/-- What is left without the `NALU_TYPE_OTHER` in front of the first `NALU_TYPE_IDR`. -/
def fromKeyFrame (cs : List Callback) : List Callback :=
  (cs.takeWhile fun c => !c.isIdr).filter (fun c => !c.isOther) ++ cs.dropWhile fun c => !c.isIdr

/-! ## Leaving out frames -/

theorem fromKeyFrame_of_noIdr {cs : List Callback} (h : ∀ c ∈ cs, c.isIdr = false) :
    fromKeyFrame cs = cs.filter fun c => !c.isOther := by
  have htake : cs.takeWhile (fun c => !c.isIdr) = cs :=
    List.takeWhile_eq_self_iff.mpr fun c hc => by simp [h c hc]
  have hdrop : cs.dropWhile (fun c => !c.isIdr) = [] :=
    List.dropWhile_eq_nil_iff.mpr fun c hc => by simp [h c hc]
  rw [fromKeyFrame, htake, hdrop, List.append_nil]

theorem fromKeyFrame_append {xs : List Callback} (h : ∀ c ∈ xs, c.isIdr = false)
    (ys : List Callback) : fromKeyFrame (xs ++ ys) = fromKeyFrame xs ++ fromKeyFrame ys := by
  have hx : ∀ c ∈ xs, (!c.isIdr) = true := fun c hc => by simp [h c hc]
  rw [fromKeyFrame_of_noIdr h, fromKeyFrame, fromKeyFrame, List.takeWhile_append_of_pos hx,
    List.dropWhile_append_of_pos hx, List.filter_append, List.append_assoc]

/-! ## The callbacks of one body -/

theorem callbacks_cons_read (m : Mem) (i : Nat) (as : List Access) :
    callbacks m (.read i :: as) = callbacks m as := rfl

theorem callbacks_frame (m : Mem) (type : NaluType) (len : Nat) :
    callbacks m (frameLengthReads ++ [.read 0, .nalu type 9 len]) =
      [.nalu type (slice m 9 len)] := rfl

/-- The callbacks of a sequence header are calls of the NALU callback. -/
theorem callbacks_spsPps (body : Mem) :
    callbacks body (spsPps body) =
      ((spsPps body).filterMap (Access.naluCall body)).map fun c => .nalu c.1 c.2 := by
  rw [List.map_filterMap, callbacks]
  refine List.filterMap_congr fun a ha => ?_
  rcases spsPps_mem ha with ⟨i, rfl⟩ | ⟨type, o, n, _, rfl⟩
  · rfl
  · rfl

/-- None of them is a frame. -/
theorem callbacks_spsPps_noFrame {body : Mem} {c : Callback}
    (h : c ∈ callbacks body (spsPps body)) : c.isIdr = false ∧ c.isOther = false := by
  obtain ⟨a, ha, hc⟩ := List.mem_filterMap.mp h
  rcases spsPps_mem ha with ⟨i, rfl⟩ | ⟨type, o, n, rfl | rfl, rfl⟩
  · cases hc
  · cases hc
    exact ⟨rfl, rfl⟩
  · cases hc
    exact ⟨rfl, rfl⟩

/-! ## Both parsers on one body -/

theorem handlePacket_video {p : RTMPPacket} (htype : p.packetType = packetTypeVideo) :
    VideoCapture.handlePacket p =
      .read 1 :: if p.body 1 = 0x00 then spsPps p.body
        else frameLengthReads ++ [.read 0, .nalu (frameType p.body) 9 (frameLength p.body)] :=
  if_pos htype

theorem handlePacket_audio {p : RTMPPacket} (htype : p.packetType = packetTypeAudio) :
    VideoCapture.handlePacket p =
      .read 1 :: if p.body 1 = 0x00 then VideoCapture.handleAudioPacket .info p
        else VideoCapture.handleAudioPacket .data p := by
  rw [VideoCapture.handlePacket, if_neg (by rw [htype]; decide), if_pos htype]
  rfl

theorem tagAccesses_video {type : Nat} (htype : type = packetTypeVideo) (needIFrame : Bool)
    (buf : Mem) (len : Nat) :
    FlvPlayer.tagAccesses needIFrame type buf len = FlvPlayer.handleVideoTagData needIFrame buf :=
  if_pos htype

theorem tagAccesses_audio {type : Nat} (htype : type = packetTypeAudio) (needIFrame : Bool)
    (buf : Mem) (len : Nat) :
    FlvPlayer.tagAccesses needIFrame type buf len =
      (FlvPlayer.handleAudioTagData buf len, needIFrame) := by
  subst htype
  rfl

/-- The handlers of the player do what those of the live parser do on the same memory. -/
theorem tagAccesses_eq {p : RTMPPacket} (buf : Mem)
    (htype : p.packetType = packetTypeAudio ∨ p.packetType = packetTypeVideo) :
    (FlvPlayer.tagAccesses false p.packetType buf p.nBodySize.toNat).1 =
      VideoCapture.handlePacket { p with body := buf } := by
  rcases htype with htype | htype
  · rw [handlePacket_audio (p := { p with body := buf }) htype, tagAccesses_audio htype]
    simp only [FlvPlayer.handleAudioTagData, FlvPlayer.handleAudio, UInt32.ofNat_toNat]
    rfl
  · rw [handlePacket_video (p := { p with body := buf }) htype, tagAccesses_video htype,
      FlvPlayer.handleVideoTagData]
    split
    · rfl
    · simp only [FlvPlayer.handleFrame, frameType]
      split
      · rfl
      · rfl

/-- The callbacks for a whole body depend on nothing but the body. -/
theorem callbacks_congr {p : RTMPPacket} {buf : Mem}
    (htype : p.packetType = packetTypeAudio ∨ p.packetType = packetTypeVideo)
    (hsame : slice buf 0 p.nBodySize.toNat = p.bytes)
    (hwhole : FlvPlayer.WholeData false p.packetType p.bytes) :
    callbacks buf (VideoCapture.handlePacket { p with body := buf }) =
      callbacks p.body (VideoCapture.handlePacket p) := by
  have hbyte : ∀ i, i < p.nBodySize.toNat → buf i = p.body i := by
    intro i hi
    have h : (slice buf 0 p.nBodySize.toNat)[i]? = some (buf (0 + i)) := slice_getElem? hi
    rw [hsame, RTMPPacket.bytes, slice_getElem? hi, Nat.zero_add] at h
    exact (Option.some.inj h).symm
  rcases htype with htype | htype
  · -- the two leading bytes and the block behind them
    have hlen : 2 ≤ p.bytes.length := hwhole.2 htype
    rw [VideoCapture.bytes_length] at hlen
    have hblock : slice buf 2 (p.nBodySize - 2).toNat = slice p.body 2 (p.nBodySize - 2).toNat := by
      refine List.map_congr_left fun i hi => hbyte i ?_
      rw [VideoCapture.audioLength_eq hlen] at hi
      have := List.mem_range'_1.mp hi
      omega
    have hcall : ∀ type,
        callbacks buf (VideoCapture.handleAudioPacket type { p with body := buf }) =
          callbacks p.body (VideoCapture.handleAudioPacket type p) := by
      intro type
      simp only [VideoCapture.handleAudioPacket, callbacks, List.filterMap_cons, Access.callback,
        audioChannel, hbyte 0 (by omega), hblock, List.filterMap_nil]
    rw [handlePacket_audio (p := { p with body := buf }) htype, handlePacket_audio htype,
      callbacks_cons_read, callbacks_cons_read]
    dsimp only
    simp only [hbyte 1 (by omega)]
    split
    · exact hcall .info
    · exact hcall .data
  · rw [handlePacket_video (p := { p with body := buf }) htype, handlePacket_video htype,
      callbacks_cons_read, callbacks_cons_read]
    dsimp only
    rcases hwhole.1 htype with ⟨hsecond, h, hb⟩ | ⟨b, hsecond, hb0, ⟨f, hb⟩ | ⟨hno, _⟩⟩
    · rw [if_pos (slice_byte hsame hsecond).2, if_pos (VideoCapture.body_of_bytes hsecond).2]
      rw [callbacks_spsPps, callbacks_spsPps, (spsPps_spec (hsame.trans hb)).1, (spsPps_spec hb).1]
    · rw [if_neg ((slice_byte hsame hsecond).2 ▸ hb0),
        if_neg ((VideoCapture.body_of_bytes hsecond).2 ▸ hb0)]
      obtain ⟨hlen, hnalu, _⟩ := FrameBody.at (hsame.trans hb)
      obtain ⟨hlen', hnalu', _⟩ := FrameBody.at hb
      have hfirst : buf 0 = p.body 0 :=
        hbyte 0 (Nat.lt_of_succ_lt (VideoCapture.body_of_bytes hsecond).1)
      rw [callbacks_frame, callbacks_frame, frameType, frameType, hlen, hlen', hnalu, hnalu',
        hfirst]
    · cases hno

/-- Without a key frame to wait for the player makes the callbacks of the live parser. -/
theorem recorded_false (c : Carried) :
    callbacks c.buf
        (FlvPlayer.tagAccesses false c.packet.packetType c.buf c.packet.nBodySize.toNat).1 =
      live c := by
  rw [tagAccesses_eq c.buf c.type_known]
  exact callbacks_congr c.type_known c.same c.whole

/-- The player waits for a key frame: of one body it leaves out a frame that is none,
and it goes on waiting until it was given a key frame. -/
theorem recorded_true (c : Carried) :
    callbacks c.buf
        (FlvPlayer.tagAccesses true c.packet.packetType c.buf c.packet.nBodySize.toNat).1 =
      fromKeyFrame (live c) ∧
    (((FlvPlayer.tagAccesses true c.packet.packetType c.buf c.packet.nBodySize.toNat).2 = true ∧
        ∀ d ∈ live c, d.isIdr = false) ∨
      ((FlvPlayer.tagAccesses true c.packet.packetType c.buf c.packet.nBodySize.toNat).2 = false ∧
        ∃ data, live c = [.nalu .idr data])) := by
  rw [← recorded_false c]
  generalize c.packet.nBodySize.toNat = len
  have hnone : ∀ {as : List Access},
      (∀ d ∈ callbacks c.buf as, d.isIdr = false ∧ d.isOther = false) →
      callbacks c.buf as = fromKeyFrame (callbacks c.buf as) := by
    intro as h
    rw [fromKeyFrame_of_noIdr fun d hd => (h d hd).1]
    exact (List.filter_eq_self.mpr fun d hd => by simp [(h d hd).2]).symm
  rcases c.type_known with htype | htype
  · rw [tagAccesses_audio htype, tagAccesses_audio htype]
    have haudio : ∀ d ∈ callbacks c.buf (FlvPlayer.handleAudioTagData c.buf len),
        d.isIdr = false ∧ d.isOther = false := by
      intro d hd
      unfold FlvPlayer.handleAudioTagData at hd
      split at hd
      · cases List.mem_singleton.mp hd
        exact ⟨rfl, rfl⟩
      · cases List.mem_singleton.mp hd
        exact ⟨rfl, rfl⟩
    exact ⟨hnone haudio, .inl ⟨rfl, fun d hd => (haudio d hd).1⟩⟩
  · rw [tagAccesses_video htype, tagAccesses_video htype]
    unfold FlvPlayer.handleVideoTagData
    split
    · have hsets : ∀ d ∈ callbacks c.buf (.read 1 :: spsPps c.buf),
          d.isIdr = false ∧ d.isOther = false := fun d hd => callbacks_spsPps_noFrame hd
      exact ⟨hnone hsets, .inl ⟨rfl, fun d hd => (hsets d hd).1⟩⟩
    · dsimp only [FlvPlayer.handleFrame]
      split
      · exact ⟨rfl, .inr ⟨rfl, _, rfl⟩⟩
      · refine ⟨rfl, .inl ⟨rfl, fun d hd => ?_⟩⟩
        cases List.mem_singleton.mp hd
        rfl

/-! ## Whole streams -/

/-- Once it had its key frame the player makes all callbacks of the live parser. -/
theorem recorded_false_eq_live (cs : List Carried) : recorded false cs = cs.flatMap live := by
  induction cs with
  | nil => rfl
  | cons c cs ih =>
    have hstay : (FlvPlayer.tagAccesses false c.packet.packetType c.buf
        c.packet.nBodySize.toNat).2 = false := by
      rcases c.type_known with htype | htype
      · rw [tagAccesses_audio htype]
      · rw [tagAccesses_video htype, FlvPlayer.handleVideoTagData, FlvPlayer.handleFrame]
        split
        · rfl
        · dsimp only
          split
          · rfl
          · rfl
    rw [List.flatMap_cons, ← recorded_false c, ← ih]
    conv => lhs; rw [recorded]
    dsimp only
    rw [hstay]

/-- From `start` on the player makes the callbacks of the live parser, without the
frames in front of the first key frame. -/
theorem recorded_eq_live (cs : List Carried) :
    recorded true cs = fromKeyFrame (cs.flatMap live) := by
  induction cs with
  | nil => rfl
  | cons c cs ih =>
    rw [recorded, List.flatMap_cons]
    dsimp only
    obtain ⟨hcalls, ⟨hwaits, hnone⟩ | ⟨hgot, data, hidr⟩⟩ := recorded_true c
    · rw [hcalls, hwaits, ih, fromKeyFrame_append hnone]
    · rw [hcalls, hgot, hidr, recorded_false_eq_live]
      rfl

end MiniSurveillance
