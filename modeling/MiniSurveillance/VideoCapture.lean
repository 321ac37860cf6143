import MiniSurveillance.Crypto
import MiniSurveillance.Handlers

/-!
# The live parser

`VideoCapture::handle_packet` and its handlers read the body of an RTMP packet
by index and hand slices of it to the NALU and audio callbacks. The callbacks
decrypt a key frame in place (`VideoCtrl.cpp`) and copy every slice into the
decoder's input buffer (`FFmpeg_Decoder::receiveData`).

No length is compared with the size of the body. `handlePacket_safe_iff` says
for which bodies that is enough: the complete ones.
-/

namespace MiniSurveillance.VideoCapture
open Bytes

/-! ## The handlers -/

def handleSpsPpsPacket (p : RTMPPacket) : List Access := spsPps p.body

def handleNaluFramePacket (p : RTMPPacket) : List Access :=
  frameLengthReads ++ [.read 0, .nalu (frameType p.body) 9 (frameLength p.body)]

/-- Both audio handlers: the block is the body from offset 2 on. The difference
`m_nBodySize - offset` is taken in `UINT32`. -/
def handleAudioPacket (type : AudioType) (p : RTMPPacket) : List Access :=
  [.read 0, .audio type (audioChannel p.body) 2 (p.nBodySize - 2).toNat]

def handleAudioDecodeInfoPacket (p : RTMPPacket) : List Access := handleAudioPacket .info p

def handleAudioDataPacket (p : RTMPPacket) : List Access := handleAudioPacket .data p

/-- `handle_packet`: the second byte of the body selects the handler. -/
def handlePacket (p : RTMPPacket) : List Access :=
  if p.packetType = packetTypeVideo then
    .read 1 :: (if p.body 1 = 0x00 then handleSpsPpsPacket p else handleNaluFramePacket p)
  else if p.packetType = packetTypeAudio then
    .read 1 :: (if p.body 1 = 0x00 then handleAudioDecodeInfoPacket p else handleAudioDataPacket p)
  else []

/-- What `naluCallBack` receives from a packet. -/
def nalus (p : RTMPPacket) : List (NaluType × List UInt8) :=
  (handlePacket p).filterMap (Access.naluCall p.body)

/-- What `audioCallBack` receives from a packet. -/
def audios (p : RTMPPacket) : List (AudioType × AudioChannelType × List UInt8) :=
  (handlePacket p).filterMap (Access.audioCall p.body)

/-! ## What the callbacks receive -/

theorem bytes_length (p : RTMPPacket) : p.bytes.length = p.nBodySize.toNat := slice_length _ _ _

/-- The byte a body has at an index is the byte the handlers read there. -/
theorem body_of_bytes {p : RTMPPacket} {i : Nat} {b : UInt8} (h : p.bytes[i]? = some b) :
    i < p.nBodySize.toNat ∧ p.body i = b := slice_byte rfl h

/-- A sequence header gives its SPS and then its PPS. -/
theorem nalus_sequenceHeader {p : RTMPPacket} (htype : p.packetType = packetTypeVideo)
    {h : SequenceHeader} (hb : p.bytes = h.bytes) (hsecond : h.bytes[1]? = some 0x00) :
    nalus p = h.sps.map (fun set => (.sps, set)) ++ h.pps.map (fun set => (.pps, set)) := by
  have hzero := (body_of_bytes (hb ▸ hsecond)).2
  rw [nalus, handlePacket, if_pos htype, if_pos hzero, List.filterMap_cons, handleSpsPpsPacket]
  exact (spsPps_spec hb).1

/-- A frame gives its NALU. -/
theorem nalus_frame {p : RTMPPacket} (htype : p.packetType = packetTypeVideo) {f : FrameBody}
    (hb : p.bytes = f.bytes) {b : UInt8} (hsecond : f.bytes[1]? = some b) (hb0 : b ≠ 0x00) :
    nalus p = [(frameType p.body, f.nalu)] := by
  have hnz : p.body 1 ≠ 0x00 := by
    rw [(body_of_bytes (hb ▸ hsecond)).2]
    exact hb0
  obtain ⟨hlen, hnalu, _⟩ := FrameBody.at hb
  rw [nalus, handlePacket, if_pos htype, if_neg hnz]
  simp [handleNaluFramePacket, frameLengthReads, List.filterMap_cons, Access.naluCall, hlen, hnalu]

/-- The unsigned length of an audio block, for a body that has its two leading
bytes. -/
theorem audioLength_eq {p : RTMPPacket} (h : 2 ≤ p.nBodySize.toNat) :
    (p.nBodySize - 2).toNat = p.nBodySize.toNat - 2 := by
  have hlt := p.nBodySize.toNat_lt
  rw [UInt32.toNat_sub]
  simp only [UInt32.reduceToNat]
  omega

/-- An audio body gives its block. -/
theorem audios_audio {p : RTMPPacket} (htype : p.packetType = packetTypeAudio) {b kind : UInt8}
    {block : List UInt8} (hb : p.bytes = b :: kind :: block) :
    audios p = [(if kind = 0x00 then .info else .data, if b = 0xAE then .mono else .stereo,
      block)] := by
  have hne : p.packetType ≠ packetTypeVideo := by rw [htype]; decide
  have hlen := congrArg List.length hb
  rw [bytes_length, List.length_cons, List.length_cons] at hlen
  obtain ⟨h₀, hs⟩ := slice_eq_cons hb
  obtain ⟨h₁, hs⟩ := slice_eq_cons hs
  have hblock : slice p.body 2 (p.nBodySize - 2).toNat = block := by
    rw [audioLength_eq (by omega), show p.nBodySize.toNat - 2 = block.length by omega]
    exact hs
  rw [audios, handlePacket, if_neg hne, if_pos htype]
  simp only [Nat.zero_add] at h₁
  split
  · next hk =>
    rw [h₁] at hk
    simp [handleAudioDecodeInfoPacket, handleAudioPacket, List.filterMap_cons, Access.audioCall,
      audioChannel, h₀, hk, hblock]
  · next hk =>
    rw [h₁] at hk
    simp [handleAudioDataPacket, handleAudioPacket, List.filterMap_cons, Access.audioCall,
      audioChannel, h₀, hk, hblock]

/-! ## What the callbacks touch -/

/-- `AV_INPUT_BUFFER_PADDING_SIZE`. -/
def inputBufferPaddingSize : Nat := 64

/-- The copy at the head of `FFmpeg_Decoder::receiveData`: the bytes, then zeros. -/
def receiveData (inputBuf : Mem) (data : List UInt8) : Mem :=
  write inputBuf 0 (data ++ List.replicate inputBufferPaddingSize 0)

/-- The length of the slice an access hands to a callback, and so to `receiveData`. -/
def sliceLength : Access → Option Nat
  | .read _ => none
  | .nalu _ _ len => some len
  | .audio _ _ _ len => some len

/-- Handling the packet touches nothing it does not own: every byte read and
every slice handed on is inside the body and fits the decoder, decrypting a key
frame leaves the memory behind the body alone, and no copy writes behind the
input buffer. -/
structure BodySafe (p : RTMPPacket) : Prop where
  within : ∀ a ∈ handlePacket p, a.Within p.nBodySize.toNat
  decrypt : ∀ offset len, Access.nalu .idr offset len ∈ handlePacket p →
    ∀ key after, Crypto.Crypts key p.body offset len after →
      ∀ i, p.nBodySize.toNat ≤ i → after i = p.body i
  copy : ∀ a ∈ handlePacket p, ∀ len, sliceLength a = some len →
    ∀ inputBuf data, data.length = len → ∀ i, inputBufferSize + inputBufferPaddingSize ≤ i →
      receiveData inputBuf data i = inputBuf i

/-- Staying inside the body and the decoder's limit is enough for the callbacks
too. -/
theorem BodySafe.of_within {p : RTMPPacket}
    (h : ∀ a ∈ handlePacket p, a.Within p.nBodySize.toNat) : BodySafe p where
  within := h
  decrypt offset len hmem key after hcrypt i hi := by
    have hle := (Access.within_nalu.mp (h _ hmem)).1
    exact Crypto.crypt_outside hcrypt (.inr (by omega))
  copy a hmem len hlen inputBuf data hdata i hi := by
    have hfits : len ≤ inputBufferSize := by
      have hw := h a hmem
      cases a with
      | read i => cases hlen
      | nalu t o n =>
        cases hlen
        exact (Access.within_nalu.mp hw).2
      | audio t c o n =>
        cases hlen
        exact (Access.within_audio.mp hw).2
    apply write_of_not_mem
    rw [List.length_append, List.length_replicate]
    omega

/-! ## Complete bodies -/

/-- The bodies the handlers are written for: an audio body has its two leading
bytes and a block the decoder has room for, a video body is a sequence header or
a frame the decoder has room for. -/
def CompleteBody (p : RTMPPacket) : Prop :=
  if p.packetType = packetTypeVideo then VideoBody inputBufferSize p.bytes
  else 2 ≤ p.bytes.length ∧ p.bytes.length ≤ inputBufferSize + 2

/-- The second byte of a body that has one is the byte the handlers test. -/
theorem bytes_second {p : RTMPPacket} (h : 1 < p.nBodySize.toNat) :
    p.bytes[1]? = some (p.body 1) := by
  rw [RTMPPacket.bytes, slice_getElem? h]

/-- The frame handler stays inside the body exactly when the body is a frame. -/
theorem handleNaluFrame_within_iff (p : RTMPPacket) :
    (∀ a ∈ handleNaluFramePacket p, a.Within p.nBodySize.toNat) ↔
      ∃ f : FrameBody, p.bytes = f.bytes ∧ f.nalu.length ≤ inputBufferSize := by
  constructor
  · intro h
    obtain ⟨hle, hfits⟩ := Access.within_nalu.mp
      (h (.nalu (frameType p.body) 9 (frameLength p.body)) (by simp [handleNaluFramePacket]))
    obtain ⟨f, hb, hlen⟩ := FrameBody.of_length hle
    exact ⟨f, hb, hlen ▸ hfits⟩
  · rintro ⟨f, hb, hfits⟩ a ha
    obtain ⟨hlen, _, hle⟩ := FrameBody.at hb
    simp only [handleNaluFramePacket, frameLengthReads, List.cons_append, List.nil_append,
      List.mem_cons, List.not_mem_nil, or_false] at ha
    rcases ha with rfl | rfl | rfl | rfl | rfl | rfl
    · exact Access.within_read.mpr (by omega)
    · exact Access.within_read.mpr (by omega)
    · exact Access.within_read.mpr (by omega)
    · exact Access.within_read.mpr (by omega)
    · exact Access.within_read.mpr (by omega)
    · exact Access.within_nalu.mpr (by rw [hlen]; exact ⟨hle, hfits⟩)

/-- The audio handlers stay inside a body of at least two bytes; on a shorter
one the unsigned difference wraps. -/
theorem handleAudio_within_iff (type : AudioType) (p : RTMPPacket) (h : 2 ≤ p.nBodySize.toNat) :
    (∀ a ∈ handleAudioPacket type p, a.Within p.nBodySize.toNat) ↔
      p.nBodySize.toNat ≤ inputBufferSize + 2 := by
  simp only [handleAudioPacket, List.mem_cons, List.not_mem_nil, or_false, forall_eq_or_imp,
    forall_eq, Access.within_read, Access.within_audio, audioLength_eq h]
  omega

/-- For audio and video packets: handling the packet stays inside its body and
the decoder's buffer exactly when the body is complete. -/
theorem handlePacket_safe_iff (p : RTMPPacket)
    (htype : p.packetType = packetTypeVideo ∨ p.packetType = packetTypeAudio) :
    BodySafe p ↔ CompleteBody p := by
  suffices h : (∀ a ∈ handlePacket p, a.Within p.nBodySize.toNat) ↔ CompleteBody p from
    ⟨fun hs => h.mp hs.within, fun hc => .of_within (h.mpr hc)⟩
  rcases htype with htype | htype
  · have hunfold : CompleteBody p ↔ VideoBody inputBufferSize p.bytes := by
      simp [CompleteBody, htype]
    rw [hunfold, handlePacket, if_pos htype]
    simp only [List.mem_cons, forall_eq_or_imp, Access.within_read]
    constructor
    · rintro ⟨hlt, hall⟩
      have hsecond := bytes_second hlt
      split at hall
      · next hzero =>
        exact .inl ⟨hzero ▸ hsecond, spsPps_within_iff.mp hall⟩
      · next hnz =>
        exact .inr ⟨p.body 1, hsecond, hnz, (handleNaluFrame_within_iff p).mp hall⟩
    · rintro (⟨hb, hhead⟩ | ⟨b, hb, hnz, hframe⟩)
      · obtain ⟨hlt, hzero⟩ := body_of_bytes hb
        rw [if_pos hzero]
        exact ⟨hlt, spsPps_within_iff.mpr hhead⟩
      · obtain ⟨hlt, rfl⟩ := body_of_bytes hb
        rw [if_neg hnz]
        exact ⟨hlt, (handleNaluFrame_within_iff p).mpr hframe⟩
  · have hne : p.packetType ≠ packetTypeVideo := by rw [htype]; decide
    have hunfold : CompleteBody p ↔
        2 ≤ p.nBodySize.toNat ∧ p.nBodySize.toNat ≤ inputBufferSize + 2 := by
      simp only [CompleteBody, if_neg hne, bytes_length]
    rw [hunfold, handlePacket, if_neg hne, if_pos htype]
    simp only [List.mem_cons, forall_eq_or_imp, Access.within_read]
    constructor
    · rintro ⟨hlt, hall⟩
      refine ⟨hlt, ?_⟩
      split at hall
      · exact (handleAudio_within_iff .info p hlt).mp hall
      · exact (handleAudio_within_iff .data p hlt).mp hall
    · rintro ⟨hlt, hle⟩
      refine ⟨hlt, ?_⟩
      split
      · exact (handleAudio_within_iff .info p hlt).mpr hle
      · exact (handleAudio_within_iff .data p hlt).mpr hle

/-- An audio block of one byte is complete. -/
def audioBlock : RTMPPacket where
  headerType := packetSizeLarge
  packetType := packetTypeAudio
  hasAbsTimestamp := false
  nChannel := 0x11
  nBodySize := 3
  body := ofList [0xAF, 0x01, 0x21]

theorem handlePacket_safe_audioBlock : BodySafe audioBlock := by
  refine (handlePacket_safe_iff audioBlock (.inr rfl)).mpr ?_
  rw [CompleteBody, if_neg (by decide), bytes_length]
  decide

/-- A key frame cut off right behind its length, which announces 4096 bytes. -/
def truncatedKeyFrame : RTMPPacket where
  headerType := packetSizeMedium
  packetType := packetTypeVideo
  hasAbsTimestamp := false
  nChannel := 10
  nBodySize := 9
  body := ofList [0x17, 0x01, 0x00, 0x00, 0x00, 0x00, 0x00, 0x10, 0x00]

/-- The announced slice is handed on although none of it arrived. -/
theorem handlePacket_unsafe :
    ¬ ∀ p : RTMPPacket, p.packetType = packetTypeVideo ∨ p.packetType = packetTypeAudio →
      BodySafe p := by
  intro h
  have hsafe := (h truncatedKeyFrame (.inl rfl)).within (.nalu .idr 9 4096) (by decide)
  exact absurd (Access.within_nalu.mp hsafe).1 (by decide)

end MiniSurveillance.VideoCapture
