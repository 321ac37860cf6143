import MiniSurveillance.Channels
import MiniSurveillance.VideoCapture

/-!
# The receiver undoes the sender

Every packet `encodeData` emits is read back by `VideoCapture::handle_packet` as
the start-code-free payloads it was made of, in the order of the encoder's NALs
(`videoRoundTrip`), and every audio packet as its block
(`encodeAudioData_roundTrip`, `getAudioDecodeInfo_roundTrip`).

The one limit is the packet size: `9 + payload` is computed in `int`, so a frame
payload has to stay nine bytes below `2^31` (`videoRoundTrip_overflow`), and an
audio block two.
-/

namespace MiniSurveillance
open Bytes

/-! ## What the encoder hands over -/

/-- An Annex-B start code. -/
def StartCode (code : List UInt8) : Prop := code = [0, 0, 1] ∨ code = [0, 0, 0, 1]

/-- The bytes of an Annex-B unit behind its start code. -/
def stripStartCode : List UInt8 → List UInt8
  | 0 :: 0 :: 0 :: 1 :: payload => payload
  | 0 :: 0 :: 1 :: payload => payload
  | unit => unit

/-- The tag the receiver gives a NAL of an encoder type. -/
def naluTag (iType : Int) : NaluType :=
  if iType = VideoChannel.nalSps then .sps
  else if iType = VideoChannel.nalPps then .pps
  else if iType = VideoChannel.nalSliceIdr then .idr
  else .other

/-- The NALs of one encoder call, frame payloads below `limit` bytes: every SPS
is followed directly by its PPS, and no PPS stands alone. -/
inductive EncoderOutput (limit : Nat) : List VideoChannel.X264Nal → Prop
  | nil : EncoderOutput limit []
  | frame {nal : VideoChannel.X264Nal} {nals : List VideoChannel.X264Nal} {code payload : List UInt8} :
      nal.iType ≠ VideoChannel.nalSps → nal.iType ≠ VideoChannel.nalPps →
      StartCode code → nal.payload = code ++ payload → payload.length < limit →
      EncoderOutput limit nals → EncoderOutput limit (nal :: nals)
  | sets {s p : VideoChannel.X264Nal} {nals : List VideoChannel.X264Nal} {sps pps : List UInt8} :
      s.iType = VideoChannel.nalSps → p.iType = VideoChannel.nalPps →
      s.payload = [0, 0, 0, 1] ++ sps → p.payload = [0, 0, 0, 1] ++ pps →
      4 ≤ sps.length → sps.length ≤ 100 → pps.length ≤ 100 →
      EncoderOutput limit nals → EncoderOutput limit (s :: p :: nals)

/-- The allocator finds room for every size an `int` can name. -/
def AllocSucceeds (alloc : Nat → Bool) : Prop := ∀ n, n ≤ 2147483647 → alloc n = true

/-- The receiver gets the payloads of these NALs back, whatever the stack holds
when the sender starts. -/
def VideoRoundTrip (alloc : Nat → Bool) (nals : List VideoChannel.X264Nal) : Prop :=
  ∀ l : VideoChannel.Locals, ∃ packets, VideoChannel.encodeData alloc l nals = some packets ∧
    packets.flatMap VideoCapture.nalus =
      nals.map fun nal => (naluTag nal.iType, stripStartCode nal.payload)

/-! ## Packets -/

theorem allocBody_eq {alloc : Nat → Bool} (halloc : AllocSucceeds alloc) (bytes : List UInt8)
    (h : bytes.length ≤ 2147483647) : allocBody alloc bytes = some (ofList bytes) := by
  simp [allocBody, intSize, h, halloc _ h]

/-- A body that was allocated has a size an `int` can name. -/
theorem allocBody_some {alloc : Nat → Bool} {bytes : List UInt8} {body : Mem}
    (h : allocBody alloc bytes = some body) : bytes.length ≤ 2147483647 ∧ body = ofList bytes := by
  unfold allocBody intSize at h
  split at h
  · next hle =>
    simp only [Option.bind_eq_bind, Option.bind_some] at h
    split at h
    · exact ⟨hle, (Option.some.inj h).symm⟩
    · cases h
  · cases h

/-- The packet made from `bytes` has them as its body. -/
theorem bytes_ofList {p : RTMPPacket} {bytes : List UInt8} (h : bytes.length ≤ 2147483647)
    (hbody : p.body = ofList bytes) (hsize : p.nBodySize = UInt32.ofNat bytes.length) :
    p.bytes = bytes := by
  have hn : p.nBodySize.toNat = bytes.length := by
    rw [hsize, UInt32.toNat_ofNat']
    exact Nat.mod_eq_of_lt (by omega)
  rw [RTMPPacket.bytes, hbody, hn, slice_ofList]

theorem videoPacket_bytes (bytes : List UInt8) (h : bytes.length ≤ 2147483647) :
    (VideoChannel.videoPacket bytes (ofList bytes)).bytes = bytes :=
  bytes_ofList h rfl rfl

theorem audioPacket_bytes {bytes : List UInt8} (h : bytes.length ≤ 2147483647) :
    (AudioChannel.audioPacket bytes (ofList bytes)).bytes = bytes :=
  bytes_ofList h rfl rfl

/-! ## Frames -/

theorem strip_startCode {code : List UInt8} (payload : List UInt8) (h : StartCode code) :
    VideoChannel.startCodeLength (code ++ payload) = some code.length ∧
    stripStartCode (code ++ payload) = payload := by
  rcases h with rfl | rfl
  · exact ⟨rfl, rfl⟩
  · exact ⟨rfl, rfl⟩

theorem frameBytes_length (iType : Int) (payload : List UInt8) :
    (VideoChannel.frameBytes iType payload).length = 9 + payload.length := by
  simp [VideoChannel.frameBytes]
  omega

/-- A frame packet: five fixed bytes, the length and the payload. -/
theorem frameBytes_eq (iType : Int) (payload : List UInt8) (h : payload.length < 4294967296) :
    ∃ f : FrameBody, VideoChannel.frameBytes iType payload = f.bytes ∧ f.nalu = payload :=
  ⟨{ front := [if iType = VideoChannel.nalSliceIdr then 0x17 else 0x27, 0x01, 0x00, 0x00, 0x00]
     nalu := payload
     rest := []
     front_length := rfl
     nalu_short := h }, by simp [VideoChannel.frameBytes, FrameBody.bytes], rfl⟩

/-- The first byte of a frame packet tells a key frame from any other. -/
theorem frameType_eq {iType : Int} (hsps : iType ≠ VideoChannel.nalSps)
    (hpps : iType ≠ VideoChannel.nalPps) {p : RTMPPacket} {payload : List UInt8}
    (hb : p.bytes = VideoChannel.frameBytes iType payload) :
    frameType p.body = naluTag iType := by
  have h₀ : p.body 0 = if iType = VideoChannel.nalSliceIdr then 0x17 else 0x27 :=
    (VideoCapture.body_of_bytes (i := 0) (by rw [hb]; rfl)).2
  unfold frameType naluTag
  rw [h₀, if_neg hsps, if_neg hpps]
  split
  · rfl
  · rfl

/-- The packet of one frame. -/
def framePacket (iType : Int) (payload : List UInt8) : RTMPPacket :=
  VideoChannel.videoPacket (VideoChannel.frameBytes iType payload)
    (ofList (VideoChannel.frameBytes iType payload))

/-- The packet of a frame comes back as its payload. -/
theorem nalus_framePacket {iType : Int} (hsps : iType ≠ VideoChannel.nalSps)
    (hpps : iType ≠ VideoChannel.nalPps) {payload : List UInt8}
    (hlen : 9 + payload.length ≤ 2147483647) :
    VideoCapture.nalus (framePacket iType payload) = [(naluTag iType, payload)] := by
  have hsize := frameBytes_length iType payload
  have hbytes := videoPacket_bytes (VideoChannel.frameBytes iType payload) (by omega)
  obtain ⟨f, hf, hnalu⟩ := frameBytes_eq iType payload (by omega)
  have hsecond : f.bytes[1]? = some 0x01 := by
    rw [← hf]
    rfl
  rw [framePacket, VideoCapture.nalus_frame rfl (hbytes.trans hf) hsecond (by decide), hnalu,
    frameType_eq hsps hpps hbytes]

/-- A NAL that is no parameter set goes out in one packet. -/
theorem encodeNal_frame {alloc : Nat → Bool} (halloc : AllocSucceeds alloc)
    (l : VideoChannel.Locals) {nal : VideoChannel.X264Nal} {code payload : List UInt8}
    (hsps : nal.iType ≠ VideoChannel.nalSps) (hpps : nal.iType ≠ VideoChannel.nalPps)
    (hcode : StartCode code) (hunit : nal.payload = code ++ payload)
    (hlen : 9 + payload.length ≤ 2147483647) :
    VideoChannel.encodeNal alloc l nal = some (l, [framePacket nal.iType payload]) := by
  have hstrip := (strip_startCode payload hcode).1
  have hsize := frameBytes_length nal.iType payload
  have hbody := allocBody_eq halloc (VideoChannel.frameBytes nal.iType payload) (by omega)
  have hsend : VideoChannel.sendFrameToRtmpServer alloc nal =
      some (framePacket nal.iType payload) := by
    rw [VideoChannel.sendFrameToRtmpServer, hunit, hstrip, Option.bind_eq_bind,
      Option.bind_some, if_pos (by simp), List.drop_left]
    dsimp only
    rw [hbody]
    rfl
  rw [VideoChannel.encodeNal, if_neg hsps, if_neg hpps, hsend]
  rfl

/-! ## Parameter sets -/

/-- What `memcpy` keeps of a set. -/
theorem storeSet_eq (buffer : Mem) {nal : VideoChannel.X264Nal} {set : List UInt8}
    (h : nal.payload = [0, 0, 0, 1] ++ set) (hlen : set.length ≤ 100) :
    VideoChannel.storeSet buffer nal = some (set.length, write buffer 0 set) := by
  simp [VideoChannel.storeSet, VideoChannel.setBufferSize, h, hlen]

/-- A sequence-header packet: the fixed bytes and one set of either kind. -/
theorem spsPpsBody_eq {sps pps : List UInt8} (l : VideoChannel.Locals)
    (hsps : slice l.sps 0 l.spsLen = sps) (hpps : slice l.pps 0 l.ppsLen = pps)
    (hspsLen : sps.length ≤ 100) (hppsLen : pps.length ≤ 100) :
    ∃ h : SequenceHeader,
      VideoChannel.spsPpsBody l.sps l.spsLen l.pps l.ppsLen = h.bytes ∧
      h.sps = [sps] ∧ h.pps = [pps] := by
  have hn : l.spsLen = sps.length := by rw [← hsps, slice_length]
  have hm : l.ppsLen = pps.length := by rw [← hpps, slice_length]
  refine ⟨{
    front := [0x17, 0x00, 0x00, 0x00, 0x00, 0x01, l.sps 1, l.sps 2, l.sps 3, 0xFF]
    spsCount := 0xE1
    sps := [sps]
    ppsCount := 0x01
    pps := [pps]
    rest := []
    front_length := rfl
    sps_count := rfl
    pps_count := rfl
    sps_short := ?_
    pps_short := ?_ }, ?_, rfl, rfl⟩
  · intro set hset
    rw [List.mem_singleton.mp hset]
    omega
  · intro set hset
    rw [List.mem_singleton.mp hset]
    omega
  · rw [VideoChannel.spsPpsBody, hsps, hpps, hn, hm]
    simp [SequenceHeader.bytes, entry]

theorem spsPpsBody_length (l : VideoChannel.Locals) :
    (VideoChannel.spsPpsBody l.sps l.spsLen l.pps l.ppsLen).length =
      16 + l.spsLen + l.ppsLen := by
  simp [VideoChannel.spsPpsBody]
  omega

/-- The packet of the sets kept in the locals. -/
def setsPacket (l : VideoChannel.Locals) : RTMPPacket :=
  VideoChannel.videoPacket (VideoChannel.spsPpsBody l.sps l.spsLen l.pps l.ppsLen)
    (ofList (VideoChannel.spsPpsBody l.sps l.spsLen l.pps l.ppsLen))

/-- The locals after an SPS and a PPS were stored. -/
def withSets (l : VideoChannel.Locals) (sps pps : List UInt8) : VideoChannel.Locals :=
  ⟨sps.length, write l.sps 0 sps, pps.length, write l.pps 0 pps⟩

/-- The packet of two stored sets comes back as the two sets. -/
theorem nalus_setsPacket (l : VideoChannel.Locals) {sps pps : List UInt8}
    (hspsLen : sps.length ≤ 100) (hppsLen : pps.length ≤ 100) :
    VideoCapture.nalus (setsPacket (withSets l sps pps)) = [(.sps, sps), (.pps, pps)] := by
  obtain ⟨h, hbytes, hsps, hpps⟩ := spsPpsBody_eq (withSets l sps pps)
    (slice_write l.sps 0 sps) (slice_write l.pps 0 pps) hspsLen hppsLen
  have hsize := spsPpsBody_length (withSets l sps pps)
  have hb := videoPacket_bytes (VideoChannel.spsPpsBody (withSets l sps pps).sps
    (withSets l sps pps).spsLen (withSets l sps pps).pps (withSets l sps pps).ppsLen)
    (by simp only [withSets] at hsize ⊢; omega)
  rw [setsPacket, VideoCapture.nalus_sequenceHeader rfl (hb.trans hbytes) (hbytes ▸ rfl),
    hsps, hpps]
  rfl

/-- An SPS and its PPS go out in one packet. -/
theorem encodeData_sets {alloc : Nat → Bool} (halloc : AllocSucceeds alloc)
    (l : VideoChannel.Locals) {s p : VideoChannel.X264Nal} {sps pps : List UInt8}
    (hs : s.iType = VideoChannel.nalSps) (hp : p.iType = VideoChannel.nalPps)
    (hsunit : s.payload = [0, 0, 0, 1] ++ sps) (hpunit : p.payload = [0, 0, 0, 1] ++ pps)
    (hspsLen : sps.length ≤ 100) (hppsLen : pps.length ≤ 100)
    {nals : List VideoChannel.X264Nal} {packets : List RTMPPacket}
    (hrest : VideoChannel.encodeData alloc (withSets l sps pps) nals = some packets) :
    VideoChannel.encodeData alloc l (s :: p :: nals) =
      some (setsPacket (withSets l sps pps) :: packets) := by
  have hne : p.iType ≠ VideoChannel.nalSps := by rw [hp]; decide
  have hsize := spsPpsBody_length (withSets l sps pps)
  have hfirst : VideoChannel.encodeNal alloc l s =
      some ({ l with spsLen := sps.length, sps := write l.sps 0 sps }, []) := by
    rw [VideoChannel.encodeNal, if_pos hs, storeSet_eq _ hsunit hspsLen]
    rfl
  have hsecond : VideoChannel.encodeNal alloc
      { l with spsLen := sps.length, sps := write l.sps 0 sps } p =
      some (withSets l sps pps, [setsPacket (withSets l sps pps)]) := by
    have hbody := allocBody_eq halloc (VideoChannel.spsPpsBody (withSets l sps pps).sps
      (withSets l sps pps).spsLen (withSets l sps pps).pps (withSets l sps pps).ppsLen)
      (by simp only [withSets] at hsize ⊢; omega)
    have hsend : VideoChannel.sendSpsPpsToRtmpServer alloc (withSets l sps pps) =
        some (setsPacket (withSets l sps pps)) := by
      rw [VideoChannel.sendSpsPpsToRtmpServer, hbody]
      rfl
    rw [VideoChannel.encodeNal, if_neg hne, if_pos hp, storeSet_eq _ hpunit hppsLen]
    exact congrArg (fun o => o.bind fun packet => some (withSets l sps pps, [packet])) hsend
  rw [VideoChannel.encodeData, hfirst]
  simp only [Option.bind_eq_bind, Option.bind_some, VideoChannel.encodeData, hsecond, hrest,
    List.nil_append, List.singleton_append]

/-! ## The round trip -/

/-- The receiver gets every payload back, in order, from one encoder call. -/
theorem videoRoundTrip {alloc : Nat → Bool} (halloc : AllocSucceeds alloc)
    {nals : List VideoChannel.X264Nal} (h : EncoderOutput 2147483639 nals) :
    VideoRoundTrip alloc nals := by
  induction h with
  | nil => exact fun l => ⟨[], rfl, rfl⟩
  | @frame nal nals code payload hsps hpps hcode hunit hlen _ ih =>
    intro l
    have hsend := encodeNal_frame halloc l hsps hpps hcode hunit (by omega)
    obtain ⟨packets, hrest, hbacks⟩ := ih l
    refine ⟨framePacket nal.iType payload :: packets, ?_, ?_⟩
    · simp only [VideoChannel.encodeData, hsend, hrest, Option.bind_eq_bind, Option.bind_some,
        List.singleton_append]
    · rw [List.flatMap_cons, nalus_framePacket hsps hpps (by omega), hbacks, List.map_cons,
        hunit, (strip_startCode _ hcode).2]
      rfl
  | @sets s p nals sps pps hs hp hsunit hpunit _ hspsLen hppsLen _ ih =>
    intro l
    obtain ⟨packets, hrest, hbacks⟩ := ih (withSets l sps pps)
    refine ⟨_, encodeData_sets halloc l hs hp hsunit hpunit hspsLen hppsLen hrest, ?_⟩
    rw [List.flatMap_cons, nalus_setsPacket l hspsLen hppsLen, hbacks, List.map_cons,
      List.map_cons, hsunit, hpunit, hs, hp]
    rfl

/-- A payload that leaves no room for the nine bytes in front of it gets no
packet: the size overflows `int`. -/
theorem sendFrame_overflow (alloc : Nat → Bool) {nal : VideoChannel.X264Nal}
    {code payload : List UInt8} (hcode : StartCode code) (hunit : nal.payload = code ++ payload)
    (hlen : 2147483647 < 9 + payload.length) :
    VideoChannel.sendFrameToRtmpServer alloc nal = none := by
  have hsize := frameBytes_length nal.iType payload
  rw [VideoChannel.sendFrameToRtmpServer, hunit, (strip_startCode _ hcode).1, Option.bind_eq_bind,
    Option.bind_some, if_pos (by simp), List.drop_left]
  dsimp only
  rw [allocBody, intSize, if_neg (by omega)]
  rfl

/-- An IDR slice with a three-byte start code and a payload of `2^31 - 4` bytes, so
that `i_payload` is the largest `int`. -/
def largestFrame : VideoChannel.X264Nal where
  iType := VideoChannel.nalSliceIdr
  payload := [0, 0, 1] ++ List.replicate 2147483644 0

/-- Payloads of nearly `2^31` bytes are not sent. -/
theorem videoRoundTrip_overflow :
    ¬ ∀ nals, EncoderOutput 2147483648 nals → VideoRoundTrip (fun _ => true) nals := by
  intro h
  have hout : EncoderOutput 2147483648 [largestFrame] :=
    .frame (by decide) (by decide) (.inl rfl) rfl (by rw [List.length_replicate]; decide) .nil
  obtain ⟨packets, hsend, _⟩ := h _ hout ⟨0, fun _ => 0, 0, fun _ => 0⟩
  have hnone : VideoChannel.sendFrameToRtmpServer (fun _ => true) largestFrame = none :=
    sendFrame_overflow _ (.inl rfl) rfl (by rw [List.length_replicate]; decide)
  have hidr : largestFrame.iType = 5 := rfl
  simp [VideoChannel.encodeData, VideoChannel.encodeNal, hidr, VideoChannel.nalSps,
    VideoChannel.nalPps, hnone] at hsend

/-! ## Audio -/

/-- The channel type a channel configuration denotes: one channel is mono. -/
def channelTag (channelCfg : Int) : AudioChannelType := if channelCfg = 1 then .mono else .stereo

/-- An audio packet comes back as its block. -/
theorem audios_packAudio {alloc : Nat → Bool} {channelCfg : Int} {kind : UInt8}
    {block : List UInt8} {p : RTMPPacket}
    (h : AudioChannel.packAudio alloc channelCfg kind block = some p) :
    VideoCapture.audios p =
      [(if kind = 0x00 then .info else .data, channelTag channelCfg, block)] := by
  obtain ⟨body, hbody, rfl⟩ := Option.map_eq_some_iff.mp h
  obtain ⟨hlen, rfl⟩ := allocBody_some hbody
  have hb : (AudioChannel.audioPacket (AudioChannel.audioBytes channelCfg kind block)
      (ofList (AudioChannel.audioBytes channelCfg kind block))).bytes =
      (if channelCfg = 1 then 0xAE else 0xAF) :: kind :: block := audioPacket_bytes hlen
  rw [VideoCapture.audios_audio rfl hb]
  by_cases hc : channelCfg = 1
  · simp [channelTag, hc]
  · simp [channelTag, hc]

/-- With room for its body, an audio block gets a packet that comes back as the
block. -/
theorem packAudio_roundTrip {alloc : Nat → Bool} (halloc : AllocSucceeds alloc)
    (channelCfg : Int) (kind : UInt8) {block : List UInt8}
    (hlen : 2 + block.length ≤ 2147483647) :
    ∃ p, AudioChannel.packAudio alloc channelCfg kind block = some p ∧
      VideoCapture.audios p =
        [(if kind = 0x00 then .info else .data, channelTag channelCfg, block)] := by
  have hsize : (AudioChannel.audioBytes channelCfg kind block).length = 2 + block.length := by
    simp [AudioChannel.audioBytes]
    omega
  have hbody := allocBody_eq halloc (AudioChannel.audioBytes channelCfg kind block) (by omega)
  have hpack : AudioChannel.packAudio alloc channelCfg kind block =
      some (AudioChannel.audioPacket (AudioChannel.audioBytes channelCfg kind block)
        (ofList (AudioChannel.audioBytes channelCfg kind block))) := by
    rw [AudioChannel.packAudio, hbody]
    rfl
  exact ⟨_, hpack, audios_packAudio hpack⟩

/-- An AAC block is sent, and comes back as data. -/
theorem encodeAudioData_roundTrip {alloc : Nat → Bool} (halloc : AllocSucceeds alloc)
    (channelCfg : Int) {block : List UInt8} (hblock : block ≠ [])
    (hlen : 2 + block.length ≤ 2147483647) :
    ∃ packets, AudioChannel.encodeAudioData alloc channelCfg block = some packets ∧
      packets.flatMap VideoCapture.audios = [(.data, channelTag channelCfg, block)] := by
  obtain ⟨p, hp, hbacks⟩ := packAudio_roundTrip halloc channelCfg 0x01 hlen
  refine ⟨[p], ?_, ?_⟩
  · rw [AudioChannel.encodeAudioData, if_pos (List.length_pos_iff.mpr hblock), hp]
    rfl
  · simpa using hbacks

/-- The decoder info is sent, and comes back as info. -/
theorem getAudioDecodeInfo_roundTrip {alloc : Nat → Bool} (halloc : AllocSucceeds alloc)
    (channelCfg : Int) {info : List UInt8} (hlen : 2 + info.length ≤ 2147483647) :
    ∃ packet, AudioChannel.getAudioDecodeInfo alloc channelCfg info = some packet ∧
      VideoCapture.audios packet = [(.info, channelTag channelCfg, info)] :=
  packAudio_roundTrip halloc channelCfg 0x00 hlen

/-! ## Both streams -/

/-- The receiver undoes the sender: every NAL of an encoder call whose frame
payloads leave room for the nine bytes in front of them, and every AAC block and
decoder-info block that leaves room for its two, is sent and comes back as it was,
with its tag. -/
theorem receiver_undoes_sender {alloc : Nat → Bool} (halloc : AllocSucceeds alloc) :
    (∀ nals, EncoderOutput 2147483639 nals → VideoRoundTrip alloc nals) ∧
    (∀ channelCfg block, block ≠ [] → 2 + block.length ≤ 2147483647 →
      ∃ packets, AudioChannel.encodeAudioData alloc channelCfg block = some packets ∧
        packets.flatMap VideoCapture.audios = [(.data, channelTag channelCfg, block)]) ∧
    (∀ channelCfg info, 2 + info.length ≤ 2147483647 →
      ∃ packet, AudioChannel.getAudioDecodeInfo alloc channelCfg info = some packet ∧
        VideoCapture.audios packet = [(.info, channelTag channelCfg, info)]) := by
  refine ⟨fun nals h => videoRoundTrip halloc h, ?_, ?_⟩
  · intro channelCfg block hblock hlen
    exact encodeAudioData_roundTrip halloc channelCfg hblock hlen
  · intro channelCfg info hlen
    exact getAudioDecodeInfo_roundTrip halloc channelCfg hlen

/-- The NALs of a key frame: an SPS, its PPS and an IDR slice. -/
def keyFrameNals : List VideoChannel.X264Nal :=
  [⟨VideoChannel.nalSps, [0, 0, 0, 1, 0x67, 0x42, 0x00, 0x1E]⟩,
    ⟨VideoChannel.nalPps, [0, 0, 0, 1, 0x68, 0xCE]⟩,
    ⟨VideoChannel.nalSliceIdr, [0, 0, 1, 0x65, 0x88]⟩]

/-- A key frame, a mono block and the stereo decoder info all come back. -/
theorem receiver_undoes_sender_keyFrame :
    VideoRoundTrip (fun _ => true) keyFrameNals ∧
    (∃ packets, AudioChannel.encodeAudioData (fun _ => true) 1 [0x21, 0x10, 0x05] = some packets ∧
      packets.flatMap VideoCapture.audios = [(.data, .mono, [0x21, 0x10, 0x05])]) ∧
    (∃ packet, AudioChannel.getAudioDecodeInfo (fun _ => true) 2 [0x12, 0x10] = some packet ∧
      VideoCapture.audios packet = [(.info, .stereo, [0x12, 0x10])]) := by
  obtain ⟨hvideo, hblock, hinfo⟩ := @receiver_undoes_sender (fun _ => true) fun _ _ => rfl
  refine ⟨hvideo keyFrameNals (.sets rfl rfl rfl rfl (by decide) (by decide) (by decide)
    (.frame (by decide) (by decide) (.inl rfl) rfl (by decide) .nil)), ?_, ?_⟩
  · exact hblock 1 [0x21, 0x10, 0x05] (by decide) (by decide)
  · exact hinfo 2 [0x12, 0x10] (by decide)

end MiniSurveillance
