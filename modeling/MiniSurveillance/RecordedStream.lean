import MiniSurveillance.DecoderStream

/-!
# What the decoder of the record page is fed

A recording of a live stream holds the body of every packet in a tag of its own. The record
page reads the tags back into one buffer, waits for a key frame and decrypts it there.

* `Gated`: the calls of `handle_tag` are gated by one `need_I_frame`, from the first on.
* `units_of_recorded`: a recording feeds the units of the live stream, without the frames
  in front of the first key frame.
* `units_of_record`: from the encoder to the decoder of the record page.
-/

namespace MiniSurveillance
open Bytes

namespace FlvPlayer

/-! ## The gate -/

/-- Calls of `handle_tag` made one after the other, by `need_I_frame` in front of the first
and behind the last. -/
inductive Gated : Bool → List TagCall → Bool → Prop
  | nil {need : Bool} : Gated need [] need
  | cons {need need' : Bool} {call : TagCall} {calls : List TagCall} :
      call.accesses = (tagAccesses need call.type call.buf call.len).1 →
      Gated (tagAccesses need call.type call.buf call.len).2 calls need' →
      Gated need (call :: calls) need'

theorem Gated.snoc {need need' : Bool} {calls : List TagCall} {call : TagCall}
    (h : Gated need calls need')
    (hcall : call.accesses = (tagAccesses need' call.type call.buf call.len).1) :
    Gated need (calls ++ [call]) (tagAccesses need' call.type call.buf call.len).2 := by
  induction h with
  | nil => exact .cons hcall .nil
  | cons hfirst _ ih => exact .cons hfirst (ih hcall)

theorem sleepBehindTag_needIFrame {p q : FlvPlayer} (h : p.sleepBehindTag = some q) :
    q.needIFrame = p.needIFrame := by
  unfold sleepBehindTag at h
  split at h
  · split at h
    · cases h
    · obtain rfl := Option.some.inj h
      rfl
  · obtain rfl := Option.some.inj h
    rfl

theorem countTag_needIFrame (p : FlvPlayer) : p.countTag.needIFrame = p.needIFrame := by
  unfold countTag
  dsimp only
  split
  · split
    · rfl
    · rfl
  · split
    · rfl
    · rfl

theorem handleTag_needIFrame (p : FlvPlayer) (env : TagEffects) :
    (p.handleTag env).needIFrame =
      (tagAccesses p.needIFrame p.headerType p.tagData p.bufLen).2 := by
  rw [handleTag, foldl_sleepOnce]

/-- A round that calls `handle_tag` goes through the gate. -/
theorem feedRound_gated {env : TagEffects} {p q : FlvPlayer} {call : TagCall}
    (h : feedRound env p = .tag call q) :
    call.accesses = (tagAccesses p.needIFrame call.type call.buf call.len).1 ∧
      q.needIFrame = (tagAccesses p.needIFrame call.type call.buf call.len).2 := by
  unfold feedRound at h
  split at h
  · cases h
  · split at h
    · cases h
    · split at h
      · cases h
      · dsimp only at h
        split at h
        · cases h
        · obtain rfl := finishTag_call (.inl ⟨q, h⟩)
          refine ⟨rfl, ?_⟩
          rcases finishTag_cases _ _ with ⟨_, hfinish⟩ | ⟨r, hslept, hfinish⟩
          · cases hfinish.symm.trans h
          · cases hfinish.symm.trans h
            exact (countTag_needIFrame r).trans
              ((sleepBehindTag_needIFrame hslept).trans (handleTag_needIFrame _ env))

theorem feedRound_header_needIFrame {env : TagEffects} {p q : FlvPlayer}
    (h : feedRound env p = .header q) : q.needIFrame = p.needIFrame := by
  rcases feedRound_cases env p with hstop | hwait | ⟨q', hheader, hmoved⟩ | ⟨r, call, htag, -⟩
  · cases hstop.symm.trans h
  · cases hwait.symm.trans h
  · cases hheader.symm.trans h
    exact hmoved.needIFrame
  · exact absurd (htag.symm.trans h) (finishTag_ne_header _ _ _)

/-- The calls of the feed thread so far, and the gate for the next one. -/
def GatedFeed (need : Bool) (s : Feed) : Prop :=
  s.crashed = true ∨ Gated need s.calls s.player.needIFrame

theorem feedStep_gated {need : Bool} {s : Feed} (env : Nat → TagEffects) (h : GatedFeed need s) :
    GatedFeed need (feedStep env s) := by
  unfold feedStep
  split
  · exact h
  · next halive =>
    have hgated : Gated need s.calls s.player.needIFrame := h.resolve_left halive
    split
    · exact h
    · exact h
    · next q hround =>
      refine .inr ?_
      rw [← feedRound_header_needIFrame hround] at hgated
      exact hgated
    · next call q hround =>
      refine .inr ?_
      obtain ⟨haccesses, hneed⟩ := feedRound_gated hround
      have hsnoc := hgated.snoc haccesses
      rw [← hneed] at hsnoc
      exact hsnoc
    · exact .inl rfl

/-- However far the feed thread got, its calls went through the gate `start` closed. -/
theorem feedTask_gated (env : Nat → TagEffects) {p : FlvPlayer} (hfile : p.fileFd.isSome)
    (hstopped : p.isPlaying = false) (n : Nat) :
    GatedFeed true ((feedStep env)^[n] (feedTask p)) := by
  induction n with
  | zero =>
    have hnone : p.fileFd.isNone = false := by
      rw [Option.isNone_eq_false_iff]
      exact hfile
    have hstart : p.start = { p with isPlaying := true, isPause := false, needIFrame := true } := by
      simp [start, hstopped, hnone]
    refine .inr ?_
    show Gated true [] (feedTask p).player.needIFrame
    rw [feedTask, hstart]
    exact .nil
  | succ n ih =>
    rw [Function.iterate_succ_apply']
    exact feedStep_gated env ih

theorem idrLast_tagAccesses (need : Bool) (type : Nat) (buf : Mem) (len : Nat) :
    IdrLast (tagAccesses need type buf len).1 := by
  unfold tagAccesses
  split
  · unfold handleVideoTagData
    split
    · exact idrLast_spsPps buf
    · dsimp only [handleFrame]
      split
      · exact rfl
      · split
        · trivial
        · trivial
  · split
    · unfold handleAudioTagData
      split
      · trivial
      · trivial
    · trivial

theorem Gated.idrLast {need need' : Bool} {calls : List TagCall} (h : Gated need calls need') :
    ∀ call ∈ calls, IdrLast call.accesses := by
  induction h with
  | nil => exact List.forall_mem_nil _
  | cons hcall _ ih =>
    exact List.forall_mem_cons.mpr ⟨hcall ▸ idrLast_tagAccesses _ _ _ _, ih⟩

end FlvPlayer

/-! ## The recording of a stream -/

/-- The walk of the feed thread over the data of a tag. -/
def TagCall.walk (call : TagCall) : Mem × List Access := (call.buf, call.accesses)

/-- Type and data of an audio or a video tag. -/
def Tag.carries? (t : Tag) : Option (Nat × List UInt8) :=
  if t.typeByte.toNat &&& 0x1F = FlvPlayer.tagScriptData then none
  else some (t.typeByte.toNat &&& 0x1F, t.data)

/-- The recording of a stream: a tag with the type and the body of every packet, in their
order, and script tags and segment headers anywhere in between. -/
def Records (segments : List Segment) (received : List RTMPPacket) : Prop :=
  (segments.flatMap Segment.tags).filterMap Tag.carries? =
    received.map fun p => (p.packetType, p.bytes)

/-- What is left without the frames in front of the first key frame. -/
def fromIdr (units : List (NaluType × List UInt8)) : List (NaluType × List UInt8) :=
  (units.takeWhile fun unit => unit.1 != .idr).filter (fun unit => unit.1 != .other) ++
    units.dropWhile fun unit => unit.1 != .idr

theorem fromKeyFrame_units (encryption : List UInt8) (cs : List Callback) :
    (fromKeyFrame cs).filterMap (Callback.unit encryption) =
      fromIdr (cs.filterMap (Callback.unit encryption)) := by
  induction cs with
  | nil => rfl
  | cons c cs ih =>
    have hpass (h : c.isIdr = false) :
        fromKeyFrame (c :: cs) = fromKeyFrame [c] ++ fromKeyFrame cs := by
      show fromKeyFrame ([c] ++ cs) = _
      exact fromKeyFrame_append (by simpa using h) cs
    cases c with
    | audio type channel data =>
      rw [hpass rfl, List.filterMap_append, ih]
      rfl
    | nalu type data =>
      cases type with
      | idr => rfl
      | sps =>
        rw [hpass rfl, List.filterMap_append, ih]
        rfl
      | pps =>
        rw [hpass rfl, List.filterMap_append, ih]
        rfl
      | other =>
        rw [hpass rfl, List.filterMap_append, ih]
        rfl

theorem fromIdr_mem {units : List (NaluType × List UInt8)} {unit : NaluType × List UInt8}
    (h : unit ∈ fromIdr units) : unit ∈ units := by
  rw [fromIdr, List.mem_append, List.mem_filter] at h
  rcases h with ⟨htake, -⟩ | hdrop
  · exact (List.takeWhile_sublist _).subset htake
  · exact (List.dropWhile_sublist _).subset hdrop

/-- The calls for the tags of a recording make the callbacks of the record page. -/
theorem gated_recorded {need need' : Bool} {calls : List TagCall}
    (h : FlvPlayer.Gated need calls need') {tags : List Tag}
    (hviews : calls.map TagCall.view = tags.map Tag.view) {received : List RTMPPacket}
    (hrecords : tags.filterMap Tag.carries? = received.map fun p => (p.packetType, p.bytes))
    (hwhole : ∀ p ∈ received, p.packetType = packetTypeVideo →
      FlvPlayer.WholeVideo false p.bytes) :
    ∃ cs : List Carried, cs.map Carried.packet = received ∧
      calls.flatMap (fun call => callbacks call.buf call.accesses) = recorded need cs := by
  induction h generalizing tags received with
  | nil =>
    obtain rfl : tags = [] := by simpa using hviews.symm
    obtain rfl : received = [] := by simpa using hrecords.symm
    exact ⟨[], rfl, rfl⟩
  | @cons need need' call calls hcall _ ih =>
    obtain ⟨t, tags, rfl⟩ : ∃ t ts, tags = t :: ts := by
      cases tags with
      | nil => cases hviews
      | cons t tags => exact ⟨t, tags, rfl⟩
    obtain ⟨hview, hviews⟩ := List.cons_eq_cons.mp hviews
    obtain ⟨htype, hdata, hlen⟩ : call.type = t.typeByte.toNat &&& 0x1F ∧
        slice call.buf 0 call.len = t.data ∧ call.len = t.data.length := by
      simpa [TagCall.view, Tag.view] using hview
    by_cases hscript : t.typeByte.toNat &&& 0x1F = FlvPlayer.tagScriptData
    · have hnone : FlvPlayer.tagAccesses need call.type call.buf call.len = ([], need) := by
        rw [htype, hscript]
        rfl
      rw [List.filterMap_cons_none (by rw [Tag.carries?, if_pos hscript])] at hrecords
      rw [hnone] at hcall ih
      obtain ⟨cs, hpackets, hcalls⟩ := ih hviews hrecords hwhole
      refine ⟨cs, hpackets, ?_⟩
      rw [List.flatMap_cons, hcall, hcalls]
      rfl
    · rw [List.filterMap_cons_some (by rw [Tag.carries?, if_neg hscript])] at hrecords
      obtain ⟨p, received, rfl⟩ : ∃ p ps, received = p :: ps := by
        cases received with
        | nil => cases hrecords
        | cons p received => exact ⟨p, received, rfl⟩
      obtain ⟨hcarried, hrecords⟩ := List.cons_eq_cons.mp hrecords
      obtain ⟨hptype, hpbytes⟩ := Prod.mk.inj hcarried
      obtain ⟨hfirst, hrest⟩ := List.forall_mem_cons.mp hwhole
      obtain ⟨cs, hpackets, hcalls⟩ := ih hviews hrecords hrest
      have hsize : call.len = p.nBodySize.toNat := by
        rw [hlen, hpbytes, VideoCapture.bytes_length]
      have hknown : p.packetType = packetTypeAudio ∨ p.packetType = packetTypeVideo := by
        rw [← hptype]
        rcases t.type_known with haudio | hvideo | hother
        · exact .inl haudio
        · exact .inr hvideo
        · exact absurd hother hscript
      let c : Carried := {
        packet := p
        buf := call.buf
        type_known := hknown
        same := by rw [← hsize, hdata, hpbytes]
        whole := ⟨hfirst, fun _ => hpbytes ▸ t.data_long⟩ }
      refine ⟨c :: cs, by rw [List.map_cons, hpackets], ?_⟩
      rw [List.flatMap_cons, hcall, hcalls, htype, hptype, hsize]
      rfl

/-- A recording feeds the units of the live stream, without the frames in front of the
first key frame. -/
theorem units_of_recorded (encryption : List UInt8) {need' : Bool} {calls : List TagCall}
    (h : FlvPlayer.Gated true calls need') {segments : List Segment}
    (hviews : calls.map TagCall.view = (segments.flatMap Segment.tags).map Tag.view)
    {received : List RTMPPacket} (hrecords : Records segments received)
    (hwhole : ∀ p ∈ received, p.packetType = packetTypeVideo →
      FlvPlayer.WholeVideo false p.bytes) :
    walkUnits encryption (calls.map TagCall.walk) =
      fromIdr (walkUnits encryption (received.map RTMPPacket.walk)) := by
  obtain ⟨cs, hpackets, hcalls⟩ := gated_recorded h hviews hrecords hwhole
  have hlive : walkUnits encryption (received.map RTMPPacket.walk) =
      (cs.flatMap live).filterMap (Callback.unit encryption) := by
    rw [← hpackets, walkUnits, List.flatMap_map, List.flatMap_map, List.filterMap_flatMap]
    rfl
  rw [hlive, ← fromKeyFrame_units, ← recorded_eq_live, ← hcalls, List.filterMap_flatMap, walkUnits,
    List.flatMap_map]
  rfl

/-! ## From the encoder to the record page -/

/-- What `encodeData` sends is whole inside. -/
theorem encodeData_whole {alloc : Nat → Bool} (halloc : AllocSucceeds alloc)
    {nals : List VideoChannel.X264Nal} (h : EncoderOutput 2147483639 nals) :
    ∀ l packets, VideoChannel.encodeData alloc l nals = some packets →
      ∀ p ∈ packets, FlvPlayer.WholeVideo false p.bytes := by
  induction h with
  | nil =>
    intro l packets hsend
    obtain rfl := Option.some.inj hsend
    exact List.forall_mem_nil _
  | @frame nal nals code payload hsps hpps hcode hunit hlen _ ih =>
    intro l packets hsend
    simp only [VideoChannel.encodeData,
      encodeNal_frame halloc l hsps hpps hcode hunit (by omega), Option.bind_eq_bind,
      Option.bind_some, Option.bind_eq_some_iff] at hsend
    obtain ⟨more, hmore, hpackets⟩ := hsend
    obtain rfl := Option.some.inj hpackets
    refine List.forall_mem_cons.mpr ⟨?_, ih l more hmore⟩
    have hsize := frameBytes_length nal.iType payload
    have hbytes := videoPacket_bytes (VideoChannel.frameBytes nal.iType payload) (by omega)
    obtain ⟨f, hf, -⟩ := frameBytes_eq nal.iType payload (by omega)
    refine .inr ⟨0x01, ?_, by decide, .inl ⟨f, hbytes.trans hf⟩⟩
    rw [framePacket, hbytes]
    rfl
  | @sets s p nals sps pps hs hp hsunit hpunit _ hspsLen hppsLen hnals ih =>
    intro l packets hsend
    obtain ⟨more, hmore, -⟩ := videoRoundTrip halloc hnals (withSets l sps pps)
    rw [encodeData_sets halloc l hs hp hsunit hpunit hspsLen hppsLen hmore] at hsend
    obtain rfl := Option.some.inj hsend
    refine List.forall_mem_cons.mpr ⟨?_, ih _ more hmore⟩
    obtain ⟨header, hheader, -⟩ := spsPpsBody_eq (withSets l sps pps)
      (slice_write l.sps 0 sps) (slice_write l.pps 0 pps) hspsLen hppsLen
    have hsize := spsPpsBody_length (withSets l sps pps)
    have hbytes := videoPacket_bytes (VideoChannel.spsPpsBody (withSets l sps pps).sps
      (withSets l sps pps).spsLen (withSets l sps pps).pps (withSets l sps pps).ppsLen)
      (by simp only [withSets] at hsize ⊢; omega)
    refine .inl ⟨?_, header, hbytes.trans hheader⟩
    rw [setsPacket, hbytes]
    rfl

theorem sessionPackets_whole {alloc : Nat → Bool} (halloc : AllocSucceeds alloc)
    {calls : List (VideoChannel.Locals × List VideoChannel.X264Nal)}
    (hcalls : ∀ c ∈ calls, EncoderOutput 2147483639 c.2) {packets : List RTMPPacket}
    (h : sessionPackets alloc calls = some packets) :
    ∀ p ∈ packets, FlvPlayer.WholeVideo false p.bytes := by
  induction calls generalizing packets with
  | nil =>
    obtain rfl := Option.some.inj h
    exact List.forall_mem_nil _
  | cons c calls ih =>
    obtain ⟨hfirst, hrest⟩ := List.forall_mem_cons.mp hcalls
    simp only [sessionPackets, List.mapM_cons, Option.bind_eq_bind, Option.map_eq_some_iff,
      Option.bind_eq_some_iff] at h
    obtain ⟨_, ⟨sent, hsent, lists, hlists, hcons⟩, rfl⟩ := h
    obtain rfl := Option.some.inj hcons
    rw [List.flatten_cons, List.forall_mem_append]
    exact ⟨encodeData_whole halloc hfirst c.1 sent hsent,
      ih hrest (by rw [sessionPackets, hlists]; rfl)⟩

/-- Encrypting a key frame leaves the packet whole. -/
theorem Sealed.whole {encryption : List UInt8} {p p' : RTMPPacket} (h : Sealed encryption p p')
    (hwhole : FlvPlayer.WholeVideo false p.bytes) : FlvPlayer.WholeVideo false p'.bytes := by
  cases h with
  | plain => exact hwhole
  | @keyFrame after hframe _ hcrypt =>
    have houtside (i : Nat) (hi : i < 9) : after i = p.body i :=
      Crypto.crypt_outside hcrypt (.inl hi)
    rcases hwhole with ⟨hsecond, -⟩ | ⟨b, hsecond, hb, ⟨f, hf⟩ | ⟨hno, -⟩⟩
    · exact absurd (VideoCapture.body_of_bytes hsecond).2 hframe.2.1
    · obtain ⟨hlen, -, hle⟩ := FrameBody.at hf
      have hlen' : frameLength after = frameLength p.body := by
        simp only [frameLength, houtside 5 (by decide), houtside 6 (by decide),
          houtside 7 (by decide), houtside 8 (by decide)]
      obtain ⟨f', hf', -⟩ := FrameBody.of_length
        (show 9 + frameLength after ≤ p.nBodySize.toNat by rw [hlen', hlen]; exact hle)
      obtain ⟨hlt, hbody⟩ := VideoCapture.body_of_bytes hsecond
      refine .inr ⟨b, ?_, hb, .inl ⟨f', hf'⟩⟩
      show (slice after 0 p.nBodySize.toNat)[1]? = some b
      rw [slice_getElem? hlt, houtside _ (by decide), ← hbody]
    · cases hno

theorem Arrived.whole {encryption : List UInt8} {sent received : List RTMPPacket}
    (h : Arrived encryption sent received)
    (hwhole : ∀ p ∈ sent, FlvPlayer.WholeVideo false p.bytes) :
    ∀ p ∈ received, p.packetType = packetTypeVideo → FlvPlayer.WholeVideo false p.bytes := by
  induction h with
  | nil => exact List.forall_mem_nil _
  | video hsealed _ ih =>
    obtain ⟨hfirst, hrest⟩ := List.forall_mem_cons.mp hwhole
    exact List.forall_mem_cons.mpr ⟨fun _ => hsealed.whole hfirst, ih hrest⟩
  | other hother _ ih =>
    exact List.forall_mem_cons.mpr ⟨fun hvideo => absurd hvideo hother, ih hwhole⟩

/-- A session is recorded as it arrived and played by the record page. From some round on
its decoder has been fed one stream, and in it are the units of the encoder, in their
order, without the frames in front of the first key frame. -/
theorem units_of_record {alloc : Nat → Bool} (halloc : AllocSucceeds alloc)
    (encryption : List UInt8)
    {calls : List (VideoChannel.Locals × List VideoChannel.X264Nal)}
    (hcalls : ∀ c ∈ calls, EncoderOutput 2147483639 c.2)
    (hplain : ∀ c ∈ calls, ∀ nal ∈ c.2, AnnexB.Plain (stripStartCode nal.payload))
    {packets received : List RTMPPacket} (hpackets : sessionPackets alloc calls = some packets)
    (harrived : Arrived encryption packets received) {segments : List Segment}
    (hrecords : Records segments received) (env : Nat → TagEffects) {p : FlvPlayer} {offset : Nat}
    (hfile : p.fileFd = some ⟨recording segments, offset⟩) (hstopped : p.isPlaying = false)
    (hrates : FlvPlayer.NoZeroRate env 0 p (segments.flatMap Segment.tags).length) :
    ∃ n, ∀ m, n ≤ m →
      let walks := ((FlvPlayer.feedStep env)^[m] (FlvPlayer.feedTask p)).calls.map TagCall.walk
      (∃! stream, StreamFed encryption walks stream) ∧
      ∀ stream, StreamFed encryption walks stream → AnnexB.units stream =
        (fromIdr ((calls.flatMap Prod.snd).map fun nal =>
          (naluTag nal.iType, stripStartCode nal.payload))).map Prod.snd := by
  obtain ⟨sent, hsent, hnalus⟩ := sessionPackets_nalus halloc hcalls
  cases hpackets.symm.trans hsent
  obtain ⟨n, hplays⟩ := FlvPlayer.playsWhole_of_noZeroRate env segments hfile hstopped hrates
  refine ⟨n, fun m hm => ?_⟩
  obtain ⟨halive, hviews, -⟩ := hplays m hm
  have hgated := (FlvPlayer.feedTask_gated env (p := p) (by rw [hfile]; rfl) hstopped m)
    |>.resolve_left (by rw [halive]; decide)
  have hunits := units_of_recorded encryption hgated hviews hrecords
    (harrived.whole (sessionPackets_whole halloc hcalls hpackets))
  rw [harrived.units, hnalus] at hunits
  have hlast : ∀ walk ∈ ((FlvPlayer.feedStep env)^[m] (FlvPlayer.feedTask p)).calls.map
      TagCall.walk, IdrLast walk.2 := by
    intro walk hwalk
    obtain ⟨call, hcall, rfl⟩ := List.mem_map.mp hwalk
    exact hgated.idrLast call hcall
  refine ⟨existsUnique_streamFed hlast, fun stream hstream => ?_⟩
  rw [(streamFed_iff hlast).mp hstream, hunits, annexB_units]
  intro unit hunit
  obtain ⟨nal, hnal, rfl⟩ := List.mem_map.mp (fromIdr_mem hunit)
  obtain ⟨c, hc, hmem⟩ := List.mem_flatMap.mp hnal
  exact hplain c hc nal hmem

/-- The stack in front of an encoder call. -/
def zeroStack : VideoChannel.Locals := ⟨0, fun _ => 0, 0, fun _ => 0⟩

/-- A script tag, a frame, the sets and a key frame encrypted with one byte. -/
def joinedLate : Segment where
  header := FlvPlayer.keyFrameSegment.header
  tags := [
    FlvPlayer.scriptTag,
    { FlvPlayer.keyFrame with
      size₂ := 0x0B
      data := [0x27, 0x01, 0x00, 0x00, 0x00, 0x00, 0x00, 0x00, 0x02, 0x41, 0x9A]
      size_eq := by decide
      data_long := by decide
      data_short := by decide },
    { FlvPlayer.keyFrame with
      size₂ := 0x16
      data := [0x17, 0x00, 0x00, 0x00, 0x00, 0x01, 0x42, 0x00, 0x1E, 0xFF, 0xE1, 0x00, 0x04,
        0x67, 0x42, 0x00, 0x1E, 0x01, 0x00, 0x02, 0x68, 0xCE]
      size_eq := by decide
      data_long := by decide
      data_short := by decide },
    { FlvPlayer.keyFrame with
      size₂ := 0x0B
      data := [0x17, 0x01, 0x00, 0x00, 0x00, 0x00, 0x00, 0x00, 0x02, 0x75, 0x98]
      size_eq := by decide
      data_long := by decide
      data_short := by decide }]

/-- The frame in front of the key frame is left out, and the key frame is decrypted. -/
theorem units_of_record_joinedLate :
    ∃ n, ∀ m, n ≤ m →
      let walks := ((FlvPlayer.feedStep fun _ => ⟨[25], id⟩)^[m]
        (FlvPlayer.feedTask (FlvPlayer.opened (recording [joinedLate])))).calls.map TagCall.walk
      (∃! stream, StreamFed [0x10] walks stream) ∧
      ∀ stream, StreamFed [0x10] walks stream →
        AnnexB.units stream = [[0x67, 0x42, 0x00, 0x1E], [0x68, 0xCE], [0x65, 0x88]] := by
  obtain ⟨after, hafter⟩ := Crypto.crypt_ends (show ([0x10] : List UInt8) ≠ [] by decide)
    (framePacket 5 [0x65, 0x88]).body 9 2
  have hhead (i : Nat) (hi : i < 9) : after i = (framePacket 5 [0x65, 0x88]).body i :=
    Crypto.crypt_outside hafter (.inl hi)
  have h₉ : after 9 = 0x75 := Crypto.crypt_inside hafter (i := 0) (by decide)
  have h₁₀ : after 10 = 0x98 := Crypto.crypt_inside hafter (i := 1) (by decide)
  have hbytes : slice after 0 11 =
      [0x17, 0x01, 0x00, 0x00, 0x00, 0x00, 0x00, 0x00, 0x02, 0x75, 0x98] := by
    have hfront : slice after 0 9 = slice (framePacket 5 [0x65, 0x88]).body 0 9 :=
      List.map_congr_left fun i hi => hhead i (by have := List.mem_range'_1.mp hi; omega)
    have hslice : slice after (0 + 9) 2 = [0x75, 0x98] := by
      show [after 9, after 10] = _
      rw [h₉, h₁₀]
    rw [slice_append after 0 9 2, hfront, hslice]
    rfl
  have hcalls : ∀ c ∈ [(zeroStack, [⟨1, [0, 0, 1, 0x41, 0x9A]⟩]), (zeroStack, keyFrameNals)],
      EncoderOutput 2147483639 c.2 :=
    List.forall_mem_cons.mpr
      ⟨.frame (by decide) (by decide) (.inl rfl) rfl (by decide) .nil,
        List.forall_mem_singleton.mpr (.sets rfl rfl rfl rfl (by decide) (by decide) (by decide)
          (.frame (by decide) (by decide) (.inl rfl) rfl (by decide) .nil))⟩
  have hplain : ∀ nal ∈ keyFrameNals, AnnexB.Plain (stripStartCode nal.payload) := by decide
  have hrecords : Records [joinedLate] [framePacket 1 [0x41, 0x9A],
      setsPacket (withSets zeroStack [0x67, 0x42, 0x00, 0x1E] [0x68, 0xCE]),
      { framePacket 5 [0x65, 0x88] with body := after }] := by
    show _ = [_, _, (9, slice after 0 11)]
    rw [hbytes]
    rfl
  refine units_of_record (fun _ _ => rfl) [0x10] hcalls
    (List.forall_mem_cons.mpr ⟨by decide, List.forall_mem_singleton.mpr hplain⟩) rfl
    (.video (.plain (.inl ?_)) (.video (.plain (.inl ?_))
      (.video (.keyFrame ?_ (by decide) hafter) .nil))) hrecords (fun _ => ⟨[25], id⟩) rfl rfl ?_
  · exact fun h => absurd h.2.2 (by decide)
  · exact fun h => absurd h.2.1 (by decide)
  · exact ⟨rfl, by decide, by decide⟩
  · refine ⟨fun _ => by decide, ?_⟩
    intro k _ _
    show (some 25 : Option UInt32) ≠ some 0
    decide

end MiniSurveillance
