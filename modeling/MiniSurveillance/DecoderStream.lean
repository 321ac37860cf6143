import MiniSurveillance.Base.AnnexB
import MiniSurveillance.Crypto
import MiniSurveillance.ParsersAgree
import MiniSurveillance.RoundTrip

/-!
# What the video decoder is fed

The NALU callbacks of `VideoCtrl` and `RecordCtrl` put a start code in front of every
slice and decrypt key frames where they lie, in the body of the packet or in the buffer of
the feed thread. The decoder gets one byte stream.

* `fed_iff`: the bytes a walk over a body feeds, by the callbacks it makes.
* `units_sealed`: a packet whose key frame was encrypted on the way feeds the slices of the
  packet that was sent.
* `units_of_session`: over any number of encoder calls the decoder finds in its stream the
  units of the encoder, whatever the key.
-/

namespace MiniSurveillance
open Bytes

/-! ## The NALU callback -/

/-- What is fed in front of a slice. -/
def naluHeader (type : NaluType) : List UInt8 :=
  if type = .idr then [0x00, 0x00, 0x01] else [0x00, 0x00, 0x00, 0x01]

/-- The NALU callback on the slice at `offset`: the bytes it passes to `receiveData`, and
the memory it leaves. -/
inductive NaluCallBack (encryption : List UInt8) (m : Mem) (type : NaluType) (offset len : Nat) :
    List UInt8 → Mem → Prop
  | decrypted {after : Mem} : type = .idr → encryption ≠ [] →
      Crypto.Decrypts encryption m offset len after →
      NaluCallBack encryption m type offset len (naluHeader type ++ slice after offset len) after
  | plain : type ≠ .idr ∨ encryption = [] →
      NaluCallBack encryption m type offset len (naluHeader type ++ slice m offset len) m

/-- What the decoder is fed on a walk over a body; the audio callbacks feed another one. -/
inductive Fed (encryption : List UInt8) : Mem → List Access → List UInt8 → Mem → Prop
  | nil {m : Mem} : Fed encryption m [] [] m
  | read {m m' : Mem} {i : Nat} {as : List Access} {bytes : List UInt8} :
      Fed encryption m as bytes m' → Fed encryption m (.read i :: as) bytes m'
  | audio {m m' : Mem} {type : AudioType} {channel : AudioChannelType} {offset len : Nat}
      {as : List Access} {bytes : List UInt8} :
      Fed encryption m as bytes m' →
      Fed encryption m (.audio type channel offset len :: as) bytes m'
  | nalu {m m₁ m' : Mem} {type : NaluType} {offset len : Nat} {as : List Access}
      {bytes bytes' : List UInt8} :
      NaluCallBack encryption m type offset len bytes m₁ → Fed encryption m₁ as bytes' m' →
      Fed encryption m (.nalu type offset len :: as) (bytes ++ bytes') m'

/-- The bytes of a slice, decrypted. -/
def decrypted (encryption data : List UInt8) : List UInt8 :=
  if encryption = [] then data else data.mapIdx fun i b => b ^^^ Crypto.keyByte encryption i

/-- What a callback feeds the decoder behind a start code. -/
def Callback.unit (encryption : List UInt8) : Callback → Option (NaluType × List UInt8)
  | .nalu type data => some (type, if type = .idr then decrypted encryption data else data)
  | .audio _ _ _ => none

/-- Units with start codes in front. -/
def annexB (units : List (NaluType × List UInt8)) : List UInt8 :=
  units.flatMap fun unit => naluHeader unit.1 ++ unit.2

theorem annexB_append (us vs : List (NaluType × List UInt8)) :
    annexB (us ++ vs) = annexB us ++ annexB vs := List.flatMap_append ..

/-! ## A walk over a body -/

/-- Nothing is read or handed on behind a key frame. -/
def IdrLast : List Access → Prop
  | [] => True
  | .nalu .idr _ _ :: as => as = []
  | _ :: as => IdrLast as

theorem idrLast_of_noIdr {as : List Access} (h : ∀ o n, Access.nalu .idr o n ∉ as) :
    IdrLast as := by
  induction as with
  | nil => trivial
  | cons a as ih =>
    have hrest := ih fun o n hmem => h o n (List.mem_cons_of_mem _ hmem)
    match a, h with
    | .read i, _ => exact hrest
    | .audio t c o n, _ => exact hrest
    | .nalu .sps o n, _ => exact hrest
    | .nalu .pps o n, _ => exact hrest
    | .nalu .other o n, _ => exact hrest
    | .nalu .idr o n, h => exact absurd List.mem_cons_self (h o n)

theorem idrLast_spsPps (body : Mem) : IdrLast (spsPps body) := by
  refine idrLast_of_noIdr fun o n hmem => ?_
  rcases spsPps_mem hmem with ⟨i, hi⟩ | ⟨type, o', n', htype, hcall⟩
  · cases hi
  · cases hcall
    rcases htype with htype | htype
    · cases htype
    · cases htype

theorem idrLast_handlePacket (p : RTMPPacket) : IdrLast (VideoCapture.handlePacket p) := by
  by_cases hvideo : p.packetType = packetTypeVideo
  · rw [handlePacket_video hvideo]
    show IdrLast (if _ then _ else _)
    split
    · exact idrLast_spsPps p.body
    · cases h : frameType p.body with
      | sps => trivial
      | pps => trivial
      | idr => exact rfl
      | other => trivial
  · by_cases haudio : p.packetType = packetTypeAudio
    · rw [handlePacket_audio haudio]
      show IdrLast (if _ then _ else _)
      split
      · trivial
      · trivial
    · rw [VideoCapture.handlePacket, if_neg hvideo, if_neg haudio]
      trivial

theorem slice_decrypted {encryption : List UInt8} (hkey : encryption ≠ []) {m after : Mem}
    {offset len : Nat} (h : Crypto.Decrypts encryption m offset len after) :
    slice after offset len = decrypted encryption (slice m offset len) := by
  rw [decrypted, if_neg hkey]
  apply List.ext_getElem?
  intro i
  rw [List.getElem?_mapIdx]
  rcases Nat.lt_or_ge i len with hlt | hge
  · rw [slice_getElem? hlt, slice_getElem? hlt, Option.map_some, Crypto.crypt_inside h hlt]
  · rw [List.getElem?_eq_none (by simpa using hge), List.getElem?_eq_none (by simpa using hge)]
    rfl

/-- The callback on a slice feeds one unit. -/
theorem naluCallBack_unit {encryption : List UInt8} {m m' : Mem} {type : NaluType}
    {offset len : Nat} {bytes : List UInt8}
    (h : NaluCallBack encryption m type offset len bytes m') :
    bytes = annexB ((Callback.nalu type (slice m offset len)).unit encryption).toList := by
  rw [Callback.unit, Option.toList_some, annexB, List.flatMap_singleton]
  dsimp only
  cases h with
  | decrypted htype hkey hdecrypts =>
    rw [if_pos htype, slice_decrypted hkey hdecrypts]
  | plain hplain =>
    split
    · next htype =>
      rcases hplain with hne | rfl
      · exact absurd htype hne
      · rw [decrypted, if_pos rfl]
    · rfl

theorem exists_naluCallBack (encryption : List UInt8) (m : Mem) (type : NaluType)
    (offset len : Nat) : ∃ bytes m', NaluCallBack encryption m type offset len bytes m' := by
  by_cases hplain : type ≠ .idr ∨ encryption = []
  · exact ⟨_, _, .plain hplain⟩
  · rw [not_or, not_not] at hplain
    obtain ⟨after, hafter⟩ := Crypto.crypt_ends hplain.2 m offset len
    exact ⟨_, _, .decrypted hplain.1 hplain.2 hafter⟩

/-- A walk with its key frame last feeds the units of its callbacks. -/
theorem fed_iff {encryption : List UInt8} {m : Mem} {as : List Access} (hlast : IdrLast as)
    {bytes : List UInt8} : (∃ m', Fed encryption m as bytes m') ↔
      bytes = annexB ((callbacks m as).filterMap (Callback.unit encryption)) := by
  induction as generalizing bytes with
  | nil =>
    constructor
    · rintro ⟨_, ⟨⟩⟩
      rfl
    · rintro rfl
      exact ⟨m, .nil⟩
  | cons a as ih =>
    cases a with
    | read i =>
      rw [callbacks_cons_read, ← ih hlast]
      constructor
      · rintro ⟨m', h⟩
        cases h with
        | read h => exact ⟨m', h⟩
      · exact fun ⟨m', h⟩ => ⟨m', .read h⟩
    | audio type channel offset len =>
      have hunits : (callbacks m (.audio type channel offset len :: as)).filterMap
          (Callback.unit encryption) =
          (callbacks m as).filterMap (Callback.unit encryption) := rfl
      rw [hunits, ← ih hlast]
      constructor
      · rintro ⟨m', h⟩
        cases h with
        | audio h => exact ⟨m', h⟩
      · exact fun ⟨m', h⟩ => ⟨m', .audio h⟩
    | nalu type offset len =>
      have hunits : annexB ((callbacks m (.nalu type offset len :: as)).filterMap
          (Callback.unit encryption)) =
          annexB ((Callback.nalu type (slice m offset len)).unit encryption).toList ++
            annexB ((callbacks m as).filterMap (Callback.unit encryption)) :=
        annexB_append [_] _
      rw [hunits]
      by_cases htype : type = .idr
      · subst htype
        obtain rfl : as = [] := hlast
        constructor
        · rintro ⟨m', h⟩
          cases h with
          | nalu hcall hrest =>
            cases hrest
            rw [naluCallBack_unit hcall]
            rfl
        · rintro rfl
          obtain ⟨fed, m', hcall⟩ := exists_naluCallBack encryption m .idr offset len
          rw [← naluCallBack_unit hcall]
          exact ⟨m', .nalu hcall .nil⟩
      · have hrest : IdrLast as := by
          cases type with
          | idr => exact absurd rfl htype
          | sps => exact hlast
          | pps => exact hlast
          | other => exact hlast
        constructor
        · rintro ⟨m', h⟩
          cases h with
          | nalu hcall hmore =>
            rw [← naluCallBack_unit hcall]
            cases hcall with
            | decrypted hidr => exact absurd hidr htype
            | plain => rw [(ih hrest).mp ⟨m', hmore⟩]
        · rintro rfl
          obtain ⟨m', hmore⟩ := (ih hrest).mpr rfl
          have hcall : NaluCallBack encryption m type offset len _ m := .plain (.inl htype)
          rw [← naluCallBack_unit hcall]
          exact ⟨m', .nalu hcall hmore⟩

/-! ## Encrypted key frames -/

/-- The packet carries a key frame. -/
def KeyFrame (p : RTMPPacket) : Prop :=
  p.packetType = packetTypeVideo ∧ p.body 1 ≠ 0x00 ∧ frameType p.body = .idr

/-- What the device sends for a packet: the slice of a key frame is encrypted where it
lies, when there is a key. -/
inductive Sealed (encryption : List UInt8) (p : RTMPPacket) : RTMPPacket → Prop
  | keyFrame {after : Mem} : KeyFrame p → encryption ≠ [] →
      Crypto.Encrypts encryption p.body 9 (frameLength p.body) after →
      Sealed encryption p { p with body := after }
  | plain : ¬ KeyFrame p ∨ encryption = [] → Sealed encryption p p

theorem exists_sealed (encryption : List UInt8) (p : RTMPPacket) :
    ∃ p', Sealed encryption p p' := by
  by_cases hplain : ¬ KeyFrame p ∨ encryption = []
  · exact ⟨p, .plain hplain⟩
  · rw [not_or, not_not] at hplain
    obtain ⟨after, hafter⟩ := Crypto.crypt_ends hplain.2 p.body 9 (frameLength p.body)
    exact ⟨_, .keyFrame hplain.1 hplain.2 hafter⟩

/-- Without a key frame among the callbacks nothing is decrypted. -/
theorem units_noIdr {encryption : List UInt8} {m : Mem} {as : List Access}
    (h : encryption = [] ∨ ∀ o n, Access.nalu .idr o n ∉ as) :
    (callbacks m as).filterMap (Callback.unit encryption) =
      as.filterMap (Access.naluCall m) := by
  rw [callbacks, List.filterMap_filterMap]
  refine List.filterMap_congr fun a ha => ?_
  cases a with
  | read i => rfl
  | audio type channel offset len => rfl
  | nalu type offset len =>
    have hsame : (if type = .idr then decrypted encryption (slice m offset len)
        else slice m offset len) = slice m offset len := by
      split
      · next htype =>
        rcases h with hkey | hidr
        · rw [decrypted, if_pos hkey]
        · exact absurd (htype ▸ ha) (hidr offset len)
      · rfl
    show (some (type, if type = .idr then _ else _) : Option (NaluType × List UInt8)) = _
    rw [hsame]
    rfl

/-- A packet without a key frame makes no callback for one. -/
theorem noIdr_of_not_keyFrame {p : RTMPPacket} (h : ¬ KeyFrame p) (o n : Nat) :
    Access.nalu .idr o n ∉ VideoCapture.handlePacket p := by
  intro hmem
  by_cases hvideo : p.packetType = packetTypeVideo
  · rw [handlePacket_video hvideo, List.mem_cons] at hmem
    rcases hmem with hread | hmem
    · cases hread
    · split at hmem
      · rcases spsPps_mem hmem with ⟨i, hi⟩ | ⟨type, o', n', htype, hcall⟩
        · cases hi
        · cases hcall
          rcases htype with htype | htype
          · cases htype
          · cases htype
      · next hsecond =>
        simp only [frameLengthReads, List.cons_append, List.nil_append, List.mem_cons,
          List.not_mem_nil, or_false, reduceCtorEq, false_or, Access.nalu.injEq] at hmem
        exact h ⟨hvideo, hsecond, hmem.1.symm⟩
  · rw [VideoCapture.handlePacket, if_neg hvideo] at hmem
    split at hmem
    · rw [List.mem_cons] at hmem
      rcases hmem with hread | hmem
      · cases hread
      · split at hmem
        · simp [VideoCapture.handleAudioDecodeInfoPacket, VideoCapture.handleAudioPacket] at hmem
        · simp [VideoCapture.handleAudioDataPacket, VideoCapture.handleAudioPacket] at hmem
    · cases hmem

/-- Decrypting a slice takes its encryption back. -/
theorem decrypted_slice {encryption : List UInt8} (hkey : encryption ≠ []) {m after : Mem}
    {offset len : Nat} (h : Crypto.Encrypts encryption m offset len after) :
    decrypted encryption (slice after offset len) = slice m offset len := by
  obtain ⟨again, hagain⟩ := Crypto.crypt_ends hkey after offset len
  rw [← slice_decrypted hkey hagain, Crypto.crypt_undoes h hagain]

/-- The decoder is fed what the packet had in it before a key frame was encrypted. -/
theorem units_sealed {encryption : List UInt8} {p p' : RTMPPacket} (h : Sealed encryption p p') :
    (callbacks p'.body (VideoCapture.handlePacket p')).filterMap (Callback.unit encryption) =
      VideoCapture.nalus p := by
  cases h with
  | plain h => exact units_noIdr (h.symm.imp id noIdr_of_not_keyFrame)
  | @keyFrame after hframe hkey hcrypt =>
    obtain ⟨hvideo, hsecond, hidr⟩ := hframe
    have houtside (i : Nat) (hi : i < 9) : after i = p.body i :=
      Crypto.crypt_outside hcrypt (.inl hi)
    have hlen : frameLength after = frameLength p.body := by
      simp only [frameLength, houtside 5 (by decide), houtside 6 (by decide),
        houtside 7 (by decide), houtside 8 (by decide)]
    have htype : frameType after = .idr := by
      rw [frameType, houtside 0 (by decide)]
      exact hidr
    have hnalus : VideoCapture.nalus p = [(.idr, slice p.body 9 (frameLength p.body))] := by
      rw [VideoCapture.nalus, handlePacket_video hvideo, if_neg hsecond, hidr]
      rfl
    rw [hnalus, handlePacket_video (p := { p with body := after }) hvideo]
    dsimp only
    rw [if_neg (by rw [houtside 1 (by decide)]; exact hsecond), htype, hlen, callbacks_cons_read,
      callbacks_frame]
    simp only [List.filterMap_cons, List.filterMap_nil, Callback.unit, if_true,
      decrypted_slice hkey hcrypt]

/-! ## The stream of a session -/

/-- What the decoder is fed over walks over bodies, one after the other. -/
inductive StreamFed (encryption : List UInt8) : List (Mem × List Access) → List UInt8 → Prop
  | nil : StreamFed encryption [] []
  | walk {m m' : Mem} {as : List Access} {walks : List (Mem × List Access)}
      {bytes stream : List UInt8} :
      Fed encryption m as bytes m' → StreamFed encryption walks stream →
      StreamFed encryption ((m, as) :: walks) (bytes ++ stream)

/-- The units in walks over bodies. -/
def walkUnits (encryption : List UInt8) (walks : List (Mem × List Access)) :
    List (NaluType × List UInt8) :=
  walks.flatMap fun walk => (callbacks walk.1 walk.2).filterMap (Callback.unit encryption)

theorem streamFed_iff {encryption : List UInt8} {walks : List (Mem × List Access)}
    (hlast : ∀ walk ∈ walks, IdrLast walk.2) {stream : List UInt8} :
    StreamFed encryption walks stream ↔ stream = annexB (walkUnits encryption walks) := by
  induction walks generalizing stream with
  | nil =>
    constructor
    · rintro ⟨⟩
      rfl
    · rintro rfl
      exact .nil
  | cons walk walks ih =>
    obtain ⟨hfirst, hrest⟩ := List.forall_mem_cons.mp hlast
    rw [walkUnits, List.flatMap_cons, annexB_append]
    constructor
    · rintro (_ | ⟨hfed, hmore⟩)
      rw [(fed_iff hfirst).mp ⟨_, hfed⟩, (ih hrest).mp hmore]
      rfl
    · rintro rfl
      obtain ⟨m', hfed⟩ : ∃ m', Fed encryption walk.1 walk.2 _ m' := (fed_iff hfirst).mpr rfl
      exact .walk hfed ((ih hrest).mpr rfl)

theorem existsUnique_streamFed {encryption : List UInt8} {walks : List (Mem × List Access)}
    (hlast : ∀ walk ∈ walks, IdrLast walk.2) : ∃! stream, StreamFed encryption walks stream :=
  ⟨_, (streamFed_iff hlast).mpr rfl, fun _ hstream => (streamFed_iff hlast).mp hstream⟩

/-- The walk of the pull thread over a packet. -/
def RTMPPacket.walk (p : RTMPPacket) : Mem × List Access := (p.body, VideoCapture.handlePacket p)

theorem idrLast_packets (ps : List RTMPPacket) :
    ∀ walk ∈ ps.map RTMPPacket.walk, IdrLast walk.2 := by
  intro walk hwalk
  obtain ⟨p, -, rfl⟩ := List.mem_map.mp hwalk
  exact idrLast_handlePacket p

/-- What reaches the player of the packets sent: every video packet, its key frame
encrypted, in their order; audio packets come in between. -/
inductive Arrived (encryption : List UInt8) : List RTMPPacket → List RTMPPacket → Prop
  | nil : Arrived encryption [] []
  | video {p p' : RTMPPacket} {ps ps' : List RTMPPacket} : Sealed encryption p p' →
      Arrived encryption ps ps' → Arrived encryption (p :: ps) (p' :: ps')
  | other {p' : RTMPPacket} {ps ps' : List RTMPPacket} : p'.packetType ≠ packetTypeVideo →
      Arrived encryption ps ps' → Arrived encryption ps (p' :: ps')

theorem exists_arrived (encryption : List UInt8) (sent : List RTMPPacket) :
    ∃ received, Arrived encryption sent received := by
  induction sent with
  | nil => exact ⟨[], .nil⟩
  | cons p sent ih =>
    obtain ⟨received, hreceived⟩ := ih
    obtain ⟨p', hp'⟩ := exists_sealed encryption p
    exact ⟨p' :: received, .video hp' hreceived⟩

/-- The units that arrive are the slices of the packets sent. -/
theorem Arrived.units {encryption : List UInt8} {sent received : List RTMPPacket}
    (h : Arrived encryption sent received) :
    walkUnits encryption (received.map RTMPPacket.walk) = sent.flatMap VideoCapture.nalus := by
  induction h with
  | nil => rfl
  | video hsealed _ ih =>
    rw [List.map_cons, walkUnits, List.flatMap_cons, List.flatMap_cons, ← ih]
    exact congrArg (· ++ _) (units_sealed hsealed)
  | @other p' ps ps' hother _ ih =>
    have hkey : ¬ KeyFrame p' := fun h => hother h.1
    have hnone : VideoCapture.nalus p' = [] := by
      rw [VideoCapture.nalus, VideoCapture.handlePacket, if_neg hother]
      split
      · split
        · rfl
        · rfl
      · rfl
    rw [List.map_cons, walkUnits, List.flatMap_cons, ← ih]
    have hunits := units_sealed (.plain (.inl hkey) : Sealed encryption p' p')
    rw [hnone] at hunits
    exact congrArg (· ++ _) hunits

/-- The encoder calls of a session, each with what its stack holds: the packets sent. -/
def sessionPackets (alloc : Nat → Bool)
    (calls : List (VideoChannel.Locals × List VideoChannel.X264Nal)) : Option (List RTMPPacket) :=
  (calls.mapM fun c => VideoChannel.encodeData alloc c.1 c.2).map List.flatten

/-- The receiver gets every payload back, over any number of encoder calls. -/
theorem sessionPackets_nalus {alloc : Nat → Bool} (halloc : AllocSucceeds alloc)
    {calls : List (VideoChannel.Locals × List VideoChannel.X264Nal)}
    (hcalls : ∀ c ∈ calls, EncoderOutput 2147483639 c.2) :
    ∃ packets, sessionPackets alloc calls = some packets ∧
      packets.flatMap VideoCapture.nalus =
        (calls.flatMap Prod.snd).map fun nal =>
          (naluTag nal.iType, stripStartCode nal.payload) := by
  induction calls with
  | nil => exact ⟨[], rfl, rfl⟩
  | cons c calls ih =>
    obtain ⟨hfirst, hrest⟩ := List.forall_mem_cons.mp hcalls
    obtain ⟨packets, hpackets, hnalus⟩ := videoRoundTrip halloc hfirst c.1
    obtain ⟨more, hmore, hnalus'⟩ := ih hrest
    obtain ⟨lists, hlists, rfl⟩ := Option.map_eq_some_iff.mp hmore
    refine ⟨packets ++ lists.flatten, ?_, ?_⟩
    · rw [sessionPackets, List.mapM_cons, hpackets, hlists]
      rfl
    · rw [List.flatMap_append, hnalus, hnalus', List.flatMap_cons, List.map_append]

theorem EncoderOutput.mono {limit limit' : Nat} (hle : limit ≤ limit')
    {nals : List VideoChannel.X264Nal} (h : EncoderOutput limit nals) :
    EncoderOutput limit' nals := by
  induction h with
  | nil => exact .nil
  | frame hsps hpps hcode hunit hlen _ ih =>
    exact .frame hsps hpps hcode hunit (Nat.lt_of_lt_of_le hlen hle) ih
  | sets hs hp hsunit hpunit hmin hspsLen hppsLen _ ih =>
    exact .sets hs hp hsunit hpunit hmin hspsLen hppsLen ih

theorem annexB_units {units : List (NaluType × List UInt8)}
    (h : ∀ unit ∈ units, AnnexB.Plain unit.2) :
    AnnexB.units (annexB units) = units.map Prod.snd := by
  have hcode : ∀ u ∈ units.map fun unit => (naluHeader unit.1, unit.2), AnnexB.Code u.1 := by
    intro u hu
    obtain ⟨unit, -, rfl⟩ := List.mem_map.mp hu
    show AnnexB.Code (naluHeader unit.1)
    unfold naluHeader
    split
    · exact .inl rfl
    · exact .inr rfl
  have hplain : ∀ u ∈ units.map fun unit => (naluHeader unit.1, unit.2), AnnexB.Plain u.2 := by
    intro u hu
    obtain ⟨unit, hunit, rfl⟩ := List.mem_map.mp hu
    exact h unit hunit
  have hunits := AnnexB.units_flatMap hcode hplain
  rw [List.flatMap_map, List.map_map] at hunits
  exact hunits

/-- Over any number of encoder calls whose slices fit the decoder's input buffer, with any
key on both sides and any audio in between, the decoder is fed one stream, and in it are
the units of the encoder, in their order. -/
theorem units_of_session {alloc : Nat → Bool} (halloc : AllocSucceeds alloc)
    (encryption : List UInt8)
    {calls : List (VideoChannel.Locals × List VideoChannel.X264Nal)}
    (hcalls : ∀ c ∈ calls, EncoderOutput (inputBufferSize + 1) c.2)
    (hplain : ∀ c ∈ calls, ∀ nal ∈ c.2, AnnexB.Plain (stripStartCode nal.payload)) :
    ∃ packets, sessionPackets alloc calls = some packets ∧
      (∃ received, Arrived encryption packets received) ∧
      ∀ received, Arrived encryption packets received →
        (∃! stream, StreamFed encryption (received.map RTMPPacket.walk) stream) ∧
        ∀ stream, StreamFed encryption (received.map RTMPPacket.walk) stream →
          AnnexB.units stream =
            (calls.flatMap Prod.snd).map fun nal => stripStartCode nal.payload := by
  obtain ⟨packets, hpackets, hnalus⟩ := sessionPackets_nalus halloc fun c hc =>
    (hcalls c hc).mono (show inputBufferSize + 1 ≤ 2147483639 by decide)
  refine ⟨packets, hpackets, exists_arrived encryption packets, fun received harrived => ?_⟩
  have hlast := idrLast_packets received
  refine ⟨existsUnique_streamFed hlast, fun stream hstream => ?_⟩
  rw [(streamFed_iff hlast).mp hstream, harrived.units, hnalus, annexB_units, List.map_map]
  · rfl
  · intro unit hunit
    obtain ⟨nal, hnal, rfl⟩ := List.mem_map.mp hunit
    obtain ⟨c, hc, hmem⟩ := List.mem_flatMap.mp hnal
    exact hplain c hc nal hmem

/-- Two key frames, the second from a stack that held something else. -/
theorem units_of_session_keyFrames :
    ∃ packets, sessionPackets (fun _ => true)
        [(⟨0, fun _ => 0, 0, fun _ => 0⟩, keyFrameNals),
          (⟨7, fun _ => 0xCC, 9, fun _ => 0xCC⟩, keyFrameNals)] = some packets ∧
      (∃ received, Arrived [0x10, 0x20] packets received) ∧
      ∀ received, Arrived [0x10, 0x20] packets received →
        (∃! stream, StreamFed [0x10, 0x20] (received.map RTMPPacket.walk) stream) ∧
        ∀ stream, StreamFed [0x10, 0x20] (received.map RTMPPacket.walk) stream →
          AnnexB.units stream = [[0x67, 0x42, 0x00, 0x1E], [0x68, 0xCE], [0x65, 0x88],
            [0x67, 0x42, 0x00, 0x1E], [0x68, 0xCE], [0x65, 0x88]] := by
  have hout : EncoderOutput (inputBufferSize + 1) keyFrameNals :=
    .sets rfl rfl rfl rfl (by decide) (by decide) (by decide)
      (.frame (by decide) (by decide) (.inl rfl) rfl (by decide) .nil)
  have hplain : ∀ nal ∈ keyFrameNals, AnnexB.Plain (stripStartCode nal.payload) := by decide
  exact units_of_session (fun _ _ => rfl) [0x10, 0x20]
    (List.forall_mem_cons.mpr ⟨hout, List.forall_mem_singleton.mpr hout⟩)
    (List.forall_mem_cons.mpr ⟨hplain, List.forall_mem_singleton.mpr hplain⟩)

end MiniSurveillance
