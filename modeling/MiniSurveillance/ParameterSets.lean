import MiniSurveillance.FlvPlayer
import MiniSurveillance.VideoCapture

/-!
# All the parameter sets of a stream

An AVC sequence header counts its SPS in five bits and its PPS in a whole byte. Both
parsers keep the low five bits of either count.

* `spsPps_ofFewSets`: with fewer than 32 PPS the two loops deliver every set and end
  right behind the last one.
* `spsPps_calls_length`: how many sets the loops deliver, whatever the sets are.
* `sequenceHeader_delivered_iff`: both parsers deliver all sets exactly when the PPS count
  fits five bits.
-/

namespace MiniSurveillance
open Bytes

/-- An AVC sequence header as it is laid out: behind five bytes of the tag and five of the
decoder configuration, the SPS behind a five-bit count and the PPS behind an eight-bit
count. -/
structure AvcSequenceHeader where
  front : List UInt8
  /-- Its upper three bits are reserved. -/
  spsCount : UInt8
  sps : List (List UInt8)
  pps : List (List UInt8)
  front_length : front.length = 10
  sps_count : spsCount.toNat &&& 0x1F = sps.length
  pps_count : pps.length ≤ 255
  sps_short : ∀ set ∈ sps, set.length < 65536
  pps_short : ∀ set ∈ pps, set.length < 65536

namespace AvcSequenceHeader

def ppsCount (c : AvcSequenceHeader) : UInt8 := UInt8.ofNat c.pps.length

def bytes (c : AvcSequenceHeader) : List UInt8 :=
  c.front ++ c.spsCount :: (c.sps.flatMap entry ++ c.ppsCount :: c.pps.flatMap entry)

/-- What the callback is to receive: the SPS, then the PPS. -/
def sets (c : AvcSequenceHeader) : List (NaluType × List UInt8) :=
  c.sps.map (fun set => (.sps, set)) ++ c.pps.map (fun set => (.pps, set))

theorem ppsCount_toNat (c : AvcSequenceHeader) : c.ppsCount.toNat = c.pps.length := by
  have hcount := c.pps_count
  rw [ppsCount, UInt8.toNat_ofNat']
  omega

theorem bytes_length (c : AvcSequenceHeader) :
    c.bytes.length = 12 + (c.sps.flatMap entry).length + (c.pps.flatMap entry).length := by
  simp only [bytes, List.length_append, List.length_cons, c.front_length]
  omega

/-- With a PPS count of five bits it is a sequence header as the parsers read it. -/
def few (c : AvcSequenceHeader) (h : c.pps.length ≤ 31) : SequenceHeader where
  front := c.front
  spsCount := c.spsCount
  sps := c.sps
  ppsCount := c.ppsCount
  pps := c.pps
  rest := []
  front_length := c.front_length
  sps_count := c.sps_count
  pps_count := by
    rw [c.ppsCount_toNat, Nat.and_two_pow_sub_one_eq_mod c.pps.length 5]
    exact Nat.mod_eq_of_lt (by omega)
  sps_short := c.sps_short
  pps_short := c.pps_short

theorem few_bytes (c : AvcSequenceHeader) (h : c.pps.length ≤ 31) : (c.few h).bytes = c.bytes := by
  simp [SequenceHeader.bytes, few, bytes]

end AvcSequenceHeader

/-! ## Few sets -/

/-- On a sequence header the running offset ends behind its last set. -/
theorem spsPpsEnd_spec {body : Mem} {size : Nat} {h : SequenceHeader}
    (hb : slice body 0 size = h.bytes) : spsPpsEnd body + h.rest.length = size := by
  obtain ⟨hsps, hpps, hspsAt, hppsAt⟩ := SequenceHeader.setsAt hb
  obtain ⟨hlast, _, _⟩ := parameterSets_spec .sps h.sps_short hspsAt
  obtain ⟨hlast', _, _⟩ := parameterSets_spec .pps h.pps_short hppsAt
  have hend := hppsAt.rest_length
  have hoff : 12 + (h.sps.flatMap entry).length = 11 + (h.sps.flatMap entry).length + 1 := by omega
  rw [hoff] at hlast' hend
  simp only [spsPpsEnd, hsps, h.sps_count, hlast, hpps, h.pps_count, hlast']
  exact hend

theorem spsPps_ofFewSets {body : Mem} {c : AvcSequenceHeader}
    (hb : slice body 0 c.bytes.length = c.bytes) (hfew : c.pps.length ≤ 31) :
    (spsPps body).filterMap (Access.naluCall body) = c.sets ∧ spsPpsEnd body = c.bytes.length := by
  have hb' : slice body 0 c.bytes.length = (c.few hfew).bytes := hb.trans (c.few_bytes hfew).symm
  exact ⟨(spsPps_spec hb').1, spsPpsEnd_spec hb'⟩

/-! ## Many sets -/

/-- A loop delivers one set a round. -/
theorem parameterSets_calls_length (body : Mem) (type : NaluType) (count offset : Nat) :
    ((parameterSets body type count offset).1.filterMap (Access.naluCall body)).length = count := by
  induction count generalizing offset with
  | zero => rfl
  | succ count ih => simp [parameterSets, List.filterMap_cons, Access.naluCall, ih]

/-- As many sets are delivered as the low five bits of the two counts say. -/
theorem spsPps_calls_length {body : Mem} {c : AvcSequenceHeader}
    (hb : slice body 0 c.bytes.length = c.bytes) :
    ((spsPps body).filterMap (Access.naluCall body)).length =
      c.sps.length + c.pps.length % 32 := by
  obtain ⟨_, hs⟩ := slice_eq_append (by simpa only [AvcSequenceHeader.bytes] using hb)
  rw [c.front_length] at hs
  obtain ⟨hspsCount, hs⟩ := slice_eq_cons hs
  have hspsAt : SetsAt body c.bytes.length 11 c.sps (c.ppsCount :: c.pps.flatMap entry) := by
    have hlen := c.bytes_length
    refine ⟨by omega, ?_⟩
    rw [show c.bytes.length - 11 =
      (c.sps.flatMap entry ++ c.ppsCount :: c.pps.flatMap entry).length by
        simp only [List.length_append, List.length_cons]; omega]
    exact hs
  obtain ⟨_, hs⟩ := slice_eq_append hs
  obtain ⟨hppsCount, _⟩ := slice_eq_cons hs
  obtain ⟨hlast, _, _⟩ := parameterSets_spec .sps c.sps_short hspsAt
  have hspsNum : (body 10).toNat &&& 0x1F = c.sps.length := by rw [hspsCount, c.sps_count]
  have hppsNum : (body (11 + (c.sps.flatMap entry).length)).toNat &&& 0x1F = c.pps.length % 32 := by
    rw [hppsCount, c.ppsCount_toNat]
    exact Nat.and_two_pow_sub_one_eq_mod c.pps.length 5
  simp only [spsPps, hspsNum, hlast, hppsNum, List.filterMap_cons, Access.naluCall,
    List.filterMap_append, List.length_append, parameterSets_calls_length]

/-! ## Both parsers -/

/-- `FlvPlayer::handle_sps_pps`. -/
def FlvPlayer.handleSpsPps (buf : Mem) : List Access := spsPps buf

/-- The accesses of a handler over a body hand on exactly the sets of the header, and the
handler's offset ends where the body does. -/
def Delivers (c : AvcSequenceHeader) (body : Mem) (accesses : List Access) : Prop :=
  accesses.filterMap (Access.naluCall body) = c.sets ∧ spsPpsEnd body = c.bytes.length

theorem spsPps_delivers_iff {body : Mem} {c : AvcSequenceHeader}
    (hb : slice body 0 c.bytes.length = c.bytes) :
    Delivers c body (spsPps body) ↔ c.pps.length ≤ 31 := by
  constructor
  · rintro ⟨hcalls, _⟩
    have hlen := spsPps_calls_length hb
    rw [hcalls, AvcSequenceHeader.sets, List.length_append, List.length_map, List.length_map] at hlen
    omega
  · exact spsPps_ofFewSets hb

/-- The live and the recording parser deliver the sets of a sequence header exactly when it
has at most 31 PPS. -/
theorem sequenceHeader_delivered_iff {c : AvcSequenceHeader} {p : RTMPPacket} {buf : Mem}
    (hp : p.bytes = c.bytes) (hbuf : slice buf 0 c.bytes.length = c.bytes) :
    (Delivers c p.body (VideoCapture.handleSpsPpsPacket p) ↔ c.pps.length ≤ 31) ∧
    (Delivers c buf (FlvPlayer.handleSpsPps buf) ↔ c.pps.length ≤ 31) := by
  have hbody : slice p.body 0 c.bytes.length = c.bytes := by
    rw [← hp, VideoCapture.bytes_length]
    rfl
  exact ⟨spsPps_delivers_iff hbody, spsPps_delivers_iff hbuf⟩

/-- A packet with the body of a sequence header. -/
def AvcSequenceHeader.packet (c : AvcSequenceHeader) : RTMPPacket where
  headerType := packetSizeLarge
  packetType := packetTypeVideo
  hasAbsTimestamp := false
  nChannel := 10
  nBodySize := UInt32.ofNat c.bytes.length
  body := ofList c.bytes

/-- Two SPS and two PPS. -/
def twoSets : AvcSequenceHeader where
  front := [0x17, 0x00, 0x00, 0x00, 0x00, 0x01, 0x42, 0x00, 0x1E, 0xFF]
  spsCount := 0xE2
  sps := [[0x67, 0x42, 0x00], [0x67, 0x64]]
  pps := [[0x68, 0xCE], [0x68, 0xEE, 0x3C]]
  front_length := rfl
  sps_count := rfl
  pps_count := by decide
  sps_short := by decide
  pps_short := by decide

theorem sequenceHeader_delivered_iff_twoSets :
    Delivers twoSets twoSets.packet.body (VideoCapture.handleSpsPpsPacket twoSets.packet) ∧
      Delivers twoSets (ofList twoSets.bytes) (FlvPlayer.handleSpsPps (ofList twoSets.bytes)) := by
  obtain ⟨hlive, hrecorded⟩ :=
    sequenceHeader_delivered_iff (p := twoSets.packet) rfl (slice_ofList twoSets.bytes)
  exact ⟨hlive.mpr (by decide), hrecorded.mpr (by decide)⟩

/-- One SPS and `n` empty PPS. -/
def emptySets (n : Nat) (h : n ≤ 255) : AvcSequenceHeader where
  front := [0x17, 0x00, 0x00, 0x00, 0x00, 0x01, 0x42, 0x00, 0x1E, 0xFF]
  spsCount := 0xE1
  sps := [[0x67, 0x42]]
  pps := List.replicate n []
  front_length := rfl
  sps_count := rfl
  pps_count := by simpa using h
  sps_short := by simp
  pps_short := by
    intro set hset
    rw [List.eq_of_mem_replicate hset]
    decide

/-- With 32 PPS the count is read as zero, and none of them is delivered. -/
theorem manyPps_lost :
    (VideoCapture.handleSpsPpsPacket (emptySets 32 (by decide)).packet).filterMap
        (Access.naluCall (emptySets 32 (by decide)).packet.body) = [(.sps, [0x67, 0x42])] ∧
      (FlvPlayer.handleSpsPps (ofList (emptySets 32 (by decide)).bytes)).filterMap
        (Access.naluCall (ofList (emptySets 32 (by decide)).bytes)) = [(.sps, [0x67, 0x42])] ∧
      ¬ Delivers (emptySets 32 (by decide)) (emptySets 32 (by decide)).packet.body
        (VideoCapture.handleSpsPpsPacket (emptySets 32 (by decide)).packet) ∧
      ¬ Delivers (emptySets 32 (by decide)) (ofList (emptySets 32 (by decide)).bytes)
        (FlvPlayer.handleSpsPps (ofList (emptySets 32 (by decide)).bytes)) := by
  refine ⟨by decide, by decide, fun h => ?_, fun h => ?_⟩
  · have hmany := (spsPps_delivers_iff (c := emptySets 32 (by decide)) (slice_ofList _)).mp h
    exact absurd hmany (by decide)
  · have hmany := (spsPps_delivers_iff (c := emptySets 32 (by decide)) (slice_ofList _)).mp h
    exact absurd hmany (by decide)

end MiniSurveillance
