import MiniSurveillance.Types

/-!
# The bodies of audio and video packets

What a well-formed body is, said without reference to any parser: an AVC
sequence header is ten fixed bytes, a count of SPS, the SPS with 16-bit lengths,
a count of PPS and the PPS with 16-bit lengths; a frame body is five fixed bytes
and one NALU with a 32-bit length. The parsers keep the low five bits of either
count, so `SequenceHeader` relates the counts to the sets the same way.
-/

namespace MiniSurveillance
open Bytes

/-- A parameter set with its length in front. -/
def entry (set : List UInt8) : List UInt8 := bytes16 set.length ++ set

/-- The parts of an AVC sequence header body. -/
structure SequenceHeader where
  front : List UInt8
  spsCount : UInt8
  sps : List (List UInt8)
  ppsCount : UInt8
  pps : List (List UInt8)
  /-- Bytes of the packet behind the last set. -/
  rest : List UInt8
  front_length : front.length = 10
  sps_count : spsCount.toNat &&& 0x1F = sps.length
  pps_count : ppsCount.toNat &&& 0x1F = pps.length
  sps_short : ∀ set ∈ sps, set.length < 65536
  pps_short : ∀ set ∈ pps, set.length < 65536

/-- The body a sequence header lays out. -/
def SequenceHeader.bytes (h : SequenceHeader) : List UInt8 :=
  h.front ++ h.spsCount :: (h.sps.flatMap entry ++ h.ppsCount :: (h.pps.flatMap entry ++ h.rest))

/-- The parts of a frame body. -/
structure FrameBody where
  front : List UInt8
  nalu : List UInt8
  rest : List UInt8
  front_length : front.length = 5
  nalu_short : nalu.length < 4294967296

/-- The body a frame lays out. -/
def FrameBody.bytes (f : FrameBody) : List UInt8 :=
  f.front ++ (bytes32 f.nalu.length ++ (f.nalu ++ f.rest))

/-- The body of a video packet is well formed, with a frame of at most `limit`
bytes: the second byte tells a sequence header from a frame. -/
def VideoBody (limit : Nat) (bytes : List UInt8) : Prop :=
  (bytes[1]? = some 0x00 ∧ ∃ h : SequenceHeader, bytes = h.bytes) ∨
  (∃ b, bytes[1]? = some b ∧ b ≠ 0x00 ∧
    ∃ f : FrameBody, bytes = f.bytes ∧ f.nalu.length ≤ limit)

/-- The parts of `entry` sum up in length. -/
@[simp] theorem entry_length (set : List UInt8) : (entry set).length = set.length + 2 := by
  simp [entry]
  omega

end MiniSurveillance
