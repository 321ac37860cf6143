import MiniSurveillance.Base.Bytes

/-!
# Types shared by the live and the recorded stream

The enumerations of `types.h`, the RTMP packet, and the record of what a body
handler does: the bytes it reads by index and the slices it hands to the NALU
and audio callbacks. Both the live parser (`VideoCapture`) and the recording
parser (`FlvPlayer`) are modelled as functions from memory to such a record.
-/

namespace MiniSurveillance
open Bytes

/-- `NALU_TYPE`. -/
inductive NaluType
  | sps
  | pps
  | idr
  | other
deriving DecidableEq, Repr

/-- `AUDIO_TYPE`. -/
inductive AudioType
  | info
  | data
deriving DecidableEq, Repr

/-- `AUDIO_CHANNEL_TYPE`. -/
inductive AudioChannelType
  | mono
  | stereo
deriving DecidableEq, Repr

/-- `RTMP_PACKET_TYPE_AUDIO`, also the FLV tag type. -/
def packetTypeAudio : Nat := 0x08
/-- `RTMP_PACKET_TYPE_VIDEO`, also the FLV tag type. -/
def packetTypeVideo : Nat := 0x09

/-- `RTMP_PACKET_SIZE_LARGE` and `RTMP_PACKET_SIZE_MEDIUM`. -/
def packetSizeLarge : Nat := 0
def packetSizeMedium : Nat := 1

/-- `RTMPPacket`, with the fields this program sets or reads. `body` is the
memory behind `m_body`; only its first `nBodySize` bytes belong to the packet. -/
structure RTMPPacket where
  headerType : Nat
  packetType : Nat
  hasAbsTimestamp : Bool
  nChannel : Nat
  nBodySize : UInt32
  body : Mem

/-- The bytes of the body. -/
def RTMPPacket.bytes (p : RTMPPacket) : List UInt8 := slice p.body 0 p.nBodySize.toNat

/-- `FFmpeg_Decoder::INPUT_BUFFER_SIZE`, the room `receiveData` copies into. -/
def inputBufferSize : Nat := 1920 * 1080 * 2

/-- One thing a body handler does: read the byte at an index, or hand the slice
at an offset to a callback. -/
inductive Access
  | read (index : Nat)
  | nalu (type : NaluType) (offset len : Nat)
  | audio (type : AudioType) (channel : AudioChannelType) (offset len : Nat)
deriving DecidableEq, Repr

namespace Access

/-- What the NALU callback receives. -/
def naluCall (m : Mem) : Access → Option (NaluType × List UInt8)
  | .nalu type offset len => some (type, slice m offset len)
  | _ => none

/-- What the audio callback receives. -/
def audioCall (m : Mem) : Access → Option (AudioType × AudioChannelType × List UInt8)
  | .audio type channel offset len => some (type, channel, slice m offset len)
  | _ => none

/-- A slice handed to a callback lies inside the first `size` bytes. -/
def SliceWithin (size : Nat) : Access → Prop
  | .read _ => True
  | .nalu _ offset len => offset + len ≤ size
  | .audio _ _ offset len => offset + len ≤ size

/-- A slice handed to a callback fits the decoder's input buffer. -/
def FitsDecoder : Access → Prop
  | .read _ => True
  | .nalu _ _ len => len ≤ inputBufferSize
  | .audio _ _ _ len => len ≤ inputBufferSize

/-- A byte read by index lies inside the first `size` bytes. -/
def ReadWithin (size : Nat) : Access → Prop
  | .read index => index < size
  | _ => True

/-- Nothing outside the first `size` bytes is read or handed on, and every slice
handed on fits the decoder. -/
def Within (size : Nat) (a : Access) : Prop :=
  a.ReadWithin size ∧ a.SliceWithin size ∧ a.FitsDecoder

@[simp] theorem within_read {size i : Nat} : (Access.read i).Within size ↔ i < size := by
  simp [Within, ReadWithin, SliceWithin, FitsDecoder]

@[simp] theorem within_nalu {size o n : Nat} {t : NaluType} :
    (Access.nalu t o n).Within size ↔ o + n ≤ size ∧ n ≤ inputBufferSize := by
  simp [Within, ReadWithin, SliceWithin, FitsDecoder]

@[simp] theorem within_audio {size o n : Nat} {t : AudioType} {c : AudioChannelType} :
    (Access.audio t c o n).Within size ↔ o + n ≤ size ∧ n ≤ inputBufferSize := by
  simp [Within, ReadWithin, SliceWithin, FitsDecoder]

end Access

end MiniSurveillance
