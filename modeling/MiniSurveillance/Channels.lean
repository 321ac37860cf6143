import MiniSurveillance.Types

/-!
# The sending side

`VideoChannel::encodeData` turns the NALs of one encoder call into RTMP packets:
an SPS is kept until its PPS comes and both go out in one packet, every other
NAL goes out by itself. `AudioChannel` wraps AAC blocks the same way.

The functions return `none` where the C++ leaves defined behaviour: a packet
size that overflows `int`, a set that does not fit its 100-byte buffer, a NAL
too short for its start code, or a failed allocation that is written to all the
same. `alloc n` says whether `RTMPPacket_Alloc` finds room for `n` bytes.
-/

namespace MiniSurveillance
open Bytes

/-- A size computed in `int`. -/
def intSize (n : Nat) : Option Nat := if n ≤ 2147483647 then some n else none

/-- `new RTMPPacket` and `RTMPPacket_Alloc` for a body of the given bytes. -/
def allocBody (alloc : Nat → Bool) (bytes : List UInt8) : Option Mem := do
  let size ← intSize bytes.length
  if alloc size then some (ofList bytes) else none

namespace VideoChannel

def nalSliceIdr : Int := 5
def nalSps : Int := 7
def nalPps : Int := 8

/-- `x264_nal_t`: the type and the Annex-B bytes. `i_payload` is their number. -/
structure X264Nal where
  iType : Int
  payload : List UInt8
deriving DecidableEq, Repr

/-- The locals of `encodeData`: two stack buffers and the lengths kept in them.
They start with whatever the stack holds. -/
structure Locals where
  spsLen : Nat
  sps : Mem
  ppsLen : Nat
  pps : Mem

/-- `uint8_t sps[100]`, `uint8_t pps[100]`. -/
def setBufferSize : Nat := 100

/-- `memcpy(buffer, p_payload + 4, i_payload - 4)`: the new length and buffer. -/
def storeSet (buffer : Mem) (nal : X264Nal) : Option (Nat × Mem) :=
  if 4 ≤ nal.payload.length ∧ nal.payload.length - 4 ≤ setBufferSize then
    some (nal.payload.length - 4, write buffer 0 (nal.payload.drop 4))
  else none

/-- The body of a sequence-header packet. -/
def spsPpsBody (sps : Mem) (spsLen : Nat) (pps : Mem) (ppsLen : Nat) : List UInt8 :=
  [0x17, 0x00, 0x00, 0x00, 0x00, 0x01, sps 1, sps 2, sps 3, 0xFF] ++
    0xE1 :: (bytes16 spsLen ++ (slice sps 0 spsLen ++
      0x01 :: (bytes16 ppsLen ++ slice pps 0 ppsLen)))

/-- The packet both senders fill in around a body. -/
def videoPacket (bytes : List UInt8) (body : Mem) : RTMPPacket where
  headerType := packetSizeMedium
  packetType := packetTypeVideo
  hasAbsTimestamp := false
  nChannel := 10
  nBodySize := UInt32.ofNat bytes.length
  body := body

def sendSpsPpsToRtmpServer (alloc : Nat → Bool) (l : Locals) : Option RTMPPacket :=
  let bytes := spsPpsBody l.sps l.spsLen l.pps l.ppsLen
  (allocBody alloc bytes).map (videoPacket bytes)

/-- How many bytes of start code `sendFrameToRtmpServer` takes off: four when the
third byte is zero, three otherwise. -/
def startCodeLength (payload : List UInt8) : Option Nat :=
  payload[2]?.map fun b => if b = 0x00 then 4 else 3

/-- The body of a frame packet. -/
def frameBytes (iType : Int) (payload : List UInt8) : List UInt8 :=
  [if iType = nalSliceIdr then 0x17 else 0x27, 0x01, 0x00, 0x00, 0x00] ++
    (bytes32 payload.length ++ payload)

def sendFrameToRtmpServer (alloc : Nat → Bool) (nal : X264Nal) : Option RTMPPacket := do
  let strip ← startCodeLength nal.payload
  if strip ≤ nal.payload.length then
    let bytes := frameBytes nal.iType (nal.payload.drop strip)
    (allocBody alloc bytes).map (videoPacket bytes)
  else none

/-- One round of the loop over the NALs: the locals and the packet sent, if any. -/
def encodeNal (alloc : Nat → Bool) (l : Locals) (nal : X264Nal) :
    Option (Locals × List RTMPPacket) := do
  if nal.iType = nalSps then
    let (len, buffer) ← storeSet l.sps nal
    some ({ l with spsLen := len, sps := buffer }, [])
  else if nal.iType = nalPps then
    let (len, buffer) ← storeSet l.pps nal
    let l := { l with ppsLen := len, pps := buffer }
    let packet ← sendSpsPpsToRtmpServer alloc l
    some (l, [packet])
  else
    let packet ← sendFrameToRtmpServer alloc nal
    some (l, [packet])

/-- The loop over the NALs of one `x264_encoder_encode` call: the packets given to
`data_pack_up`, in order. -/
def encodeData (alloc : Nat → Bool) : Locals → List X264Nal → Option (List RTMPPacket)
  | _, [] => some []
  | l, nal :: nals => do
    let (l, sent) ← encodeNal alloc l nal
    let packets ← encodeData alloc l nals
    some (sent ++ packets)

end VideoChannel

namespace AudioChannel

/-- The packet both functions fill in around a body. -/
def audioPacket (bytes : List UInt8) (body : Mem) : RTMPPacket where
  headerType := packetSizeLarge
  packetType := packetTypeAudio
  hasAbsTimestamp := false
  nChannel := 0x11
  nBodySize := UInt32.ofNat bytes.length
  body := body

/-- An audio body: the channel byte, the kind byte and the block. -/
def audioBytes (channelCfg : Int) (kind : UInt8) (block : List UInt8) : List UInt8 :=
  (if channelCfg = 1 then 0xAE else 0xAF) :: kind :: block

/-- Allocate an audio body and fill in its packet. -/
def packAudio (alloc : Nat → Bool) (channelCfg : Int) (kind : UInt8) (block : List UInt8) :
    Option RTMPPacket :=
  let bytes := audioBytes channelCfg kind block
  (allocBody alloc bytes).map (audioPacket bytes)

/-- `encodeAudioData`, given the bytes `faacEncEncode` left in the output buffer;
nothing is sent when it returned no byte. -/
def encodeAudioData (alloc : Nat → Bool) (channelCfg : Int) (block : List UInt8) :
    Option (List RTMPPacket) :=
  if 0 < block.length then (packAudio alloc channelCfg 0x01 block).map fun p => [p]
  else some []

/-- `getAudioDecodeInfo`, given the bytes of `faacEncGetDecoderSpecificInfo`. -/
def getAudioDecodeInfo (alloc : Nat → Bool) (channelCfg : Int) (info : List UInt8) :
    Option RTMPPacket :=
  packAudio alloc channelCfg 0x00 info

end AudioChannel

end MiniSurveillance
