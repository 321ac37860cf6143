import MiniSurveillance.Adts
import MiniSurveillance.Base.Runs
import MiniSurveillance.H264Decoder
import MiniSurveillance.VideoCtrl

/-!
# What a video window shows and plays

The callbacks of `VideoCtrl` keep a frame to show pictures in, an ADTS header and an audio
output. They run on the pull thread; `play`, `stop` and the audio switch come from the GUI.
`stop` drops the frame and the audio output; the header it leaves.

* `exec_brought`: along a run the frame is that of the first picture, and the header that of
  the last audio information, since the last `stop`.
-/

namespace MiniSurveillance
open Runs Text

/-- The pixel formats of `QVideoFrame` that are used. -/
inductive QPixelFormat
  | yuv444
  | yuv422p
  | yuv420p
  | yuyv
  | uyvy
  | bgr24
  | bgr32
  | rgb24
  | rgb32
  | bgr555
  | bgr565
  | nv12
  | nv21
  | nPixelFormats
deriving DecidableEq, Repr

def convertFormat : AVPixelFormat → QPixelFormat
  | .yuv444p => .yuv444
  | .yuv422p => .yuv422p
  | .yuv420p => .yuv420p
  | .yuyv422 => .yuyv
  | .uyvy422 => .uyvy
  | .bgr24 => .bgr24
  | .bgr32 => .bgr32
  | .rgb24 => .rgb24
  | .rgb32 => .rgb32
  | .bgr555 => .bgr555
  | .bgr565 => .bgr565
  | .nv12 => .nv12
  | .nv21 => .nv21
  | .other => .nPixelFormats

/-- A `QVideoFrame`: the bytes it was allocated for, and its size. -/
structure QVideoFrame where
  bytes : UInt32
  width : UInt32
  height : UInt32
  bytesPerLine : UInt32
  format : QPixelFormat
deriving DecidableEq, Repr

/-- The frame both controllers allocate for a picture. -/
def QVideoFrame.ofPicture (d : DecodedFrame) : QVideoFrame :=
  ⟨d.len, d.width, d.height, d.width, convertFormat d.pixFmt⟩

/-- The frame holds the bytes of the picture and has its size. -/
def QVideoFrame.Suits (q : QVideoFrame) (d : DecodedFrame) : Prop :=
  d.len ≤ q.bytes ∧ q.width = d.width ∧ q.height = d.height

/-- The format of an audio output; what is always the same is left out. -/
structure QAudioFormat where
  sampleRate : Nat
  channelCount : Nat
deriving DecidableEq, Repr

/-- The format both controllers play an audio configuration with. -/
def QAudioFormat.ofInfo (data : AudioInfo) : QAudioFormat where
  sampleRate := if data.sampleIdx = 4 then 44100 else 8000
  channelCount := if data.channelsIdx = 1 then 1 else 2

/-- An `FFmpeg_Encoder` by its parameters. -/
structure FFmpegEncoder where
  width : UInt32
  height : UInt32
  fps : UInt32
  pixFmt : AVPixelFormat
deriving DecidableEq, Repr

/-- A `VideoCtrl` with what its callbacks set. The audio outputs it has created are numbered;
`live` are those that were not deleted. -/
structure VideoOutput where
  ctrl : VideoCtrl
  isAutoLocalRecord : Bool
  frame : Option QVideoFrame
  ffmpegEncoder : Option FFmpegEncoder
  adtsHeader : AdtsHeader
  audioFormat : Option QAudioFormat
  audio : Option Nat
  created : Nat
  live : List Nat

namespace VideoOutput

/-- A controller that was just made. The constructor does not set the header. -/
def init (isAutoLocalRecord : Bool) (adtsHeader : AdtsHeader) : VideoOutput where
  ctrl := {}
  isAutoLocalRecord := isAutoLocalRecord
  frame := none
  ffmpegEncoder := none
  adtsHeader := adtsHeader
  audioFormat := none
  audio := none
  created := 0
  live := []

/-! ## The audio callback -/

def audioInfo (data : AudioInfo) (s : VideoOutput) : VideoOutput :=
  { s with
    adtsHeader := AdtsHeader.ofInfo data
    audioFormat := some (QAudioFormat.ofInfo data)
    audio := some s.created
    created := s.created + 1
    live := s.created :: s.live }

def audioData (len : UInt32) (s : VideoOutput) : VideoOutput :=
  if s.ctrl.isPlayingAudio then { s with adtsHeader := s.adtsHeader.setLength len } else s

/-- The header that goes to the decoder before a packet of audio data. -/
def fedHeader (len : UInt32) (s : VideoOutput) : Option AdtsHeader :=
  if s.ctrl.isPlayingAudio then some (s.adtsHeader.setLength len) else none

/-! ## The frame callback -/

/-- The frame is created for the first picture, and with it the encoder of the local record. -/
def withFrame (d : DecodedFrame) (s : VideoOutput) : VideoOutput :=
  if s.frame.isSome then s
  else { s with
    frame := some (QVideoFrame.ofPicture d)
    ffmpegEncoder :=
      if s.isAutoLocalRecord then some ⟨d.width, d.height, d.fps, d.pixFmt⟩ else s.ffmpegEncoder }

/-- The frame that `len` bytes are copied into; `mapped` is what `map` returns. -/
def copyTarget (d : DecodedFrame) (mapped : Bool) (s : VideoOutput) : Option QVideoFrame :=
  if mapped then (s.withFrame d).frame else none

/-- Behind the copy the picture is recorded, and there has to be an encoder for it. -/
def frameCallBack (d : DecodedFrame) (s : VideoOutput) : Option VideoOutput :=
  let s := s.withFrame d
  if s.isAutoLocalRecord && s.ffmpegEncoder.isNone then none else some s

/-! ## The calls -/

def stop (s : VideoOutput) : VideoOutput :=
  if s.ctrl.isPlaying then
    { s with
      ctrl := s.ctrl.stop
      live := s.audio.elim s.live s.live.erase
      audio := none
      frame := none
      ffmpegEncoder := none }
  else s

def setAutoLocalRecord (value : String) (s : VideoOutput) : VideoOutput :=
  { s with isAutoLocalRecord := value == "1" }

inductive Event
  | play (url encryption : String)
  | stop
  | playAudio
  | stopAudio
  | setAutoLocalRecord (value : String)
  | pullThreadEnds
  | frame (d : DecodedFrame) (mapped : Bool)
  | audioInfo (data : AudioInfo)
  | audioData (len : UInt32)

/-- The callbacks run while a pull thread does. -/
def step (s : VideoOutput) : Event → Option VideoOutput
  | .play url encryption =>
    ((s.ctrl.play url encryption).mapState fun c => { s with ctrl := c }).after
  | .stop => some s.stop
  | .playAudio => some { s with ctrl := s.ctrl.playAudio }
  | .stopAudio => some { s with ctrl := s.ctrl.stopAudio }
  | .setAutoLocalRecord value => some (s.setAutoLocalRecord value)
  | .pullThreadEnds =>
    if s.ctrl.capture.pullThread = .running then
      some { s with ctrl.capture.pullThread := .ended }
    else none
  | .frame d _ => if s.ctrl.capture.pullThread = .running then s.frameCallBack d else none
  | .audioInfo data =>
    if s.ctrl.capture.pullThread = .running then some (s.audioInfo data) else none
  | .audioData len =>
    if s.ctrl.capture.pullThread = .running then some (s.audioData len) else none

/-! ## What a session has brought -/

/-- The first picture since the last `stop`. -/
def firstPicture (es : List Event) : Option DecodedFrame :=
  es.foldl (fun first e => match e with
    | .stop => none
    | .frame d _ => some (first.getD d)
    | _ => first) none

/-- The last audio information since the last `stop`. -/
def latestInfo (es : List Event) : Option AudioInfo :=
  es.foldl (fun latest e => match e with
    | .stop => none
    | .audioInfo data => some data
    | _ => latest) none

theorem firstPicture_snoc (es : List Event) (e : Event) :
    firstPicture (es ++ [e]) = match e with
      | .stop => none
      | .frame d _ => some ((firstPicture es).getD d)
      | _ => firstPicture es := List.foldl_append ..

theorem latestInfo_snoc (es : List Event) (e : Event) :
    latestInfo (es ++ [e]) = match e with
      | .stop => none
      | .audioInfo data => some data
      | _ => latestInfo es := List.foldl_append ..

/-- What the frame and the header have to do with the events so far. -/
structure Brought (es : List Event) (s : VideoOutput) : Prop where
  owns : s.ctrl.Owns
  idle : s.ctrl.isPlaying = false → s.frame = none
  frame : s.frame = (firstPicture es).map QVideoFrame.ofPicture
  header : ∀ data, latestInfo es = some data →
    ∀ len, s.adtsHeader.setLength len = (AdtsHeader.ofInfo data).setLength len

theorem brought_init (isAutoLocalRecord : Bool) (adtsHeader : AdtsHeader) :
    Brought [] (init isAutoLocalRecord adtsHeader) where
  owns := nofun
  idle _ := rfl
  frame := rfl
  header := nofun

variable {es : List Event} {s t : VideoOutput}

/-- A step that brings nothing and leaves the frame and the header as they are. -/
theorem Brought.of_same {e : Event} (h : Brought es s)
    (hfirst : firstPicture (es ++ [e]) = firstPicture es)
    (hlatest : latestInfo (es ++ [e]) = latestInfo es) (howns : t.ctrl.Owns)
    (hidle : t.ctrl.isPlaying = false → s.ctrl.isPlaying = false) (hframe : t.frame = s.frame)
    (hheader : t.adtsHeader = s.adtsHeader) : Brought (es ++ [e]) t where
  owns := howns
  idle hi := hframe.trans (h.idle (hidle hi))
  frame := by rw [hframe, hfirst, h.frame]
  header := by rw [hheader, hlatest]; exact h.header

theorem play_brought {url encryption : String} (h : Brought es s)
    (ht : step s (.play url encryption) = some t) : Brought (es ++ [.play url encryption]) t := by
  simp only [step, Outcome.after_mapState, Option.map_eq_some_iff] at ht
  obtain ⟨c, hc, rfl⟩ := ht
  refine h.of_same (firstPicture_snoc ..) (latestInfo_snoc ..)
    (VideoCtrl.play_owns h.owns url encryption c hc) (fun hidle => ?_) rfl rfl
  by_contra hplaying
  rw [VideoCtrl.play_of_playing_after (by simpa using hplaying) hc] at hidle
  exact hplaying hidle

theorem stop_brought (h : Brought es s) : Brought (es ++ [.stop]) s.stop := by
  have hlatest : latestInfo (es ++ [.stop]) = none := latestInfo_snoc es .stop
  have hfirst : firstPicture (es ++ [.stop]) = none := firstPicture_snoc es .stop
  unfold stop
  split
  · exact {
      owns := VideoCtrl.stop_owns h.owns
      idle := fun _ => rfl
      frame := by rw [hfirst]; rfl
      header := by rw [hlatest]; exact nofun }
  · next hidle =>
    exact {
      owns := h.owns
      idle := h.idle
      frame := by rw [hfirst, h.idle (by simpa using hidle)]; rfl
      header := by rw [hlatest]; exact nofun }

/-- The frame is the one for the first picture, whether that is this one or not. -/
theorem withFrame_frame {d : DecodedFrame} (h : Brought es s) :
    (s.withFrame d).frame = some (QVideoFrame.ofPicture ((firstPicture es).getD d)) := by
  have hcreated : (s.withFrame d).frame = some (s.frame.getD (QVideoFrame.ofPicture d)) := by
    unfold withFrame
    split
    · next hframe =>
      obtain ⟨frame, hframe⟩ := Option.isSome_iff_exists.mp hframe
      rw [hframe]
      rfl
    · next hframe =>
      rw [Option.not_isSome_iff_eq_none.mp hframe]
      rfl
  rw [hcreated, h.frame, Option.getD_map]

theorem withFrame_same (d : DecodedFrame) (s : VideoOutput) :
    (s.withFrame d).ctrl = s.ctrl ∧ (s.withFrame d).adtsHeader = s.adtsHeader := by
  unfold withFrame
  split
  · exact ⟨rfl, rfl⟩
  · exact ⟨rfl, rfl⟩

theorem frame_brought {d : DecodedFrame} {mapped : Bool} (h : Brought es s)
    (hrun : s.ctrl.capture.pullThread = .running) (ht : s.frameCallBack d = some t) :
    Brought (es ++ [.frame d mapped]) t := by
  have hlatest : latestInfo (es ++ [.frame d mapped]) = latestInfo es := latestInfo_snoc ..
  have hfirst : firstPicture (es ++ [.frame d mapped]) = some ((firstPicture es).getD d) :=
    firstPicture_snoc ..
  obtain ⟨hctrl, hheader⟩ := withFrame_same d s
  simp only [frameCallBack] at ht
  split at ht
  · cases ht
  · obtain rfl := Option.some.inj ht
    exact {
      owns := hctrl ▸ h.owns
      idle := fun hidle => by
        rw [hctrl, h.owns hrun] at hidle
        cases hidle
      frame := by rw [hfirst, withFrame_frame h]; rfl
      header := by rw [hlatest, hheader]; exact h.header }

theorem audioInfo_brought {data : AudioInfo} (h : Brought es s) :
    Brought (es ++ [.audioInfo data]) (s.audioInfo data) := by
  have hlatest : latestInfo (es ++ [.audioInfo data]) = some data := latestInfo_snoc ..
  have hfirst : firstPicture (es ++ [.audioInfo data]) = firstPicture es := firstPicture_snoc ..
  exact {
    owns := h.owns
    idle := h.idle
    frame := by rw [hfirst]; exact h.frame
    header := fun data' hdata n => by
      rw [hlatest] at hdata
      obtain rfl := Option.some.inj hdata
      rfl }

theorem audioData_brought {len : UInt32} (h : Brought es s) :
    Brought (es ++ [.audioData len]) (s.audioData len) := by
  have hlatest : latestInfo (es ++ [.audioData len]) = latestInfo es := latestInfo_snoc ..
  have hfirst : firstPicture (es ++ [.audioData len]) = firstPicture es := firstPicture_snoc ..
  unfold audioData
  split
  · exact {
      owns := h.owns
      idle := h.idle
      frame := by rw [hfirst]; exact h.frame
      header := fun data hdata n => by
        rw [hlatest] at hdata
        rw [AdtsHeader.setLength_setLength, h.header data hdata] }
  · exact h.of_same hfirst hlatest h.owns id rfl rfl

theorem step_brought {e : Event} (h : Brought es s) (ht : step s e = some t) :
    Brought (es ++ [e]) t := by
  cases e with
  | play url encryption => exact play_brought h ht
  | stop =>
    obtain rfl := Option.some.inj ht
    exact stop_brought h
  | playAudio =>
    obtain rfl := Option.some.inj ht
    exact h.of_same (firstPicture_snoc ..) (latestInfo_snoc ..) h.owns id rfl rfl
  | stopAudio =>
    obtain rfl := Option.some.inj ht
    exact h.of_same (firstPicture_snoc ..) (latestInfo_snoc ..) h.owns id rfl rfl
  | setAutoLocalRecord value =>
    obtain rfl := Option.some.inj ht
    exact h.of_same (firstPicture_snoc ..) (latestInfo_snoc ..) h.owns id rfl rfl
  | pullThreadEnds =>
    simp only [step, Option.ite_none_right_eq_some, Option.some.injEq] at ht
    obtain ⟨_, rfl⟩ := ht
    exact h.of_same (firstPicture_snoc ..) (latestInfo_snoc ..) nofun id rfl rfl
  | frame d mapped =>
    simp only [step, Option.ite_none_right_eq_some] at ht
    exact frame_brought h ht.1 ht.2
  | audioInfo data =>
    simp only [step, Option.ite_none_right_eq_some, Option.some.injEq] at ht
    obtain ⟨_, rfl⟩ := ht
    exact audioInfo_brought h
  | audioData len =>
    simp only [step, Option.ite_none_right_eq_some, Option.some.injEq] at ht
    obtain ⟨_, rfl⟩ := ht
    exact audioData_brought h

/-- Along a run the frame is the one for the first picture since the last `stop`, and the
header the one of the last audio information since then. -/
theorem exec_brought {isAutoLocalRecord : Bool} {adtsHeader : AdtsHeader}
    (hrun : exec step (init isAutoLocalRecord adtsHeader) es = some s) : Brought es s :=
  exec_invariant (brought_init ..) (fun _ _ _ _ => step_brought) hrun

end VideoOutput

end MiniSurveillance
