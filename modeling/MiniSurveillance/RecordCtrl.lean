import MiniSurveillance.RecordPage
import MiniSurveillance.VideoOutput

/-!
# What the record page shows and plays

`RecordCtrl` keeps a frame, an ADTS header and an audio output as `VideoCtrl` does. Its
callbacks run on the feed thread of the player. `stop` leaves all three, and as long as there
is an audio output no audio information is taken.

* `exec_brought`: along a run the frame is that of the first picture ever, and the header
  that of the first audio information ever.
-/

namespace MiniSurveillance
open Runs Text

/-- `audio` is known by the format it was created with. -/
structure RecordCtrl where
  flv : FlvSession
  encryption : List UInt8
  isPlayAble : Bool
  isPlayingAudio : Bool
  frame : Option QVideoFrame
  adtsHeader : AdtsHeader
  audio : Option QAudioFormat

namespace RecordCtrl

/-- A controller that was just made. The constructor sets neither `is_play_able` nor the
header. -/
def init (p : FlvPlayer) (isPlayAble : Bool) (adtsHeader : AdtsHeader) : RecordCtrl where
  flv := FlvSession.init p
  encryption := []
  isPlayAble := isPlayAble
  isPlayingAudio := false
  frame := none
  adtsHeader := adtsHeader
  audio := none

/-! ## The callbacks -/

def audioInfo (data : AudioInfo) (s : RecordCtrl) : RecordCtrl :=
  if s.audio.isSome then s
  else { s with
    adtsHeader := AdtsHeader.ofInfo data
    audio := some (QAudioFormat.ofInfo data) }

def audioData (len : UInt32) (s : RecordCtrl) : RecordCtrl :=
  if !s.isPlayingAudio || s.audio.isNone then s
  else { s with adtsHeader := s.adtsHeader.setLength len }

/-- The header that goes to the decoder before a packet of audio data. -/
def fedHeader (len : UInt32) (s : RecordCtrl) : Option AdtsHeader :=
  if !s.isPlayingAudio || s.audio.isNone then none else some (s.adtsHeader.setLength len)

/-- The frame is created for the first picture. -/
def withFrame (d : DecodedFrame) (s : RecordCtrl) : RecordCtrl :=
  if s.frame.isSome then s else { s with frame := some (QVideoFrame.ofPicture d) }

/-- The frame that `len` bytes are copied into; `mapped` is what `map` returns. -/
def copyTarget (d : DecodedFrame) (mapped : Bool) (s : RecordCtrl) : Option QVideoFrame :=
  if s.isPlayAble && mapped then (s.withFrame d).frame else none

def frameCallBack (d : DecodedFrame) (mapped : Bool) (s : RecordCtrl) : RecordCtrl :=
  let s := s.withFrame d
  if s.isPlayAble && mapped then { s with flv.player := s.flv.player.sleepOnce d.fps } else s

/-! ## The calls -/

/-- `opened` is what `open` makes of the file. -/
def play (opened : Option (List UInt8)) (encryption : String) (s : RecordCtrl) : RecordCtrl :=
  { s with
    flv := RecordPage.play opened s.flv
    isPlayingAudio := true
    encryption := utf8 encryption }

def stop (s : RecordCtrl) : Option RecordCtrl := s.flv.stop.map fun flv => { s with flv := flv }

/-- A click, a callback with its `play` flag, or a step of the player's own. -/
inductive Event
  | play (opened : Option (List UInt8)) (encryption : String)
  | stop
  | player (e : FlvSession.Event)
  | video (play : Bool)
  | frame (d : DecodedFrame) (mapped : Bool)
  | audioInfo (data : AudioInfo) (play : Bool)
  | audioData (len : UInt32) (play : Bool)

/-- What the player does between `start` and `stop`. -/
def isOwn : FlvSession.Event → Bool
  | .setFilePath _ => false
  | .start => false
  | .stop => false
  | _ => true

/-- The callbacks run in the loop of the feed thread. -/
def step (s : RecordCtrl) : Event → Option RecordCtrl
  | .play opened encryption => some (s.play opened encryption)
  | .stop => s.stop
  | .player e =>
    if isOwn e then (FlvSession.step s.flv e).map fun flv => { s with flv := flv } else none
  | .video play => if s.flv.feed = .looping then some { s with isPlayAble := play } else none
  | .frame d mapped => if s.flv.feed = .looping then some (s.frameCallBack d mapped) else none
  | .audioInfo data play =>
    if s.flv.feed = .looping then some ({ s with isPlayAble := play }.audioInfo data) else none
  | .audioData len play =>
    if s.flv.feed = .looping then some ({ s with isPlayAble := play }.audioData len) else none

/-! ## What the sessions have brought -/

/-- The first picture ever. -/
def firstPicture (es : List Event) : Option DecodedFrame :=
  es.foldl (fun first e => match e with
    | .frame d _ => some (first.getD d)
    | _ => first) none

/-- The first audio information ever. -/
def firstInfo (es : List Event) : Option AudioInfo :=
  es.foldl (fun first e => match e with
    | .audioInfo data _ => some (first.getD data)
    | _ => first) none

/-- The last audio information since the last `stop`. -/
def latestInfo (es : List Event) : Option AudioInfo :=
  es.foldl (fun latest e => match e with
    | .stop => none
    | .audioInfo data _ => some data
    | _ => latest) none

theorem firstPicture_snoc (es : List Event) (e : Event) :
    firstPicture (es ++ [e]) = match e with
      | .frame d _ => some ((firstPicture es).getD d)
      | _ => firstPicture es := List.foldl_append ..

theorem firstInfo_snoc (es : List Event) (e : Event) :
    firstInfo (es ++ [e]) = match e with
      | .audioInfo data _ => some ((firstInfo es).getD data)
      | _ => firstInfo es := List.foldl_append ..

theorem latestInfo_snoc (es : List Event) (e : Event) :
    latestInfo (es ++ [e]) = match e with
      | .stop => none
      | .audioInfo data _ => some data
      | _ => latestInfo es := List.foldl_append ..

/-- What the frame, the audio output and the header have to do with the events so far. -/
structure Brought (es : List Event) (s : RecordCtrl) : Prop where
  frame : s.frame = (firstPicture es).map QVideoFrame.ofPicture
  audio : s.audio = (firstInfo es).map QAudioFormat.ofInfo
  header : ∀ data, firstInfo es = some data →
    ∀ len, s.adtsHeader.setLength len = (AdtsHeader.ofInfo data).setLength len

variable {es : List Event} {s t : RecordCtrl}

/-- A step that brings nothing and leaves the three as they are. -/
theorem Brought.of_same {e : Event} (h : Brought es s)
    (hpicture : firstPicture (es ++ [e]) = firstPicture es)
    (hinfo : firstInfo (es ++ [e]) = firstInfo es) (hframe : t.frame = s.frame)
    (haudio : t.audio = s.audio) (hheader : t.adtsHeader = s.adtsHeader) :
    Brought (es ++ [e]) t where
  frame := by rw [hframe, hpicture, h.frame]
  audio := by rw [haudio, hinfo, h.audio]
  header := by rw [hheader, hinfo]; exact h.header

/-- The frame is the one for the first picture, whether that is this one or not. -/
theorem withFrame_frame {d : DecodedFrame} (h : Brought es s) :
    (s.withFrame d).frame = some (QVideoFrame.ofPicture ((firstPicture es).getD d)) := by
  have hcreated : (s.withFrame d).frame = some (s.frame.getD (QVideoFrame.ofPicture d)) := by
    unfold withFrame
    split
    · next hframe =>
      obtain ⟨frame, hframe⟩ := Option.isSome_iff_exists.mp hframe
      rw [hframe]
      rfl
    · next hframe =>
      rw [Option.not_isSome_iff_eq_none.mp hframe]
      rfl
  rw [hcreated, h.frame, Option.getD_map]

/-- The callback changes the frame, and the player behind a copy. -/
theorem frameCallBack_same (d : DecodedFrame) (mapped : Bool) (s : RecordCtrl) :
    (s.frameCallBack d mapped).frame = (s.withFrame d).frame ∧
    (s.frameCallBack d mapped).audio = s.audio ∧
    (s.frameCallBack d mapped).adtsHeader = s.adtsHeader := by
  have hsame : (s.withFrame d).audio = s.audio ∧ (s.withFrame d).adtsHeader = s.adtsHeader := by
    unfold withFrame
    split
    · exact ⟨rfl, rfl⟩
    · exact ⟨rfl, rfl⟩
  unfold frameCallBack
  dsimp only
  split
  · exact ⟨rfl, hsame⟩
  · exact ⟨rfl, hsame⟩

theorem frame_brought {d : DecodedFrame} {mapped : Bool} (h : Brought es s) :
    Brought (es ++ [.frame d mapped]) (s.frameCallBack d mapped) := by
  have hinfo : firstInfo (es ++ [.frame d mapped]) = firstInfo es := firstInfo_snoc ..
  have hpicture : firstPicture (es ++ [.frame d mapped]) = some ((firstPicture es).getD d) :=
    firstPicture_snoc ..
  obtain ⟨hframe, haudio, hheader⟩ := frameCallBack_same d mapped s
  exact {
    frame := by rw [hframe, withFrame_frame h, hpicture]; rfl
    audio := by rw [haudio, hinfo, h.audio]
    header := by rw [hheader, hinfo]; exact h.header }

theorem audioInfo_brought {data : AudioInfo} {play : Bool} (h : Brought es s) :
    Brought (es ++ [.audioInfo data play]) ({ s with isPlayAble := play }.audioInfo data) := by
  have hpicture : firstPicture (es ++ [.audioInfo data play]) = firstPicture es :=
    firstPicture_snoc ..
  have hinfo : firstInfo (es ++ [.audioInfo data play]) = some ((firstInfo es).getD data) :=
    firstInfo_snoc ..
  have haudio := h.audio
  unfold audioInfo
  cases hfirst : firstInfo es with
  | none =>
    rw [hfirst] at haudio hinfo
    rw [if_neg (by rw [haudio]; exact nofun)]
    exact {
      frame := by rw [hpicture]; exact h.frame
      audio := by rw [hinfo]; rfl
      header := fun data' hdata n => by
        rw [hinfo] at hdata
        obtain rfl := Option.some.inj hdata
        rfl }
  | some first =>
    rw [if_pos (by rw [haudio, hfirst]; rfl)]
    exact h.of_same hpicture (by rw [hinfo, hfirst]; rfl) rfl rfl rfl

theorem audioData_brought {len : UInt32} {play : Bool} (h : Brought es s) :
    Brought (es ++ [.audioData len play]) ({ s with isPlayAble := play }.audioData len) := by
  have hpicture : firstPicture (es ++ [.audioData len play]) = firstPicture es :=
    firstPicture_snoc ..
  have hinfo : firstInfo (es ++ [.audioData len play]) = firstInfo es := firstInfo_snoc ..
  unfold audioData
  split
  · exact h.of_same hpicture hinfo rfl rfl rfl
  · exact {
      frame := by rw [hpicture]; exact h.frame
      audio := by rw [hinfo]; exact h.audio
      header := fun data hdata n => by
        rw [hinfo] at hdata
        rw [AdtsHeader.setLength_setLength, h.header data hdata] }

theorem step_brought {e : Event} (h : Brought es s) (ht : step s e = some t) :
    Brought (es ++ [e]) t := by
  cases e with
  | play opened encryption =>
    obtain rfl := Option.some.inj ht
    exact h.of_same (firstPicture_snoc ..) (firstInfo_snoc ..) rfl rfl rfl
  | stop =>
    simp only [step, stop, Option.map_eq_some_iff] at ht
    obtain ⟨flv, _, rfl⟩ := ht
    exact h.of_same (firstPicture_snoc ..) (firstInfo_snoc ..) rfl rfl rfl
  | player e =>
    simp only [step, Option.ite_none_right_eq_some, Option.map_eq_some_iff] at ht
    obtain ⟨_, flv, _, rfl⟩ := ht
    exact h.of_same (firstPicture_snoc ..) (firstInfo_snoc ..) rfl rfl rfl
  | video play =>
    simp only [step, Option.ite_none_right_eq_some, Option.some.injEq] at ht
    obtain ⟨_, rfl⟩ := ht
    exact h.of_same (firstPicture_snoc ..) (firstInfo_snoc ..) rfl rfl rfl
  | frame d mapped =>
    simp only [step, Option.ite_none_right_eq_some, Option.some.injEq] at ht
    obtain ⟨_, rfl⟩ := ht
    exact frame_brought h
  | audioInfo data play =>
    simp only [step, Option.ite_none_right_eq_some, Option.some.injEq] at ht
    obtain ⟨_, rfl⟩ := ht
    exact audioInfo_brought h
  | audioData len play =>
    simp only [step, Option.ite_none_right_eq_some, Option.some.injEq] at ht
    obtain ⟨_, rfl⟩ := ht
    exact audioData_brought h

theorem exec_brought {p : FlvPlayer} {isPlayAble : Bool} {adtsHeader : AdtsHeader}
    (hrun : exec step (init p isPlayAble adtsHeader) es = some s) : Brought es s :=
  exec_invariant ⟨rfl, rfl, nofun⟩ (fun _ _ _ _ => step_brought) hrun

end RecordCtrl

end MiniSurveillance
