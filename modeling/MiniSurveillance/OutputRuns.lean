import MiniSurveillance.RecordCtrl

/-!
# Several sessions, several formats

What `VideoCtrl` and `RecordCtrl` set up for the first picture and for an audio information
is used for all that comes after it. `VideoCtrl` drops the frame in `stop` and takes every
audio information; `RecordCtrl` never drops anything.

* `headers_announce_iff`: the header in front of an audio frame is that of the configuration.
* `headers_current_iff`: along a run it is that of the session's last audio information.
* `copies_suit_iff`: along a run each picture is copied into a frame that suits it.
-/

namespace MiniSurveillance
open Runs

/-- The second picture has the size of the first and no more bytes. -/
def DecodedFrame.Covers (first d : DecodedFrame) : Prop :=
  d.len ≤ first.len ∧ first.width = d.width ∧ first.height = d.height

/-! ## Audio headers -/

namespace VideoOutput

variable {es : List Event} {s : VideoOutput} {isAutoLocalRecord : Bool} {adtsHeader : AdtsHeader}

/-- Packets of audio data, one after the other. -/
def audioPackets (lens : List UInt32) (s : VideoOutput) : VideoOutput :=
  lens.foldl (fun s len => s.audioData len) s

/-- A header that is fed is made from the session's last audio information. -/
def HeaderCurrent (es : List Event) (s : VideoOutput) (e : Event) : Prop :=
  ∀ len h, e = .audioData len → s.fedHeader len = some h →
    ∃ data, latestInfo es = some data ∧ h = (AdtsHeader.ofInfo data).setLength len

/-- Audio data that is played comes behind an audio information of the session. -/
def InfoBefore (es : List Event) (s : VideoOutput) (e : Event) : Prop :=
  ∀ len, e = .audioData len → s.ctrl.isPlayingAudio = true → (latestInfo es).isSome

/-- A picture is copied into a frame that suits it. -/
def CopySuits (_ : List Event) (s : VideoOutput) (e : Event) : Prop :=
  ∀ d mapped q, e = .frame d mapped → s.copyTarget d mapped = some q → q.Suits d

/-- A picture to be copied is as the first one since the last `stop`. -/
def SizeKept (es : List Event) (_ : VideoOutput) (e : Event) : Prop :=
  ∀ d first, e = .frame d true → firstPicture es = some first → first.Covers d

/-- Audio data does not touch the switch, and leaves of the header what a length leaves. -/
theorem audioPackets_same (lens : List UInt32) (s : VideoOutput) :
    (s.audioPackets lens).ctrl = s.ctrl ∧
    ∀ len, (s.audioPackets lens).adtsHeader.setLength len =
      s.adtsHeader.setLength len := by
  induction lens generalizing s with
  | nil => exact ⟨rfl, fun _ => rfl⟩
  | cons n lens ih =>
    obtain ⟨hctrl, hheader⟩ := ih (s.audioData n)
    have hone : (s.audioData n).ctrl = s.ctrl ∧
        ∀ len, (s.audioData n).adtsHeader.setLength len = s.adtsHeader.setLength len := by
      unfold audioData
      split
      · exact ⟨rfl, fun len => AdtsHeader.setLength_setLength ..⟩
      · exact ⟨rfl, fun _ => rfl⟩
    exact ⟨hctrl.trans hone.1, fun len => (hheader len).trans (hone.2 len)⟩

/-- Behind an audio information every header is the one made from it. -/
theorem fedHeader_audioInfo (data : AudioInfo) (lens : List UInt32) (len : UInt32)
    (s : VideoOutput) : ((s.audioInfo data).audioPackets lens).fedHeader len =
      if s.ctrl.isPlayingAudio then some ((AdtsHeader.ofInfo data).setLength len) else none := by
  obtain ⟨hctrl, hheader⟩ := audioPackets_same lens (s.audioInfo data)
  rw [fedHeader, hctrl, hheader]
  rfl

theorem fedHeader_of_playing (len : UInt32) (hon : s.ctrl.isPlayingAudio = true) :
    s.fedHeader len = some (s.adtsHeader.setLength len) := if_pos hon

theorem playing_of_fedHeader {len : UInt32} {h : AdtsHeader} (hfed : s.fedHeader len = some h) :
    s.ctrl.isPlayingAudio = true := (Option.ite_none_right_eq_some.mp hfed).1

/-- Along a run a header that is fed is that of the last audio information of the session,
provided there was one. -/
theorem fedHeader_current_iff {len : UInt32} {h : AdtsHeader}
    (hrun : exec step (init isAutoLocalRecord adtsHeader) es = some s)
    (hfed : s.fedHeader len = some h) :
    (∃ data, latestInfo es = some data ∧ h = (AdtsHeader.ofInfo data).setLength len) ↔
      (latestInfo es).isSome := by
  simp only [fedHeader, Option.ite_none_right_eq_some, Option.some.injEq] at hfed
  constructor
  · rintro ⟨data, hlatest, _⟩
    rw [hlatest]
    rfl
  · intro hsome
    obtain ⟨data, hlatest⟩ := Option.isSome_iff_exists.mp hsome
    exact ⟨data, hlatest, hfed.2 ▸ (exec_brought hrun).header data hlatest len⟩

end VideoOutput

namespace RecordCtrl

variable {es : List Event} {s : RecordCtrl} {p : FlvPlayer} {isPlayAble : Bool}
  {adtsHeader : AdtsHeader}

/-- Packets of audio data, one after the other. -/
def audioPackets (lens : List UInt32) (s : RecordCtrl) : RecordCtrl :=
  lens.foldl (fun s len => s.audioData len) s

/-- A header that is fed is made from the session's last audio information. -/
def HeaderCurrent (es : List Event) (s : RecordCtrl) (e : Event) : Prop :=
  ∀ len play h, e = .audioData len play → s.fedHeader len = some h →
    ∃ data, latestInfo es = some data ∧ h = (AdtsHeader.ofInfo data).setLength len

/-- Audio data that is played comes behind an audio information of the session, and this has
the indices of the first one ever taken. -/
def InfoKept (es : List Event) (s : RecordCtrl) (e : Event) : Prop :=
  ∀ len play, e = .audioData len play → s.isPlayingAudio = true → s.audio.isSome = true →
    ∃ data first, latestInfo es = some data ∧ firstInfo es = some first ∧
      first.samplingFrequencyIndex = data.samplingFrequencyIndex ∧
      first.channelConfiguration % 8 = data.channelConfiguration % 8

/-- A picture is copied into a frame that suits it. -/
def CopySuits (_ : List Event) (s : RecordCtrl) (e : Event) : Prop :=
  ∀ d mapped q, e = .frame d mapped → s.copyTarget d mapped = some q → q.Suits d

/-- A picture to be copied is as the first one ever. -/
def SizeKept (es : List Event) (s : RecordCtrl) (e : Event) : Prop :=
  ∀ d first, e = .frame d true → s.isPlayAble = true → firstPicture es = some first →
    first.Covers d

theorem audioPackets_same (lens : List UInt32) (s : RecordCtrl) :
    (s.audioPackets lens).isPlayingAudio = s.isPlayingAudio ∧
    (s.audioPackets lens).audio = s.audio ∧
    ∀ len, (s.audioPackets lens).adtsHeader.setLength len =
      s.adtsHeader.setLength len := by
  induction lens generalizing s with
  | nil => exact ⟨rfl, rfl, fun _ => rfl⟩
  | cons n lens ih =>
    obtain ⟨hplaying, haudio, hheader⟩ := ih (s.audioData n)
    have hone : (s.audioData n).isPlayingAudio = s.isPlayingAudio ∧
        (s.audioData n).audio = s.audio ∧
        ∀ len, (s.audioData n).adtsHeader.setLength len = s.adtsHeader.setLength len := by
      unfold audioData
      split
      · exact ⟨rfl, rfl, fun _ => rfl⟩
      · exact ⟨rfl, rfl, fun len => AdtsHeader.setLength_setLength ..⟩
    exact ⟨hplaying.trans hone.1, haudio.trans hone.2.1,
      fun len => (hheader len).trans (hone.2.2 len)⟩

/-- Behind an audio information the header is the one made from it only where there was no
audio output. -/
theorem fedHeader_audioInfo (data : AudioInfo) (lens : List UInt32) (len : UInt32)
    (s : RecordCtrl) : ((s.audioInfo data).audioPackets lens).fedHeader len =
      if s.isPlayingAudio then
        some ((if s.audio.isSome then s.adtsHeader else AdtsHeader.ofInfo data).setLength len)
      else none := by
  obtain ⟨hplaying, haudio, hheader⟩ := audioPackets_same lens (s.audioInfo data)
  rw [fedHeader, hplaying, haudio, hheader]
  cases haudio : s.audio with
  | none => cases hon : s.isPlayingAudio <;> simp [audioInfo, haudio, hon]
  | some format => cases hon : s.isPlayingAudio <;> simp [audioInfo, haudio, hon]

theorem fedHeader_of_playing (len : UInt32) (hon : s.isPlayingAudio = true)
    (hsome : s.audio.isSome = true) :
    s.fedHeader len = some (s.adtsHeader.setLength len) := by
  rw [fedHeader, hon, ← Option.not_isSome, hsome]
  rfl

theorem playing_of_fedHeader {len : UInt32} {h : AdtsHeader} (hfed : s.fedHeader len = some h) :
    s.isPlayingAudio = true ∧ s.audio.isSome = true := by
  have hon := (Option.ite_none_left_eq_some.mp hfed).1
  simpa [Option.isSome_iff_ne_none] using hon

/-- Along a run a header that is fed is that of the last audio information of the session,
provided there was one that fills the header like the first one ever. -/
theorem fedHeader_current_iff {len : UInt32} {h : AdtsHeader}
    (hrun : exec step (init p isPlayAble adtsHeader) es = some s)
    (hfed : s.fedHeader len = some h) :
    (∃ data, latestInfo es = some data ∧ h = (AdtsHeader.ofInfo data).setLength len) ↔
      ∃ data first, latestInfo es = some data ∧ firstInfo es = some first ∧
        first.samplingFrequencyIndex = data.samplingFrequencyIndex ∧
        first.channelConfiguration % 8 = data.channelConfiguration % 8 := by
  have hbrought := exec_brought hrun
  have haudio := hbrought.audio
  simp only [fedHeader, Option.ite_none_left_eq_some, Bool.or_eq_true, not_or,
    Option.isNone_iff_eq_none, Option.some.injEq] at hfed
  obtain ⟨⟨_, hsome⟩, rfl⟩ := hfed
  cases hfirst : firstInfo es with
  | none =>
    rw [hfirst] at haudio
    exact absurd haudio hsome
  | some first =>
    rw [hbrought.header first hfirst]
    constructor
    · rintro ⟨data, hlatest, hsame⟩
      exact ⟨data, first, hlatest, rfl, AdtsHeader.setLength_ofInfo_inj.mp hsame⟩
    · rintro ⟨data, _, hlatest, hinj, hsame⟩
      obtain rfl := Option.some.inj hinj
      exact ⟨data, hlatest, AdtsHeader.setLength_ofInfo_inj.mpr hsame⟩

end RecordCtrl

/-- Behind an audio information, and after any packets of audio data, the header in front of a
packet is the one of the configuration and of this packet's length. `VideoCtrl` owes that to
its channels having three bits, `RecordCtrl` also to the audio output it has. -/
theorem headers_announce_iff {data : AudioInfo} (hlc : data.audioObjectType = 2)
    (v : VideoOutput) (r : RecordCtrl) :
    ((∀ (lens : List UInt32) (len : UInt32) (h : AdtsHeader), len ≤ 8184 →
        ((v.audioInfo data).audioPackets lens).fedHeader len = some h →
        h.Announces data len) ↔
      v.ctrl.isPlayingAudio = false ∨ data.channelConfiguration < 8) ∧
    ((∀ (lens : List UInt32) (len : UInt32) (h : AdtsHeader), len ≤ 8184 →
        ((r.audioInfo data).audioPackets lens).fedHeader len = some h →
        h.Announces data len) ↔
      r.isPlayingAudio = false ∨
        if r.audio.isSome then r.adtsHeader.Describes data else data.channelConfiguration < 8) := by
  -- what is fed is one header with its length patched in, or nothing
  have hboth (playing : Bool) (g : AdtsHeader) :
      (∀ (_ : List UInt32) (len : UInt32) (h : AdtsHeader), len ≤ 8184 →
        (if playing then some (g.setLength len) else none) = some h → h.Announces data len) ↔
      playing = false ∨ g.Describes data := by
    cases playing with
    | false => simp
    | true =>
      simp only [Bool.true_eq_false, false_or, if_true, Option.some.injEq]
      constructor
      · exact fun hall => (AdtsHeader.announces_iff (by decide)).mp (hall [] 0 _ (by decide) rfl)
      · rintro hdescribes _ len h hlen rfl
        exact (AdtsHeader.announces_iff hlen).mpr hdescribes
  simp only [VideoOutput.fedHeader_audioInfo, RecordCtrl.fedHeader_audioInfo, hboth,
    AdtsHeader.ofInfo_describes_iff hlc, true_and]
  split
  · exact Iff.rfl
  · rw [AdtsHeader.ofInfo_describes_iff hlc]

/-- Two channels at 44100 Hz. -/
def stereoInfo : AudioInfo := ⟨0x12, 0x10⟩

/-- One channel at 8000 Hz. -/
def monoInfo : AudioInfo := ⟨0x15, 0x88⟩

/-- A header as the constructors leave it. -/
def noHeader : AdtsHeader := ⟨0, 0, 0, 0, 0, 0, 0⟩

/-- The sound is on in both controllers, and `RecordCtrl` has an audio output: every packet of
the same configuration is fed with a header, and the header announces it. -/
theorem headers_announce_iff_stereo :
    ∃ v r, exec VideoOutput.step (VideoOutput.init false noHeader)
        [.play "rtmp://host/live/000001" "", .playAudio] = some v ∧
      exec RecordCtrl.step (RecordCtrl.init (FlvPlayer.opened []) false noHeader)
        [.play (some []) "", .player .feedBegin, .audioInfo stereoInfo true] = some r ∧
      v.ctrl.isPlayingAudio = true ∧ r.isPlayingAudio = true ∧ r.audio.isSome = true ∧
      (∀ (lens : List UInt32) (len : UInt32) (h : AdtsHeader), len ≤ 8184 →
        ((v.audioInfo stereoInfo).audioPackets lens).fedHeader len = some h →
          h.Announces stereoInfo len) ∧
      ∀ (lens : List UInt32) (len : UInt32) (h : AdtsHeader), len ≤ 8184 →
        ((r.audioInfo stereoInfo).audioPackets lens).fedHeader len = some h →
          h.Announces stereoInfo len := by
  have hruns : ∃ v r, exec VideoOutput.step (VideoOutput.init false noHeader)
        [.play "rtmp://host/live/000001" "", .playAudio] = some v ∧
      exec RecordCtrl.step (RecordCtrl.init (FlvPlayer.opened []) false noHeader)
        [.play (some []) "", .player .feedBegin, .audioInfo stereoInfo true] = some r ∧
      v.ctrl.isPlayingAudio = true ∧ r.isPlayingAudio = true ∧ r.audio.isSome = true ∧
      r.adtsHeader.Describes stereoInfo := ⟨_, _, rfl, rfl, rfl, rfl, rfl, by decide⟩
  obtain ⟨v, r, hv, hr, hvOn, hrOn, haudio, hdescribes⟩ := hruns
  obtain ⟨hlive, hrecorded⟩ :=
    headers_announce_iff (show stereoInfo.audioObjectType = 2 by decide) v r
  refine ⟨v, r, hv, hr, hvOn, hrOn, haudio, hlive.mpr (.inr (by decide)),
    hrecorded.mpr (.inr ?_)⟩
  rw [if_pos haudio]
  exact hdescribes

/-- A recording with two channels was played; the header of one with one channel is not made. -/
theorem header_of_first_recording :
    ∃ r h, exec RecordCtrl.step (RecordCtrl.init (FlvPlayer.opened []) false noHeader)
        [.play (some []) "", .player .feedBegin, .audioInfo stereoInfo true, .stop,
          .play (some []) "", .player .feedBegin, .audioInfo monoInfo true] = some r ∧
      r.fedHeader 100 = some h ∧ ¬ h.Announces monoInfo 100 :=
  ⟨_, _, rfl, rfl, by decide⟩

/-- Along a run each header that is fed is made from the session's last audio information
exactly when there was one, and in `RecordCtrl` exactly when this has the indices of the first
one ever taken. -/
theorem headers_current_iff (isAutoLocalRecord : Bool) (header header' : AdtsHeader)
    (p : FlvPlayer) (isPlayAble : Bool) (es : List VideoOutput.Event)
    (fs : List RecordCtrl.Event) :
    (AtEvents VideoOutput.step (VideoOutput.init isAutoLocalRecord header) es
        VideoOutput.HeaderCurrent ↔
      AtEvents VideoOutput.step (VideoOutput.init isAutoLocalRecord header) es
        VideoOutput.InfoBefore) ∧
    (AtEvents RecordCtrl.step (RecordCtrl.init p isPlayAble header') fs
        RecordCtrl.HeaderCurrent ↔
      AtEvents RecordCtrl.step (RecordCtrl.init p isPlayAble header') fs RecordCtrl.InfoKept) := by
  refine ⟨atEvents_iff fun gs s e hs => ?_, atEvents_iff fun gs s e hs => ?_⟩
  · constructor
    · intro h len he hon
      have hfed := VideoOutput.fedHeader_of_playing len hon
      exact (VideoOutput.fedHeader_current_iff hs hfed).mp (h len _ he hfed)
    · intro h len g he hfed
      exact (VideoOutput.fedHeader_current_iff hs hfed).mpr
        (h len he (VideoOutput.playing_of_fedHeader hfed))
  · constructor
    · intro h len play he hon hsome
      have hfed := RecordCtrl.fedHeader_of_playing len hon hsome
      exact (RecordCtrl.fedHeader_current_iff hs hfed).mp (h len play _ he hfed)
    · intro h len play g he hfed
      obtain ⟨hon, hsome⟩ := RecordCtrl.playing_of_fedHeader hfed
      exact (RecordCtrl.fedHeader_current_iff hs hfed).mpr (h len play he hon hsome)

/-- A stream with two channels was stopped; the next one sends audio data before its audio
information. And a recording with one channel follows one with two. -/
theorem headers_left :
    ¬ AtEvents VideoOutput.step (VideoOutput.init false noHeader)
        [.play "rtmp://host/live/000001" "", .audioInfo stereoInfo, .stop,
          .play "rtmp://host/live/000002" "", .playAudio, .audioData 100]
        VideoOutput.HeaderCurrent ∧
      ¬ AtEvents RecordCtrl.step (RecordCtrl.init (FlvPlayer.opened []) false noHeader)
        [.play (some []) "", .player .feedBegin, .audioInfo stereoInfo true, .stop,
          .play (some []) "", .player .feedBegin, .audioInfo monoInfo true, .audioData 100 true]
        RecordCtrl.HeaderCurrent := by
  constructor
  · intro h
    obtain ⟨data, hlatest, _⟩ := h [.play "rtmp://host/live/000001" "", .audioInfo stereoInfo,
      .stop, .play "rtmp://host/live/000002" "", .playAudio] (.audioData 100) _ _
      (List.prefix_refl _) rfl rfl 100 _ rfl rfl
    cases hlatest
  · intro h
    obtain ⟨data, hlatest, hheader⟩ := h [.play (some []) "", .player .feedBegin,
      .audioInfo stereoInfo true, .stop, .play (some []) "", .player .feedBegin,
      .audioInfo monoInfo true] (.audioData 100 true) _ _ (List.prefix_refl _) rfl rfl 100 true _
      rfl rfl
    cases hlatest
    exact absurd hheader (by decide)

/-! ## Pictures -/

/-- A frame made for the first picture suits the next one exactly when the first covers it. -/
theorem suits_iff {first : Option DecodedFrame} {d : DecodedFrame} :
    (QVideoFrame.ofPicture (first.getD d)).Suits d ↔ ∀ g, first = some g → g.Covers d := by
  cases first with
  | none => exact iff_of_true ⟨UInt32.le_refl _, rfl, rfl⟩ nofun
  | some g =>
    constructor
    · intro hsuits f hf
      exact Option.some.inj hf ▸ hsuits
    · exact fun h => h g rfl

/-- Along a run each picture is copied into a frame that suits it exactly when it has the size
of the first one since the last `stop`, in `RecordCtrl` of the first one ever, and no more
bytes. -/
theorem copies_suit_iff (isAutoLocalRecord : Bool) (header header' : AdtsHeader)
    (p : FlvPlayer) (isPlayAble : Bool) (es : List VideoOutput.Event)
    (fs : List RecordCtrl.Event) :
    (AtEvents VideoOutput.step (VideoOutput.init isAutoLocalRecord header) es
        VideoOutput.CopySuits ↔
      AtEvents VideoOutput.step (VideoOutput.init isAutoLocalRecord header) es
        VideoOutput.SizeKept) ∧
    (AtEvents RecordCtrl.step (RecordCtrl.init p isPlayAble header') fs RecordCtrl.CopySuits ↔
      AtEvents RecordCtrl.step (RecordCtrl.init p isPlayAble header') fs RecordCtrl.SizeKept) := by
  refine ⟨atEvents_iff fun gs s e hs => ?_, atEvents_iff fun gs s e hs => ?_⟩
  · have hframe (d : DecodedFrame) :=
      VideoOutput.withFrame_frame (d := d) (VideoOutput.exec_brought hs)
    constructor
    · intro h d first he hfirst
      exact suits_iff.mp (h d true _ he (hframe d)) first hfirst
    · intro h d mapped q he hq
      simp only [VideoOutput.copyTarget, Option.ite_none_right_eq_some, hframe,
        Option.some.injEq] at hq
      obtain ⟨rfl, rfl⟩ := hq
      exact suits_iff.mpr fun first hfirst => h d first he hfirst
  · have hframe (d : DecodedFrame) :=
      RecordCtrl.withFrame_frame (d := d) (RecordCtrl.exec_brought hs)
    constructor
    · intro h d first he hable hfirst
      have hcopy : s.copyTarget d true = (s.withFrame d).frame := by
        rw [RecordCtrl.copyTarget, hable]
        rfl
      exact suits_iff.mp (h d true _ he (hcopy.trans (hframe d))) first hfirst
    · intro h d mapped q he hq
      simp only [RecordCtrl.copyTarget, Option.ite_none_right_eq_some, Bool.and_eq_true, hframe,
        Option.some.injEq] at hq
      obtain ⟨⟨hable, rfl⟩, rfl⟩ := hq
      exact suits_iff.mpr fun first hfirst => h d first he hable hfirst

/-- A picture of 640 by 360, and one of 1280 by 720. -/
def smallPicture : DecodedFrame := ⟨fun _ => 0, 345600, 640, 360, 25, .yuv420p⟩
def largePicture : DecodedFrame := ⟨fun _ => 0, 1382400, 1280, 720, 25, .yuv420p⟩

/-- A stream that changes its size, and a recording that is larger than the one before. -/
theorem picture_outgrows_frame :
    ¬ AtEvents VideoOutput.step (VideoOutput.init false noHeader)
        [.play "rtmp://host/live/000001" "", .frame smallPicture true, .frame largePicture true]
        VideoOutput.CopySuits ∧
      ¬ AtEvents RecordCtrl.step (RecordCtrl.init (FlvPlayer.opened []) false noHeader)
        [.play (some []) "", .player .feedBegin, .video true, .frame smallPicture true, .stop,
          .play (some []) "", .player .feedBegin, .video true, .frame largePicture true]
        RecordCtrl.CopySuits := by
  constructor
  · intro h
    have hsuits := h [.play "rtmp://host/live/000001" "", .frame smallPicture true]
      (.frame largePicture true) _ _ (List.prefix_refl _) rfl rfl largePicture true _ rfl rfl
    exact absurd hsuits.1 (by decide)
  · intro h
    have hsuits := h [.play (some []) "", .player .feedBegin, .video true,
      .frame smallPicture true, .stop, .play (some []) "", .player .feedBegin, .video true]
      (.frame largePicture true) _ _ (List.prefix_refl _) rfl rfl largePicture true _ rfl rfl
    exact absurd hsuits.1 (by decide)

end MiniSurveillance
