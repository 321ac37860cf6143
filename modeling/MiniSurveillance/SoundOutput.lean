import MiniSurveillance.AACDecoder
import MiniSurveillance.AudioOutputs
import MiniSurveillance.AudioThread

/-!
# What the audio outputs play

The frames of the AAC decoder go to the audio output that is the current one. An AUDIO_INFO
makes a new output current, and `stop` leaves none; a packet reaches the decoder only while the
sound is on.

* `written_of_run`: an output is given the frames of the packets that came between its AUDIO_INFO
  and the next one or `stop` while the sound was on, and nothing else.
* `outputs_play`: when it plays the samples that were decoded.
-/

namespace MiniSurveillance
open Runs

/-! ## What a format makes of bytes -/

/-- The bytes of a sample of each channel: the samples have 32 bits. -/
def QAudioFormat.width (q : QAudioFormat) : Nat := q.channelCount * 4

/-- The output plays the rows: as many as the bytes hold, each in its place. -/
def QAudioFormat.Plays (q : QAudioFormat) (bytes : List UInt8) (rows : List (List UInt8)) : Prop :=
  bytes.length = rows.length * q.width ∧
    ∀ k row, rows[k]? = some row → (bytes.drop (k * q.width)).take q.width = row

/-- Bytes of which no row has more than its share have just their share in each row. -/
theorem length_of_flatten {n : Nat} {bs : List (List UInt8)} (hle : ∀ b ∈ bs, b.length ≤ n)
    (hsum : bs.flatten.length = bs.length * n) : ∀ b ∈ bs, b.length = n := by
  have hmost : ∀ {bs : List (List UInt8)}, (∀ b ∈ bs, b.length ≤ n) →
      bs.flatten.length ≤ bs.length * n := by
    intro bs hle
    induction bs with
    | nil => exact Nat.zero_le _
    | cons b bs ih =>
      obtain ⟨hb, hbs⟩ := List.forall_mem_cons.mp hle
      rw [List.flatten_cons, List.length_append, List.length_cons, Nat.succ_mul]
      have := ih hbs
      omega
  induction bs with
  | nil => exact nofun
  | cons b bs ih =>
    obtain ⟨hb, hbs⟩ := List.forall_mem_cons.mp hle
    have hrest := hmost hbs
    rw [List.flatten_cons, List.length_append, List.length_cons, Nat.succ_mul] at hsum
    exact List.forall_mem_cons.mpr ⟨by omega, ih hbs (by omega)⟩

/-- An output plays rows that were written one behind the other exactly when each of them has the
width of its format. -/
theorem QAudioFormat.plays_flatten_iff (q : QAudioFormat) (rows : List (List UInt8)) :
    q.Plays rows.flatten rows ↔ ∀ row ∈ rows, row.length = q.width := by
  constructor
  · rintro ⟨hsum, hplaces⟩
    refine length_of_flatten (fun row hrow => ?_) hsum
    obtain ⟨k, hk, rfl⟩ := List.mem_iff_getElem.mp hrow
    rw [← hplaces k rows[k] (List.getElem?_eq_getElem hk)]
    exact List.length_take_le ..
  · intro hwidth
    refine ⟨?_, fun k row hk => ?_⟩
    · rw [List.length_flatten, List.map_congr_left hwidth]
      simp [List.map_const']
    · have := AudioThread.flatten_piece hwidth [] hk
      rwa [List.append_nil] at this

/-! ## The controller with its outputs -/

/-- A `VideoCtrl` with the bytes that its audio outputs have been given. -/
structure SoundOutput where
  out : VideoOutput
  written : Nat → List UInt8

namespace SoundOutput

def init (isAutoLocalRecord : Bool) (adtsHeader : AdtsHeader) : SoundOutput :=
  ⟨VideoOutput.init isAutoLocalRecord adtsHeader, fun _ => []⟩

/-- A packet of audio data comes with the frames that the decoder gives for it. -/
inductive Event
  | ctrl (e : VideoOutput.Event)
  | audio (len : UInt32) (frames : List SoundFrame)

/-- The PCM callback. -/
def pcm (bytes : List UInt8) (s : SoundOutput) : SoundOutput :=
  match s.out.audio with
  | some n => { s with written := Function.update s.written n (s.written n ++ bytes) }
  | none => s

/-- A frame that does not fit ends the run. What the buffer held before is not handed on. -/
def receiveFrame (s : SoundOutput) (f : SoundFrame) : Option SoundOutput :=
  if AACDecoder.Fits f then (AACDecoder.handleOneFrame f fun _ => 0).map fun bytes => s.pcm bytes
  else none

/-- The decoder gets the packet while the sound is on. -/
def step (s : SoundOutput) : Event → Option SoundOutput
  | .ctrl e => (VideoOutput.step s.out e).map fun out => { s with out := out }
  | .audio len frames =>
    (VideoOutput.step s.out (.audioData len)).bind fun out =>
      if s.out.ctrl.isPlayingAudio then frames.foldlM receiveFrame { s with out := out }
      else some { s with out := out }

/-- The event of the controller that an event is. -/
def Event.output : Event → VideoOutput.Event
  | .ctrl e => e
  | .audio len _ => .audioData len

def Event.frames : Event → List SoundFrame
  | .ctrl _ => []
  | .audio _ frames => frames

/-- The sound behind an event, while something is playing. -/
def sound (on : Bool) : VideoOutput.Event → Bool
  | .playAudio => true
  | .stopAudio => false
  | _ => on

/-- The frames that come while the sound is on. -/
def heard : Bool → List Event → List SoundFrame
  | _, [] => []
  | on, e :: es => (if on then e.frames else []) ++ heard (sound on e.output) es

/-- The events that another output becomes current with, or none. -/
def Switches (e : Event) : Prop := e.output = .stop ∨ ∃ data, e.output = .audioInfo data

def rows (frames : List SoundFrame) : List (List UInt8) := frames.flatMap SoundFrame.rows

variable {s t : SoundOutput} {es gs hs : List Event} {n : Nat}

theorem rows_cons (f : SoundFrame) (fs : List SoundFrame) :
    rows (f :: fs) = f.rows ++ rows fs := List.flatMap_cons

theorem rows_append (fs gs : List SoundFrame) : rows (fs ++ gs) = rows fs ++ rows gs :=
  List.flatMap_append

/-! ## A step -/

theorem receiveFrame_eq {f : SoundFrame} (ht : receiveFrame s f = some t) :
    t = s.pcm f.rows.flatten := by
  rw [receiveFrame, Option.ite_none_right_eq_some] at ht
  rw [AACDecoder.handleOneFrame_of_safe ((AACDecoder.safe_iff f).mpr ht.1)] at ht
  exact (Option.some.inj ht.2).symm

/-- The frames of a packet go to the current output. -/
theorem frames_written {frames : List SoundFrame} (ht : frames.foldlM receiveFrame s = some t) :
    t.out = s.out ∧ ∀ n, t.written n =
      s.written n ++ if s.out.audio = some n then (rows frames).flatten else [] := by
  induction frames generalizing s with
  | nil =>
    obtain rfl := Option.some.inj ht
    exact ⟨rfl, fun n => by simp [rows]⟩
  | cons f frames ih =>
    obtain ⟨u, hu, ht⟩ := Option.bind_eq_some_iff.mp ht
    obtain rfl := receiveFrame_eq hu
    obtain ⟨hout, hwritten⟩ := ih ht
    have hsame : (s.pcm f.rows.flatten).out = s.out := by
      unfold pcm
      split <;> rfl
    refine ⟨hout.trans hsame, fun n => ?_⟩
    rw [hwritten n, hsame, rows_cons, List.flatten_append]
    unfold pcm
    cases haudio : s.out.audio with
    | none => rfl
    | some m =>
      by_cases hm : m = n
      · subst hm
        simp
      · simp [hm, Function.update_of_ne (Ne.symm hm)]

/-- What a step does: to the controller what its event does, and the frames of a packet go to the
current output while the sound is on. -/
theorem step_spec {e : Event} (ht : step s e = some t) :
    VideoOutput.step s.out e.output = some t.out ∧ ∀ n, t.written n = s.written n ++
      if s.out.audio = some n ∧ s.out.ctrl.isPlayingAudio = true then (rows e.frames).flatten
      else [] := by
  cases e with
  | ctrl e =>
    obtain ⟨out, hout, rfl⟩ := Option.map_eq_some_iff.mp ht
    exact ⟨hout, fun n => by simp [Event.frames, rows]⟩
  | audio len frames =>
    obtain ⟨out, hout, ht⟩ := Option.bind_eq_some_iff.mp ht
    have haudio : out.audio = s.out.audio := by
      obtain ⟨he, _⟩ | ⟨_, he, _⟩ | hleaves := VideoOutput.step_audio hout
      · cases he
      · cases he
      · exact hleaves.audio
    split at ht
    · next hon =>
      obtain ⟨rfl, hwritten⟩ := frames_written ht
      refine ⟨hout, fun n => ?_⟩
      rw [hwritten n, haudio]
      simp only [hon, and_true, Event.frames]
    · next hoff =>
      obtain rfl := Option.some.inj ht
      exact ⟨hout, fun n => by rw [if_neg fun h => hoff h.2, List.append_nil]⟩

/-- The outputs are numbered as they are created, and while something is playing only `playAudio`
and `stopAudio` turn the sound on and off. -/
theorem out_step {u v : VideoOutput} {e : VideoOutput.Event} (hv : VideoOutput.step u e = some v) :
    (v.created = u.created + match e with | .audioInfo _ => 1 | _ => 0) ∧
    (u.ctrl.isPlaying = true → e ≠ .stop →
      v.ctrl.isPlayingAudio = sound u.ctrl.isPlayingAudio e) := by
  cases e with
  | play url encryption =>
    simp only [VideoOutput.step, Outcome.after_mapState, Option.map_eq_some_iff] at hv
    obtain ⟨c, hc, rfl⟩ := hv
    refine ⟨rfl, fun hplaying _ => ?_⟩
    rw [VideoCtrl.play_of_playing_after hplaying hc]
    rfl
  | stop =>
    obtain rfl := Option.some.inj hv
    refine ⟨?_, fun _ hno => absurd rfl hno⟩
    unfold VideoOutput.stop
    split <;> rfl
  | playAudio | stopAudio | setAutoLocalRecord =>
    obtain rfl := Option.some.inj hv
    exact ⟨rfl, fun _ _ => rfl⟩
  | pullThreadEnds | audioInfo =>
    obtain rfl := Option.some.inj (Option.ite_none_right_eq_some.mp hv).2
    exact ⟨rfl, fun _ _ => rfl⟩
  | frame d mapped =>
    have hframe := (Option.ite_none_right_eq_some.mp hv).2
    rw [VideoOutput.frameCallBack, Option.ite_none_left_eq_some] at hframe
    obtain rfl := Option.some.inj hframe.2
    refine ⟨?_, fun _ _ => by rw [(VideoOutput.withFrame_same d u).1]; rfl⟩
    unfold VideoOutput.withFrame
    split <;> rfl
  | audioData len =>
    obtain rfl := Option.some.inj (Option.ite_none_right_eq_some.mp hv).2
    unfold VideoOutput.audioData
    split <;> exact ⟨rfl, fun _ _ => rfl⟩

/-! ## Runs -/

theorem exec_out {s₀ : SoundOutput} (hrun : exec step s₀ es = some s) :
    exec VideoOutput.step s₀.out (es.map Event.output) = some s.out := by
  induction es generalizing s₀ with
  | nil => exact congrArg (Option.map SoundOutput.out) hrun
  | cons e es ih =>
    rw [exec_cons] at hrun
    obtain ⟨u, hu, hrun⟩ := Option.bind_eq_some_iff.mp hrun
    rw [List.map_cons, exec_cons, (step_spec hu).1]
    exact ih hrun

/-- The current output was created, and the ones still to come have been given nothing. -/
structure Numbered (s : SoundOutput) : Prop where
  audio : ∀ n, s.out.audio = some n → n < s.out.created
  written : ∀ n, s.out.created ≤ n → s.written n = []

theorem numbered_init (isAutoLocalRecord : Bool) (adtsHeader : AdtsHeader) :
    Numbered (init isAutoLocalRecord adtsHeader) where
  audio n hn := by cases hn
  written _ _ := rfl

theorem step_numbered {e : Event} (h : Numbered s) (ht : step s e = some t) : Numbered t := by
  obtain ⟨hout, hwritten⟩ := step_spec ht
  have hcreated := (out_step hout).1
  have hle : s.out.created ≤ t.out.created := by omega
  constructor
  · intro n hn
    obtain ⟨_, hstop⟩ | ⟨data, hinfo, _, heq⟩ | hleaves := VideoOutput.step_audio hout
    · rw [hstop, VideoOutput.stop] at hn
      split at hn
      · cases hn
      · exact Nat.lt_of_lt_of_le (h.audio n hn) hle
    · rw [heq] at hn ⊢
      obtain rfl := Option.some.inj hn
      exact Nat.lt_succ_self _
    · exact Nat.lt_of_lt_of_le (h.audio n (hleaves.audio ▸ hn)) hle
  · intro n hn
    have hnot : ¬ (s.out.audio = some n ∧ s.out.ctrl.isPlayingAudio = true) := fun hcurrent =>
      absurd (h.audio n hcurrent.1) (by omega)
    rw [hwritten n, if_neg hnot, List.append_nil, h.written n (by omega)]

/-- While an output is the current one it is given the frames that are heard. -/
theorem current_written (haudio : s.out.audio = some n) (hplaying : s.out.ctrl.isPlaying = true)
    (hgs : ∀ e ∈ gs, ¬ Switches e) (hrun : exec step s gs = some t) :
    t.out.audio = some n ∧ t.out.ctrl.isPlaying = true ∧
    t.written n = s.written n ++ (rows (heard s.out.ctrl.isPlayingAudio gs)).flatten := by
  induction gs generalizing s with
  | nil =>
    obtain rfl := Option.some.inj hrun
    exact ⟨haudio, hplaying, by simp [heard, rows]⟩
  | cons e gs ih =>
    obtain ⟨he, hgs⟩ := List.forall_mem_cons.mp hgs
    rw [exec_cons] at hrun
    obtain ⟨u, hu, hrun⟩ := Option.bind_eq_some_iff.mp hrun
    obtain ⟨hout, hwritten⟩ := step_spec hu
    obtain ⟨hstop, _⟩ | ⟨data, hinfo, _⟩ | hleaves := VideoOutput.step_audio hout
    · exact absurd (.inl hstop) he
    · exact absurd (.inr ⟨data, hinfo⟩) he
    obtain ⟨ht, hstill, hrest⟩ :=
      ih (hleaves.audio.trans haudio) (hleaves.playing hplaying) hgs hrun
    refine ⟨ht, hstill, ?_⟩
    rw [hrest, hwritten n, (out_step hout).2 hplaying hleaves.notStop, heard, rows_append,
      List.flatten_append, List.append_assoc]
    cases s.out.ctrl.isPlayingAudio with
    | true => simp [haudio]
    | false => simp [rows]

/-- An output that is no more the current one is given nothing. -/
theorem past_written (hpast : n < s.out.created) (haudio : s.out.audio ≠ some n)
    (hrun : exec step s hs = some t) : t.written n = s.written n := by
  induction hs generalizing s with
  | nil => rw [← Option.some.inj hrun]
  | cons e hs ih =>
    rw [exec_cons] at hrun
    obtain ⟨u, hu, hrun⟩ := Option.bind_eq_some_iff.mp hrun
    obtain ⟨hout, hwritten⟩ := step_spec hu
    have hcreated := (out_step hout).1
    have hstill : u.out.audio ≠ some n := by
      obtain ⟨_, hstop⟩ | ⟨data, _, _, hinfo⟩ | hleaves := VideoOutput.step_audio hout
      · rw [hstop, VideoOutput.stop]
        split
        · nofun
        · exact haudio
      · rw [hinfo]
        exact fun h => absurd (Option.some.inj h) (Nat.ne_of_gt hpast)
      · rwa [hleaves.audio]
    rw [ih (by omega) hstill hrun, hwritten n, if_neg fun h => haudio h.1, List.append_nil]

theorem exec_numbered (h : Numbered s) (hrun : exec step s es = some t) : Numbered t :=
  exec_invariant (I := fun _ s => Numbered s) h (fun _ _ _ _ h ht => step_numbered h ht) hrun

/-- The next switch takes the output its place. -/
theorem switch_written {e : Event} (h : Numbered s) (haudio : s.out.audio = some n)
    (hplaying : s.out.ctrl.isPlaying = true) (he : Switches e) (ht : step s e = some t) :
    n < t.out.created ∧ t.out.audio ≠ some n ∧ t.written n = s.written n := by
  obtain ⟨hout, hwritten⟩ := step_spec ht
  have hpast := h.audio n haudio
  have hcreated := (out_step hout).1
  have hnone : rows e.frames = [] := by
    rcases e with _ | ⟨len, frames⟩
    · rfl
    · rcases he with hstop | ⟨data, hinfo⟩
      · cases hstop
      · cases hinfo
  refine ⟨by omega, ?_, by rw [hwritten n, hnone]; simp⟩
  obtain ⟨_, hstop⟩ | ⟨data, _, _, hinfo⟩ | hleaves := VideoOutput.step_audio hout
  · rw [hstop, VideoOutput.stop, if_pos hplaying]
    nofun
  · rw [hinfo]
    exact fun h => absurd (Option.some.inj h) (Nat.ne_of_gt hpast)
  · rcases he with hstop | ⟨data, hinfo⟩
    · exact absurd hstop hleaves.notStop
    · exact absurd hinfo (hleaves.notInfo data)

theorem mem_rows_of_heard {frames : List SoundFrame} {w : Nat} :
    (∀ row ∈ rows frames, row.length = w) ↔
      ∀ f ∈ frames, f.nbSamples = 0 ∨ f.channels * f.dataSize.toNat = w := by
  have hlength (f : SoundFrame) (i : Nat) : (f.row i).length = f.channels * f.dataSize.toNat := by
    simp [SoundFrame.row, SoundFrame.sample, List.length_flatMap, List.map_const']
  constructor
  · intro h f hf
    by_contra hnot
    obtain ⟨hsome, hwidth⟩ := not_or.mp hnot
    refine hwidth ((hlength f 0).symm.trans (h _ ?_))
    exact List.mem_flatMap.mpr ⟨f, hf, List.mem_map.mpr
      ⟨0, List.mem_range.mpr (Nat.pos_of_ne_zero hsome), rfl⟩⟩
  · intro h row hrow
    obtain ⟨f, hf, hrow⟩ := List.mem_flatMap.mp hrow
    obtain ⟨i, hi, rfl⟩ := List.mem_map.mp hrow
    rw [hlength]
    exact (h f hf).resolve_left fun hzero => by simp [hzero] at hi

/-- The output that an AUDIO_INFO creates is given, in any further run, the frames of the packets
that come while it is the current one and the sound is on. It plays the decoded samples exactly
when the rows of these frames have the width of its format. -/
theorem outputs_play {isAutoLocalRecord : Bool} {adtsHeader : AdtsHeader} {data : AudioInfo}
    (hbefore : exec step (init isAutoLocalRecord adtsHeader) es = some s)
    (hrun : exec step s (.ctrl (.audioInfo data) :: (gs ++ hs)) = some t)
    (hgs : ∀ e ∈ gs, ¬ Switches e) (hhs : ∀ e ∈ hs.head?, Switches e) :
    let frames := heard s.out.ctrl.isPlayingAudio gs
    t.written s.out.created = (rows frames).flatten ∧
      ((QAudioFormat.ofInfo data).Plays (t.written s.out.created) (rows frames) ↔
        ∀ f ∈ frames, f.nbSamples = 0 ∨
          f.channels * f.dataSize.toNat = (QAudioFormat.ofInfo data).width) := by
  intro frames
  have hnumbered := exec_numbered (numbered_init ..) hbefore
  have howns := (VideoOutput.exec_brought (exec_out hbefore)).owns
  rw [exec_cons] at hrun
  obtain ⟨u, hu, hrest⟩ := Option.bind_eq_some_iff.mp hrun
  rw [exec_append] at hrest
  obtain ⟨v, hv, hafter⟩ := Option.bind_eq_some_iff.mp hrest
  obtain ⟨out, hinfo, rfl⟩ := Option.map_eq_some_iff.mp hu
  obtain ⟨hpull, hout⟩ := Option.ite_none_right_eq_some.mp hinfo
  obtain rfl := Option.some.inj hout
  have hplaying : s.out.ctrl.isPlaying = true := howns hpull
  obtain ⟨haudio, hstill, hwritten⟩ :=
    current_written (s := ⟨s.out.audioInfo data, s.written⟩) rfl hplaying hgs hv
  have hgiven : t.written s.out.created = (rows frames).flatten := by
    rw [hnumbered.written _ (Nat.le_refl _), List.nil_append] at hwritten
    rw [← show v.written s.out.created = (rows frames).flatten from hwritten]
    cases hs with
    | nil => rw [← Option.some.inj hafter]
    | cons e hs =>
      rw [exec_cons] at hafter
      obtain ⟨w, hw, hlast⟩ := Option.bind_eq_some_iff.mp hafter
      obtain ⟨hpast, hother, hsame⟩ := switch_written
        (exec_numbered (step_numbered hnumbered hu) hv) haudio hstill (hhs e rfl) hw
      rw [past_written hpast hother hlast, hsame]
  refine ⟨hgiven, ?_⟩
  rw [hgiven, QAudioFormat.plays_flatten_iff, mem_rows_of_heard]

/-- Two samples of two channels, as the AAC decoder gives them. -/
def stereoFrame : SoundFrame := ⟨2, 2, 4, fun ch k => UInt8.ofNat (16 * ch + k)⟩

/-- The frame that comes with the sound off is not given to the output. -/
theorem outputs_play_stereo :
    let info : AudioInfo := ⟨0x12, 0x10⟩
    ∃ t, exec step (init false (AdtsHeader.ofInfo info))
      [.ctrl (.play "rtmp://host/live/000001" ""), .ctrl .playAudio, .ctrl (.audioInfo info),
        .audio 10 [stereoFrame], .ctrl .stopAudio, .audio 10 [stereoFrame], .ctrl .stop] = some t ∧
      t.written 0 = [0, 1, 2, 3, 16, 17, 18, 19, 4, 5, 6, 7, 20, 21, 22, 23] ∧
      (QAudioFormat.ofInfo info).Plays (t.written 0) stereoFrame.rows := by
  intro info
  refine ⟨_, rfl, ?_⟩
  have hbefore : exec step (init false (AdtsHeader.ofInfo info))
      [.ctrl (.play "rtmp://host/live/000001" ""), .ctrl .playAudio] = some _ := rfl
  have hgs : ∀ e ∈ [.audio 10 [stereoFrame], .ctrl .stopAudio, .audio 10 [stereoFrame]],
      ¬ Switches e := by simp [Switches, Event.output]
  have hhs : ∀ e ∈ [Event.ctrl .stop].head?, Switches e := by simp [Switches, Event.output]
  obtain ⟨hgiven, hplays⟩ := outputs_play hbefore (show exec step _ (.ctrl (.audioInfo info) :: _) =
    some _ from rfl) hgs hhs
  exact ⟨hgiven, hplays.mpr (by decide)⟩

end SoundOutput
end MiniSurveillance
