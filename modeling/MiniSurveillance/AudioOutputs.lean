import MiniSurveillance.VideoOutput

/-!
# Live audio outputs

The audio callback of `VideoCtrl` creates an audio output for every AUDIO_INFO, and only `stop`
deletes one, the one `audio` points to. The sender repeats AUDIO_INFO every ten blocks.

* `step_audio`: what an event does to the outputs.
* `exec_announced`: there is an output exactly after an AUDIO_INFO since the last `stop`.
* `owned_along_iff`: no other output is live exactly as long as no session brings a second
  AUDIO_INFO.
-/

namespace MiniSurveillance.VideoOutput
open Runs

variable {es : List Event} {s t : VideoOutput}

/-- An event that leaves the outputs as they are, and does not end the playing. -/
structure LeavesAudio (e : Event) (s t : VideoOutput) : Prop where
  latest : ∀ es, latestInfo (es ++ [e]) = latestInfo es
  notStop : e ≠ .stop
  notInfo : ∀ data, e ≠ .audioInfo data
  audio : t.audio = s.audio
  live : t.live = s.live
  playing : s.ctrl.isPlaying = true → t.ctrl.isPlaying = true

/-- Only `stop` and an AUDIO_INFO change the outputs. -/
theorem step_audio {e : Event} (ht : step s e = some t) :
    (e = .stop ∧ t = s.stop) ∨
    (∃ data, e = .audioInfo data ∧ s.ctrl.capture.pullThread = .running ∧ t = s.audioInfo data) ∨
    LeavesAudio e s t := by
  cases e with
  | play url encryption =>
    simp only [step, Outcome.after_mapState, Option.map_eq_some_iff] at ht
    obtain ⟨c, hc, rfl⟩ := ht
    refine .inr (.inr ⟨fun es => latestInfo_snoc .., by simp, by simp, rfl, rfl,
      fun hplaying => ?_⟩)
    rwa [VideoCtrl.play_of_playing_after hplaying hc]
  | stop => exact .inl ⟨rfl, (Option.some.inj ht).symm⟩
  | playAudio =>
    obtain rfl := Option.some.inj ht
    exact .inr (.inr ⟨fun es => latestInfo_snoc .., by simp, by simp, rfl, rfl, id⟩)
  | stopAudio =>
    obtain rfl := Option.some.inj ht
    exact .inr (.inr ⟨fun es => latestInfo_snoc .., by simp, by simp, rfl, rfl, id⟩)
  | setAutoLocalRecord value =>
    obtain rfl := Option.some.inj ht
    exact .inr (.inr ⟨fun es => latestInfo_snoc .., by simp, by simp, rfl, rfl, id⟩)
  | pullThreadEnds =>
    simp only [step, Option.ite_none_right_eq_some, Option.some.injEq] at ht
    obtain ⟨_, rfl⟩ := ht
    exact .inr (.inr ⟨fun es => latestInfo_snoc .., by simp, by simp, rfl, rfl, id⟩)
  | frame d mapped =>
    simp only [step, frameCallBack, Option.ite_none_right_eq_some] at ht
    obtain ⟨_, ht⟩ := ht
    split at ht
    · cases ht
    · obtain rfl := Option.some.inj ht
      have hsame : (s.withFrame d).audio = s.audio ∧ (s.withFrame d).live = s.live := by
        unfold withFrame
        split
        · exact ⟨rfl, rfl⟩
        · exact ⟨rfl, rfl⟩
      refine .inr (.inr ⟨fun es => latestInfo_snoc .., by simp, by simp, hsame.1, hsame.2, ?_⟩)
      rw [(withFrame_same d s).1]
      exact id
  | audioInfo data =>
    simp only [step, Option.ite_none_right_eq_some, Option.some.injEq] at ht
    exact .inr (.inl ⟨data, rfl, ht.1, ht.2.symm⟩)
  | audioData len =>
    simp only [step, Option.ite_none_right_eq_some, Option.some.injEq] at ht
    obtain ⟨_, rfl⟩ := ht
    unfold audioData
    split
    · exact .inr (.inr ⟨fun es => latestInfo_snoc .., by simp, by simp, rfl, rfl, id⟩)
    · exact .inr (.inr ⟨fun es => latestInfo_snoc .., by simp, by simp, rfl, rfl, id⟩)

/-- What holds of `audio` whatever the stream brings. -/
structure Announced (es : List Event) (s : VideoOutput) : Prop where
  idle : s.ctrl.isPlaying = false → s.audio = none
  audio : s.audio = none ↔ latestInfo es = none

theorem stop_audio (h : Announced es s) : s.stop.audio = none := by
  unfold stop
  split
  · rfl
  · next hidle => exact h.idle (by simpa using hidle)

theorem step_announced {e : Event} (howns : s.ctrl.Owns) (h : Announced es s)
    (ht : step s e = some t) : Announced (es ++ [e]) t := by
  obtain ⟨rfl, rfl⟩ | ⟨data, rfl, hrun, rfl⟩ | hleaves := step_audio ht
  · have haudio := stop_audio h
    exact ⟨fun _ => haudio, iff_of_true haudio (latestInfo_snoc es .stop)⟩
  · have hlatest : latestInfo (es ++ [.audioInfo data]) = some data := latestInfo_snoc ..
    refine ⟨fun hidle => ?_, iff_of_false nofun (by simp [hlatest])⟩
    rw [show (s.audioInfo data).ctrl = s.ctrl from rfl, howns hrun] at hidle
    cases hidle
  · refine ⟨fun hidle => ?_, by rw [hleaves.audio, hleaves.latest, h.audio]⟩
    rw [hleaves.audio]
    refine h.idle (Bool.not_eq_true _ ▸ fun hplaying => ?_)
    rw [hleaves.playing hplaying] at hidle
    cases hidle

/-- Along a run there is an output exactly after an AUDIO_INFO since the last `stop`. -/
theorem exec_announced {isAutoLocalRecord : Bool} {adtsHeader : AdtsHeader}
    (hrun : exec step (init isAutoLocalRecord adtsHeader) es = some s) : Announced es s := by
  have hboth : Brought es s ∧ Announced es s :=
    exec_invariant (I := fun es s => Brought es s ∧ Announced es s)
      ⟨brought_init .., ⟨fun _ => rfl, iff_of_true rfl rfl⟩⟩
      (fun _ _ _ _ h ht => ⟨step_brought h.1 ht, step_announced h.1.owns h.2 ht⟩) hrun
  exact hboth.2

/-- At most one output is live, it is the one `audio` points to, and none is behind `stop`. -/
structure Owned (es : List Event) (s : VideoOutput) : Prop where
  live : s.live = s.audio.toList
  stopped : es.getLast? = some .stop → s.live = []

/-- The event is not an AUDIO_INFO behind another one of the session. -/
def FirstInfo (es : List Event) (_ : VideoOutput) (e : Event) : Prop :=
  ∀ data, e = .audioInfo data → latestInfo es = none

theorem stop_live (h : s.live = s.audio.toList) (hstop : s.stop.audio = none) :
    s.stop.live = [] := by
  unfold stop at hstop ⊢
  split at hstop
  · next hplaying =>
    rw [if_pos hplaying]
    show s.audio.elim s.live s.live.erase = []
    rw [h]
    cases s.audio with
    | none => rfl
    | some n => exact List.erase_cons_head ..
  · next hidle =>
    rw [if_neg hidle, h, hstop]
    rfl

theorem step_owned_iff {e : Event} (hannounced : Announced es s) (h : Owned es s)
    (ht : step s e = some t) : Owned (es ++ [e]) t ↔ FirstInfo es s e := by
  obtain ⟨rfl, rfl⟩ | ⟨data, rfl, _, rfl⟩ | hleaves := step_audio ht
  · have haudio := stop_audio hannounced
    have hlive := stop_live h.live haudio
    exact iff_of_true ⟨by rw [hlive, haudio]; rfl, fun _ => hlive⟩ nofun
  · -- the new output is the only one exactly if there was none
    have hlive : (s.audioInfo data).live = s.created :: s.audio.toList :=
      congrArg (s.created :: ·) h.live
    constructor
    · intro howned _ _
      have hone := hlive.symm.trans howned.live
      exact hannounced.audio.mp (Option.toList_eq_nil_iff.mp (List.cons.inj hone).2)
    · intro hfirst
      have hnone := hannounced.audio.mpr (hfirst data rfl)
      rw [hnone] at hlive
      exact ⟨hlive, by simp⟩
  · refine iff_of_true ⟨?_, fun hlast => ?_⟩ fun data he => absurd he (hleaves.notInfo data)
    · rw [hleaves.live, hleaves.audio, h.live]
    · rw [List.getLast?_concat] at hlast
      exact absurd (Option.some.inj hlast) hleaves.notStop

/-- Along a run no output but the one of `audio` is live, and none behind `stop`, exactly when
each AUDIO_INFO is the first one since the last `stop`. -/
theorem owned_along_iff (isAutoLocalRecord : Bool) (adtsHeader : AdtsHeader) (es : List Event) :
    (∀ fs t, fs <+: es → exec step (init isAutoLocalRecord adtsHeader) fs = some t →
      Owned fs t) ↔
      AtEvents step (init isAutoLocalRecord adtsHeader) es FirstInfo :=
  holds_along_iff_atEvents ⟨rfl, nofun⟩
    (fun _ _ _ _ hs h ht => step_owned_iff (exec_announced hs) h ht) es

/-- The information comes again behind ten blocks, and the second output outlives `stop`. -/
theorem repeated_info_leaks :
    ¬ ∀ fs t, fs <+: [.play "rtmp://host/live/000001" "", .audioInfo ⟨0x12, 0x10⟩,
        .audioInfo ⟨0x12, 0x10⟩, .stop] →
      exec step (init false (AdtsHeader.ofInfo ⟨0x12, 0x10⟩)) fs = some t → Owned fs t := by
  intro h
  have howned := h _ _ (List.prefix_refl _) rfl
  cases howned.live

end MiniSurveillance.VideoOutput
