import MiniSurveillance.MainPlay

/-!
# A window plays only while its thread pulls

Four flags say that a stream is played: those of the device and of the window, that of the
window's `VideoCtrl`, and `is_pulling` of the capture below it. A pull thread that ends by itself
clears the last one only.

* `step_objects`: which objects the playing windows have, whatever the threads do.
* `step_pulled_iff`: a step keeps the flags together exactly if it is not the end of a thread.
* `pulled_along_iff`: along a run.
-/

namespace MiniSurveillance.MainCtrl
open Table Text Runs

/-- The object's pull thread is running. -/
def Pulling (s : MainCtrl) (p : Nat) : Prop := (s.ctrls p).capture.pullThread = .running

/-- A window whose pull thread does not run is marked not playing, and so is its device. -/
def ShownWhilePulling (s : MainCtrl) : Prop :=
  ∀ w window, lookup s.windows w = some window → ¬ Pulling s window.videoCtrl →
    window.isPlaying = false ∧
      ∀ d device, lookup s.devices d = some device → device.windowIdx = w →
        device.isPlaying = false

/-- The objects of the windows that are playing. -/
structure Objects (s : MainCtrl) : Prop where
  plays : ∀ w window, lookup s.windows w = some window → window.isPlaying = true →
    (s.ctrls window.videoCtrl).isPlaying = true
  distinct : ∀ v w a b, lookup s.windows v = some a → lookup s.windows w = some b →
    a.isPlaying = true → b.isPlaying = true → a.videoCtrl = b.videoCtrl → v = w
  pulls : ∀ p, Pulling s p →
    ∃ w window, lookup s.windows w = some window ∧ window.isPlaying = true ∧ window.videoCtrl = p

theorem objects_init : Objects {} where
  plays := by simp
  distinct := by simp
  pulls _ h := nomatch h

/-- Every window that is playing has a pull thread. -/
def Pulled (s : MainCtrl) : Prop :=
  ∀ w window, lookup s.windows w = some window → window.isPlaying = true →
    Pulling s window.videoCtrl

variable {s t : MainCtrl}

/-- The device of a window is marked as the window is. -/
theorem shownWhilePulling_iff (hs : TablesLinked s) : ShownWhilePulling s ↔ Pulled s := by
  constructor
  · intro h w window hwindow hplaying
    by_contra hidle
    rw [(h w window hwindow hidle).1] at hplaying
    cases hplaying
  · intro h w window hwindow hidle
    have hoff : window.isPlaying = false := by
      by_contra hplaying
      exact hidle (h w window hwindow (by simpa using hplaying))
    refine ⟨hoff, fun d device hdevice hw => ?_⟩
    by_contra hplaying
    obtain ⟨shows, hshows, hon, _⟩ := hs.device_window d device hdevice
      ((hs.device_playing d device hdevice).mp (by simpa using hplaying))
    rw [hw, hwindow] at hshows
    obtain rfl := Option.some.inj hshows
    rw [hoff] at hon
    cases hon

/-! ## Steps that end and start nothing -/

/-- The playing windows are the same, and the objects that play still do, with the same
threads. -/
structure KeepsPulls (s t : MainCtrl) : Prop where
  windows : ∀ w window, window.isPlaying = true →
    (lookup t.windows w = some window ↔ lookup s.windows w = some window)
  plays : ∀ p, (s.ctrls p).isPlaying = true → (t.ctrls p).isPlaying = true
  pulls : ∀ p, Pulling t p ↔ Pulling s p

theorem KeepsPulls.of_ctrl (hwindows : t.windows = s.windows) {p : Nat} {v : VideoCtrl}
    (hctrls : t.ctrls = Function.update s.ctrls p v)
    (hplays : (s.ctrls p).isPlaying = true → v.isPlaying = true)
    (hthread : v.capture.pullThread = (s.ctrls p).capture.pullThread) : KeepsPulls s t where
  windows _ _ _ := by rw [hwindows]
  plays q hq := by
    rw [hctrls, Function.update_apply]
    split
    · next heq => exact hplays (heq ▸ hq)
    · exact hq
  pulls q := by
    rw [Pulling, Pulling, hctrls, Function.update_apply]
    split
    · next heq => rw [hthread, heq]
    · exact Iff.rfl

theorem KeepsPulls.of_same (hwindows : t.windows = s.windows) (hctrls : t.ctrls = s.ctrls) :
    KeepsPulls s t :=
  ⟨fun _ _ _ => by rw [hwindows], fun _ hp => hctrls ▸ hp,
    fun _ => by rw [Pulling, Pulling, hctrls]⟩

theorem SameTables.keepsPulls (h : SameTables s t) : KeepsPulls s t := .of_same h.windows h.ctrls

theorem KeepsPulls.objects (h : KeepsPulls s t) (hs : Objects s) : Objects t where
  plays w window hw hon := h.plays _ (hs.plays w window ((h.windows w window hon).mp hw) hon)
  distinct v w a b ha hb haon hbon :=
    hs.distinct v w a b ((h.windows v a haon).mp ha) ((h.windows w b hbon).mp hb) haon hbon
  pulls p hp := by
    obtain ⟨w, window, hw, hon, hp⟩ := hs.pulls p ((h.pulls p).mp hp)
    exact ⟨w, window, (h.windows w window hon).mpr hw, hon, hp⟩

theorem KeepsPulls.pulled (h : KeepsPulls s t) (hs : Pulled s) : Pulled t := fun w window hw hon =>
  (h.pulls _).mpr (hs w window ((h.windows w window hon).mp hw) hon)

/-! ## Freeing a window -/

/-- The window is freed and its object stops; the other playing windows have other objects. -/
theorem freed_objects {i : Int} {window : WindowInfo} (hs : Objects s)
    (hwindow : lookup s.windows i = some window) (hon : window.isPlaying = true)
    (hwindows : Sets s.windows t.windows i window.freed)
    (hctrls : t.ctrls = Function.update s.ctrls window.videoCtrl (s.ctrls window.videoCtrl).stop) :
    Objects t ∧ (Pulled s → Pulled t) := by
  -- a window that still plays is another one, with an object that was not touched
  have hother (w : Int) (other : WindowInfo) (hw : lookup t.windows w = some other)
      (hplays : other.isPlaying = true) : lookup s.windows w = some other ∧
        t.ctrls other.videoCtrl = s.ctrls other.videoCtrl := by
    rcases hwindows.cases hw with ⟨_, rfl⟩ | ⟨hne, hw⟩
    · cases hplays
    · refine ⟨hw, ?_⟩
      rw [hctrls, Function.update_of_ne]
      exact fun heq => hne (hs.distinct w i other window hw hwindow hplays hon heq)
  refine ⟨⟨fun w other hw hplays => ?_, fun v w a b ha hb haon hbon => ?_, fun p hp => ?_⟩,
    fun hpulled w other hw hplays => ?_⟩
  · obtain ⟨hbefore, hsame⟩ := hother w other hw hplays
    rw [hsame]
    exact hs.plays w other hbefore hplays
  · exact hs.distinct v w a b (hother v a ha haon).1 (hother w b hb hbon).1 haon hbon
  · rw [Pulling, hctrls, Function.update_apply] at hp
    split at hp
    · have howns : (s.ctrls window.videoCtrl).Owns := fun _ => hs.plays i window hwindow hon
      exact absurd hp (VideoCtrl.stop_not_running howns)
    · next hne =>
      obtain ⟨w, other, hw, hplays, rfl⟩ := hs.pulls p hp
      have hwi : w ≠ i := by
        rintro rfl
        rw [hwindow] at hw
        exact hne (congrArg WindowInfo.videoCtrl (Option.some.inj hw)).symm
      exact ⟨w, other, (hwindows.of_ne hwi).trans hw, hplays, rfl⟩
  · obtain ⟨hbefore, hsame⟩ := hother w other hw hplays
    rw [Pulling, hsame]
    exact hpulled w other hbefore hplays

theorem stopVideo_objects (d : Int) (htables : TablesLinked s) (hs : Objects s) :
    Objects (s.stopVideo d) ∧ (Pulled s → Pulled (s.stopVideo d)) := by
  rcases stopVideo_cases s d with heq | ⟨device, window, hdevice, hwindow, heq⟩
  · rw [heq]
    exact ⟨hs, id⟩
  · obtain ⟨window', hwindow', hon, _⟩ :=
      htables.device_window d device hdevice (ne_neg_one hwindow)
    obtain rfl : window = window' := Option.some.inj (hwindow.symm.trans hwindow')
    rw [heq]
    exact freed_objects hs hwindow hon (sets_update _ hwindow) rfl

theorem evicted_objects (window : WindowInfo) (htables : TablesLinked s) (hs : Objects s) :
    Objects (s.evicted window) ∧ (Pulled s → Pulled (s.evicted window)) := by
  unfold evicted
  split
  · exact stopVideo_objects _ htables hs
  · exact ⟨hs, id⟩

/-! ## Showing a device -/

/-- A free window shows a device behind a `play` that starts its thread; no playing window
has the object. -/
theorem shown_objects {i d : Int} {window : WindowInfo} {v : VideoCtrl} (hs : Objects s)
    (hwindow : lookup s.windows i = some window)
    (hidle : (s.ctrls window.videoCtrl).isPlaying = false)
    (hwindows : Sets s.windows t.windows i (window.showing d))
    (hctrls : t.ctrls = Function.update s.ctrls window.videoCtrl v) (hplays : v.isPlaying = true)
    (hpulls : v.capture.pullThread = .running) : Objects t ∧ (Pulled s → Pulled t) := by
  have hself : t.ctrls window.videoCtrl = v := by rw [hctrls, Function.update_self]
  have hne (w : Int) (other : WindowInfo) (hw : lookup s.windows w = some other)
      (hon : other.isPlaying = true) : other.videoCtrl ≠ window.videoCtrl := by
    intro heq
    have hobject := hs.plays w other hw hon
    rw [heq, hidle] at hobject
    cases hobject
  have hsame (w : Int) (other : WindowInfo) (hw : lookup s.windows w = some other)
      (hon : other.isPlaying = true) : t.ctrls other.videoCtrl = s.ctrls other.videoCtrl := by
    rw [hctrls, Function.update_of_ne (hne w other hw hon)]
  refine ⟨⟨fun w other hw hon => ?_, fun u w a b ha hb haon hbon heq => ?_, fun p hp => ?_⟩,
    fun hpulled w other hw hon => ?_⟩
  · rcases hwindows.cases hw with ⟨_, rfl⟩ | ⟨_, hw⟩
    · exact (congrArg VideoCtrl.isPlaying hself).trans hplays
    · rw [hsame w other hw hon]
      exact hs.plays w other hw hon
  · rcases hwindows.cases ha with ⟨rfl, rfl⟩ | ⟨_, ha⟩
    · rcases hwindows.cases hb with ⟨rfl, _⟩ | ⟨_, hb⟩
      · rfl
      · exact absurd heq.symm (hne w b hb hbon)
    · rcases hwindows.cases hb with ⟨rfl, rfl⟩ | ⟨_, hb⟩
      · exact absurd heq (hne u a ha haon)
      · exact hs.distinct u w a b ha hb haon hbon heq
  · rw [Pulling, hctrls, Function.update_apply] at hp
    split at hp
    · next heq => exact ⟨i, window.showing d, hwindows.at, rfl, heq.symm⟩
    · obtain ⟨w, other, hw, hon, rfl⟩ := hs.pulls p hp
      by_cases hwi : w = i
      · next hne =>
        subst hwi
        rw [hwindow] at hw
        exact absurd (congrArg WindowInfo.videoCtrl (Option.some.inj hw)).symm hne
      · exact ⟨w, other, (hwindows.of_ne hwi).trans hw, hon, rfl⟩
  · rcases hwindows.cases hw with ⟨_, rfl⟩ | ⟨_, hw⟩
    · exact (congrArg (fun v => v.capture.pullThread) hself).trans hpulls
    · rw [Pulling, hsame w other hw hon]
      exact hpulled w other hw hon

theorem playVideo_objects {d : Int} (htables : TablesLinked s) (hs : Objects s)
    (h : (s.playVideo d).after = some t) : Objects t ∧ (Pulled s → Pulled t) := by
  rcases playVideo_cases h with rfl | ⟨device, window, v, hdevice, _, hidle, hwindow, hdone⟩
  · exact ⟨hs, id⟩
  obtain ⟨_, _, window', hwindow', _, hsame⟩ := evicted_tables htables hdevice hidle hwindow
  obtain ⟨hobjects, hpulled⟩ := evicted_objects window htables hs
  rcases hdone with ⟨hplay, rfl⟩ | ⟨hplay, rfl⟩
  · obtain ⟨hoff, hplays, hpulls⟩ := VideoCtrl.play_starts hplay
    have hshown := shown_objects (t := ((s.evicted window).setCtrl window.videoCtrl v).showDevice d
      s.findWindow) hobjects hwindow' (hsame ▸ hoff) (sets_update _ hwindow') (hsame ▸ rfl)
      hplays hpulls
    exact ⟨hshown.1, hshown.2 ∘ hpulled⟩
  · obtain ⟨hplays, hthread⟩ := VideoCtrl.play_keeps hplay
    have hkeeps : KeepsPulls (s.evicted window) ((s.evicted window).setCtrl window.videoCtrl v) :=
      .of_ctrl rfl rfl hplays hthread
    exact ⟨hkeeps.objects hobjects, hkeeps.pulled ∘ hpulled⟩

/-! ## Steps -/

theorem playAudio_keepsPulls (s : MainCtrl) (w : Int) : KeepsPulls s (s.playAudio w) := by
  unfold playAudio
  split
  · exact .of_same rfl rfl
  split
  · exact .of_same rfl rfl
  split
  · exact .of_ctrl rfl rfl id rfl
  · exact .of_same rfl rfl

theorem stopAudio_keepsPulls (s : MainCtrl) (w : Int) : KeepsPulls s (s.stopAudio w) := by
  unfold stopAudio
  split
  · exact .of_same rfl rfl
  split
  · exact .of_same rfl rfl
  · dsimp only
    split
    · exact .of_ctrl rfl rfl id rfl
    · exact .of_same rfl rfl

theorem addWindow_keepsPulls (s : MainCtrl) (p : Nat) : KeepsPulls s (s.addWindow p) where
  windows w window hon := by
    have hsets : Sets s.windows (s.addWindow p).windows s.windows.length ⟨false, -1, p⟩ :=
      sets_append _ _
    constructor
    · intro h
      rcases hsets.cases h with ⟨_, rfl⟩ | ⟨_, h⟩
      · cases hon
      · exact h
    · intro h
      exact (hsets.of_ne (Int.ne_of_lt (lookup_lt h))).trans h
  plays _ hp := hp
  pulls _ := Iff.rfl

/-- Only `playVideo` and `stopVideo` start and stop pull threads; else they end by themselves. -/
theorem step_keepsPulls {e : Event} (h : step s e = some t) :
    KeepsPulls s t ∨ (∃ d, e = .playVideo d) ∨ (∃ d, e = .stopVideo d) ∨
      ∃ p, e = .pullThreadEnds p := by
  cases e with
  | setServerIp ip =>
    obtain rfl := Option.some.inj h
    exact .inl (setServerIp_sameTables s ip).keepsPulls
  | setServerPort port =>
    obtain rfl := Option.some.inj h
    exact .inl (setServerPort_sameTables s port).keepsPulls
  | addDevice key r =>
    rcases addDevice_leaves s key r t h with ⟨hsame, _⟩ | ⟨⟨_, _, _, hadded⟩, _⟩
    · exact .inl hsame.keepsPulls
    · exact .inl (.of_same hadded.windows hadded.ctrls)
  | addWindow p =>
    obtain rfl := Option.some.inj h
    exact .inl (addWindow_keepsPulls s p)
  | playVideo d => exact .inr (.inl ⟨d, rfl⟩)
  | playAudio w =>
    obtain rfl := Option.some.inj h
    exact .inl (playAudio_keepsPulls s w)
  | stopVideo d => exact .inr (.inr (.inl ⟨d, rfl⟩))
  | stopAudio w =>
    obtain rfl := Option.some.inj h
    exact .inl (stopAudio_keepsPulls s w)
  | startTalk w r => exact .inl (startTalk_sameTables s w r t h).keepsPulls
  | stopTalk w r => exact .inl (stopTalk_sameTables s w r t h).keepsPulls
  | registerUser username password r =>
    exact .inl (registerUser_sameTables s username password r t h).keepsPulls
  | loginUser username password r =>
    exact .inl (loginUser_sameTables s username password r t h).keepsPulls
  | message msg =>
    simp only [step] at h
    split at h
    · rcases messageHandle_cases h with ⟨_, rfl⟩ | ⟨k, status, _, ⟨_, _, rfl⟩ | ⟨_, rfl⟩⟩
      · exact .inl (.of_same rfl rfl)
      · exact .inl (.of_same rfl rfl)
      · exact .inl (.of_same rfl rfl)
    · cases h
  | pullThreadEnds p => exact .inr (.inr (.inr ⟨p, rfl⟩))

/-- A thread that ends by itself leaves a window playing. -/
theorem pullThreadEnds_objects {p : Nat} (hs : Objects s) (h : s.pullThreadEnds p = some t) :
    Objects t ∧ ¬ Pulled t := by
  simp only [pullThreadEnds, Option.ite_none_right_eq_some, Option.some.injEq] at h
  obtain ⟨hrunning, rfl⟩ := h
  obtain ⟨w, window, hwindow, hon, rfl⟩ := hs.pulls p hrunning
  have hends : ¬ Pulling (s.setCtrl window.videoCtrl { s.ctrls window.videoCtrl with
      capture := { (s.ctrls window.videoCtrl).capture with pullThread := .ended } })
      window.videoCtrl := by
    simp [Pulling, setCtrl]
  refine ⟨⟨fun u other hu hplays => ?_, hs.distinct, fun q hq => ?_⟩, fun hpulled =>
    hends (hpulled w window hwindow hon)⟩
  · have hobject := hs.plays u other hu hplays
    simp only [setCtrl, Function.update_apply]
    split
    · next heq => exact heq ▸ hobject
    · exact hobject
  · have hne : q ≠ window.videoCtrl := fun heq => hends (heq ▸ hq)
    refine hs.pulls q ?_
    simpa [Pulling, setCtrl, Function.update_of_ne hne] using hq

theorem step_objects {e : Event} (htables : TablesLinked s) (hs : Objects s)
    (h : step s e = some t) : Objects t := by
  obtain hkeeps | ⟨d, rfl⟩ | ⟨d, rfl⟩ | ⟨p, rfl⟩ := step_keepsPulls h
  · exact hkeeps.objects hs
  · exact (playVideo_objects htables hs h).1
  · obtain rfl := Option.some.inj h
    exact (stopVideo_objects d htables hs).1
  · exact (pullThreadEnds_objects hs h).1

/-- The event is not the end of a pull thread that nobody stopped. -/
def NotItself (e : Event) : Prop := ∀ p, e ≠ .pullThreadEnds p

/-- A step keeps the windows pulling exactly if no thread ends by itself. -/
theorem step_pulled_iff {e : Event} (htables : TablesLinked s) (hs : Objects s) (hpulled : Pulled s)
    (h : step s e = some t) : Pulled t ↔ NotItself e := by
  obtain hkeeps | ⟨d, rfl⟩ | ⟨d, rfl⟩ | ⟨p, rfl⟩ := step_keepsPulls h
  · refine iff_of_true (hkeeps.pulled hpulled) fun p he => ?_
    subst he
    exact (pullThreadEnds_objects hs h).2 (hkeeps.pulled hpulled)
  · exact iff_of_true ((playVideo_objects htables hs h).2 hpulled) nofun
  · obtain rfl := Option.some.inj h
    exact iff_of_true ((stopVideo_objects d htables hs).2 hpulled) nofun
  · exact iff_of_false (pullThreadEnds_objects hs h).2 fun hne => hne p rfl

theorem exec_objects {es : List Event} (hrun : exec step {} es = some s) :
    TablesLinked s ∧ Objects s :=
  exec_invariant (I := fun _ s => TablesLinked s ∧ Objects s) ⟨tables_init, objects_init⟩
    (fun _ _ _ _ hs h => ⟨step_tables hs.1 h, step_objects hs.1 hs.2 h⟩) hrun

/-- Along a run each window without a pull thread is marked not playing, and its device too,
exactly as long as no pull thread ends by itself. -/
theorem shownWhilePulling_along_iff (es : List Event) :
    (∀ fs t, fs <+: es → exec step {} fs = some t → ShownWhilePulling t) ↔
      AtEvents step {} es fun _ _ e => NotItself e := by
  refine holds_along_iff_atEvents (I := fun _ t => ShownWhilePulling t) ?_ ?_ es
  · exact (shownWhilePulling_iff tables_init).mpr (by simp [Pulled])
  · intro fs s e t hrun hshown h
    obtain ⟨htables, hobjects⟩ := exec_objects hrun
    rw [shownWhilePulling_iff htables] at hshown
    rw [shownWhilePulling_iff (step_tables htables h)]
    exact step_pulled_iff htables hobjects hshown h

/-- The server of a device that is played cannot be reached: the window stays marked. -/
theorem ended_thread_shown :
    ¬ ∀ fs t, fs <+: loggedIn ++ [deviceAdded "rtmp://127.0.0.1/live/000001", .addWindow 0,
        deviceOnline, .playVideo 0, .pullThreadEnds 0] →
      exec step {} fs = some t → ShownWhilePulling t := by
  intro h
  have hend : ∃ t window, exec step {} (loggedIn ++ [deviceAdded "rtmp://127.0.0.1/live/000001",
      .addWindow 0, deviceOnline, .playVideo 0, .pullThreadEnds 0]) = some t ∧
      lookup t.windows 0 = some window ∧ window.isPlaying = true ∧
      (t.ctrls window.videoCtrl).capture.pullThread = .ended := ⟨_, _, rfl, rfl, rfl, rfl⟩
  obtain ⟨t, window, hrun, hwindow, hplaying, hended⟩ := hend
  have hidle : ¬ Pulling t window.videoCtrl := by simp [Pulling, hended]
  rw [(h _ t (List.prefix_refl _) hrun 0 window hwindow hidle).1] at hplaying
  cases hplaying

end MiniSurveillance.MainCtrl
