import MiniSurveillance.MainTables

/-!
# Playing a device

`playVideo` frees the window it picked before it plays the device there.

* `findWindow_picks`: which window it picks.
* `step_own`: a window that was freed has no pull thread left, so the play behind it is
  not refused.
* `playVideo_changes`: what a call changes when the device is played.
* `playVideo_allOrNothing`: a call does that, or nothing at all.
-/

namespace MiniSurveillance.MainCtrl
open Table Text Runs

/-! ## The pull threads -/

/-- The pull threads run only in objects that are playing. -/
def CtrlsOwn (s : MainCtrl) : Prop := ∀ p, (s.ctrls p).Owns

theorem CtrlsOwn.setCtrl {s : MainCtrl} (hs : CtrlsOwn s) (p : Nat) {v : VideoCtrl} (hv : v.Owns) :
    CtrlsOwn (s.setCtrl p v) := by
  intro q
  simp only [MainCtrl.setCtrl, Function.update_apply]
  split
  · exact hv
  · exact hs q

theorem stopVideo_own {s : MainCtrl} (d : Int) (hs : CtrlsOwn s) : CtrlsOwn (s.stopVideo d) := by
  rcases stopVideo_cases s d with heq | ⟨device, window, _, _, heq⟩
  · rw [heq]
    exact hs
  · rw [heq]
    exact hs.setCtrl window.videoCtrl (VideoCtrl.stop_owns (hs _))

theorem evicted_own {s : MainCtrl} (window : WindowInfo) (hs : CtrlsOwn s) :
    CtrlsOwn (s.evicted window) := by
  unfold evicted
  split
  · exact stopVideo_own _ hs
  · exact hs

theorem playVideo_own {s t : MainCtrl} {d : Int} (hs : CtrlsOwn s)
    (h : (s.playVideo d).after = some t) : CtrlsOwn t := by
  rcases playVideo_cases h with rfl | ⟨device, window, v, _, _, _, _, hdone⟩
  · exact hs
  have hleaves : (playIn window device (s.evicted window)).Leaves VideoCtrl.Owns :=
    VideoCtrl.play_owns (evicted_own window hs _) _ _
  rcases hdone with ⟨hplay, rfl⟩ | ⟨hplay | ⟨f, hplay⟩, rfl⟩
  · rw [hplay] at hleaves
    exact (evicted_own window hs).setCtrl _ ((Outcome.leaves_ok ..).mp hleaves)
  · rw [hplay] at hleaves
    exact (evicted_own window hs).setCtrl _ ((Outcome.leaves_ok ..).mp hleaves)
  · rw [hplay] at hleaves
    exact (evicted_own window hs).setCtrl _ ((Outcome.leaves_raised ..).mp hleaves)

theorem playAudio_own {s : MainCtrl} (w : Int) (hs : CtrlsOwn s) : CtrlsOwn (s.playAudio w) := by
  unfold playAudio
  split
  · exact hs
  split
  · exact hs
  split
  · next window _ _ _ _ _ => exact hs.setCtrl window.videoCtrl (hs window.videoCtrl)
  · exact hs

theorem stopAudio_own {s : MainCtrl} (w : Int) (hs : CtrlsOwn s) : CtrlsOwn (s.stopAudio w) := by
  unfold stopAudio
  split
  · exact hs
  split
  · exact hs
  · next window _ _ _ _ =>
    dsimp only
    split
    · exact hs.setCtrl window.videoCtrl (hs window.videoCtrl)
    · exact hs

theorem SameTables.own {s t : MainCtrl} (h : SameTables s t) (hs : CtrlsOwn s) : CtrlsOwn t := by
  intro p
  rw [h.ctrls]
  exact hs p

theorem step_own {s t : MainCtrl} {e : Event} (hs : CtrlsOwn s) (h : step s e = some t) :
    CtrlsOwn t := by
  cases e with
  | setServerIp ip =>
    obtain rfl := Option.some.inj h
    exact (setServerIp_sameTables s ip).own hs
  | setServerPort port =>
    obtain rfl := Option.some.inj h
    exact (setServerPort_sameTables s port).own hs
  | addDevice key r =>
    rcases addDevice_leaves s key r t h with ⟨hsame, _⟩ | ⟨⟨_, _, _, hsame⟩, _⟩
    · exact hsame.own hs
    · exact hsame.own hs
  | addWindow p =>
    obtain rfl := Option.some.inj h
    exact hs
  | playVideo d => exact playVideo_own hs h
  | playAudio w =>
    obtain rfl := Option.some.inj h
    exact playAudio_own w hs
  | stopVideo d =>
    obtain rfl := Option.some.inj h
    exact stopVideo_own d hs
  | stopAudio w =>
    obtain rfl := Option.some.inj h
    exact stopAudio_own w hs
  | startTalk w r => exact (startTalk_sameTables s w r t h).own hs
  | stopTalk w r => exact (stopTalk_sameTables s w r t h).own hs
  | registerUser username password r =>
    exact (registerUser_sameTables s username password r t h).own hs
  | loginUser username password r => exact (loginUser_sameTables s username password r t h).own hs
  | message msg =>
    simp only [step] at h
    split at h
    · rcases messageHandle_cases h with ⟨_, rfl⟩ | ⟨k, status, _, ⟨_, _, rfl⟩ | ⟨_, rfl⟩⟩
      · exact hs
      · exact hs
      · exact hs
    · cases h
  | pullThreadEnds p =>
    simp only [step, pullThreadEnds] at h
    split at h
    · obtain rfl := Option.some.inj h
      exact hs.setCtrl p (by simp [VideoCtrl.Owns])
    · cases h

/-- Freeing a window that is showing something stops its object. -/
theorem evicted_of_playing {s : MainCtrl} {w : Int} {window : WindowInfo} (hs : TablesLinked s)
    (hown : CtrlsOwn s) (hwindow : lookup s.windows w = some window)
    (hplaying : window.isPlaying = true) :
    Sets s.windows (s.evicted window).windows w window.freed ∧
      ((s.evicted window).ctrls window.videoCtrl).isPlaying = false ∧
      ((s.evicted window).ctrls window.videoCtrl).capture.pullThread ≠ .running := by
  obtain ⟨shown, hshown, rfl, _⟩ := hs.shown hwindow hplaying
  rw [evicted, if_pos hplaying, stopVideo_eq hshown hwindow]
  simp only [setCtrl, Function.update_self]
  exact ⟨sets_update _ hwindow, VideoCtrl.stop_isPlaying _, VideoCtrl.stop_not_running (hown _)⟩

/-! ## The window that is picked -/

/-- The lowest window that is not playing, or window 0 where all are. -/
def Picks (windows : List WindowInfo) (w : Int) (window : WindowInfo) : Prop :=
  lookup windows w = some window ∧
  ((window.isPlaying = false ∧
      ∀ v other, lookup windows v = some other → v < w → other.isPlaying = true) ∨
    (w = 0 ∧ ∀ v other, lookup windows v = some other → other.isPlaying = true))

/-- The loop of `findWindow`: it finds the first free window, or ends with what it was
given, or with 0 when it has seen a window. -/
theorem findWindowFrom_cases (windows : List WindowInfo) (i idx : Int) :
    (∃ n window, lookup windows n = some window ∧ window.isPlaying = false ∧
      (∀ v other, lookup windows v = some other → v < n → other.isPlaying = true) ∧
      findWindowFrom windows i idx = i + n) ∨
    ((∀ v other, lookup windows v = some other → other.isPlaying = true) ∧
      findWindowFrom windows i idx = if windows = [] then idx else 0) := by
  induction windows generalizing i idx with
  | nil => exact .inr ⟨by simp, rfl⟩
  | cons first rest ih =>
    rw [findWindowFrom]
    cases hfirst : first.isPlaying with
    | false =>
      refine .inl ⟨0, first, rfl, hfirst, fun v other hv hlt => ?_, by simp⟩
      have := lookup_nonneg hv
      omega
    | true =>
      rw [if_pos rfl]
      -- a window in front of which the first one is playing
      have hbefore {n : Int} (h : ∀ v other, lookup rest v = some other → v < n →
          other.isPlaying = true) (v : Int) (other : WindowInfo)
          (hv : lookup (first :: rest) v = some other) (hlt : v < n + 1) :
          other.isPlaying = true := by
        rw [lookup_cons] at hv
        split at hv
        · obtain rfl := Option.some.inj hv
          exact hfirst
        · exact h (v - 1) other hv (by omega)
      rcases ih (i + 1) 0 with ⟨n, window, hn, hfree, hplaying, heq⟩ | ⟨hplaying, heq⟩
      · have hpos := lookup_nonneg hn
        refine .inl ⟨n + 1, window, ?_, hfree, hbefore hplaying, by omega⟩
        rw [lookup_cons, if_neg (by omega), Int.add_sub_cancel]
        exact hn
      · refine .inr ⟨fun v other hv => hbefore (n := v) (fun u w hu _ => hplaying u w hu) v other hv
          (by omega), ?_⟩
        rw [heq]
        simp

theorem findWindow_picks {s : MainCtrl} {window : WindowInfo}
    (h : lookup s.windows s.findWindow = some window) : Picks s.windows s.findWindow window := by
  refine ⟨h, ?_⟩
  rcases findWindowFrom_cases s.windows 0 (-1) with ⟨n, free, hn, hfree, hbefore, heq⟩ |
    ⟨hplaying, heq⟩
  · obtain rfl : s.findWindow = n := by
      rw [findWindow, heq, Int.zero_add]
    obtain rfl := Option.some.inj (hn.symm.trans h)
    exact .inl ⟨hfree, hbefore⟩
  · refine .inr ⟨?_, hplaying⟩
    have hne : s.windows ≠ [] := by
      intro hnil
      rw [hnil, lookup_nil] at h
      cases h
    rw [findWindow, heq, if_neg hne]

/-! ## What a call changes -/

/-- `t` is `s` with device `d` played in window `w`: the device the window showed is
stopped, and nothing else is changed. -/
structure PlaysIn (s : MainCtrl) (d w : Int) (t : MainCtrl) : Prop where
  changes : ∃ device window, lookup s.devices d = some device ∧ Picks s.windows w window ∧
    lookup t.devices d = some (device.shownIn w) ∧ lookup t.windows w = some (window.showing d) ∧
    (t.ctrls window.videoCtrl).isPlaying = true ∧
    (window.isPlaying = true → window.deviceIdx ≠ d ∧ ∃ occupant,
      lookup s.devices window.deviceIdx = some occupant ∧ occupant.windowIdx = w ∧
      lookup t.devices window.deviceIdx = some occupant.stopped) ∧
    (∀ e, e ≠ d → ¬ (window.isPlaying = true ∧ e = window.deviceIdx) →
      lookup t.devices e = lookup s.devices e) ∧
    (∀ v, v ≠ w → lookup t.windows v = lookup s.windows v) ∧
    ∀ p, p ≠ window.videoCtrl → t.ctrls p = s.ctrls p
  others : t = { s with devices := t.devices, windows := t.windows, ctrls := t.ctrls }

/-- What freeing a window changes. -/
theorem evicted_changes {s : MainCtrl} {w : Int} {window : WindowInfo} (hs : TablesLinked s)
    (hwindow : lookup s.windows w = some window) :
    (∃ free, lookup (s.evicted window).windows w = some free ∧
      ∀ d, free.showing d = window.showing d) ∧
    (∀ v, v ≠ w → lookup (s.evicted window).windows v = lookup s.windows v) ∧
    (∀ p, p ≠ window.videoCtrl → (s.evicted window).ctrls p = s.ctrls p) ∧
    s.evicted window = { s with
      devices := (s.evicted window).devices
      windows := (s.evicted window).windows
      ctrls := (s.evicted window).ctrls } ∧
    (∀ e, ¬ (window.isPlaying = true ∧ e = window.deviceIdx) →
      lookup (s.evicted window).devices e = lookup s.devices e) ∧
    (window.isPlaying = true → ∃ occupant,
      lookup s.devices window.deviceIdx = some occupant ∧ occupant.windowIdx = w ∧
      occupant.isPlaying = true ∧
      lookup (s.evicted window).devices window.deviceIdx = some occupant.stopped) := by
  unfold evicted
  cases hplaying : window.isPlaying with
  | false =>
    exact ⟨⟨window, hwindow, fun _ => rfl⟩, fun _ _ => rfl, fun _ _ => rfl, rfl, fun _ _ => rfl,
      nofun⟩
  | true =>
    obtain ⟨shown, hshown, rfl, hon⟩ := hs.shown hwindow hplaying
    rw [if_pos rfl, stopVideo_eq hshown hwindow]
    have hwindows := sets_update WindowInfo.freed hwindow
    have hdevices := sets_update DeviceInfo.stopped hshown
    refine ⟨⟨window.freed, hwindows.at, fun _ => rfl⟩, fun v hv => hwindows.of_ne hv,
      fun p hp => Function.update_of_ne hp _ _, rfl, fun e he => hdevices.of_ne fun h => he ⟨rfl, h⟩,
      fun _ => ⟨shown, hshown, rfl, hon, hdevices.at⟩⟩

/-- Where the object of the picked window plays, the call shows the device there. -/
theorem playVideo_changes {s : MainCtrl} {d : Int} {device : DeviceInfo} {window : WindowInfo}
    {v : VideoCtrl} (hs : TablesLinked s) (hdevice : lookup s.devices d = some device)
    (hidle : device.isPlaying = false) (hwindow : lookup s.windows s.findWindow = some window)
    (hplays : v.isPlaying = true) :
    PlaysIn s d s.findWindow
      (((s.evicted window).setCtrl window.videoCtrl v).showDevice d s.findWindow) := by
  obtain ⟨⟨free, hfree, hshowing⟩, hwindows, hctrls, hrest, hdevices, hoccupant⟩ :=
    evicted_changes hs hwindow
  have hne : window.isPlaying = true → window.deviceIdx ≠ d := by
    rintro hon rfl
    obtain ⟨occupant, hoccupies, _, hplaying, _⟩ := hoccupant hon
    obtain rfl := Option.some.inj (hdevice.symm.trans hoccupies)
    rw [hidle] at hplaying
    cases hplaying
  have hkept : lookup (s.evicted window).devices d = some device := by
    rw [hdevices d fun h => hne h.1 h.2.symm]
    exact hdevice
  have hsetsDevice := sets_update (fun device => device.shownIn s.findWindow) hkept
  have hsetsWindow := sets_update (fun window => window.showing d) hfree
  refine ⟨⟨device, window, hdevice, findWindow_picks hwindow, hsetsDevice.at, ?_, ?_, ?_, ?_, ?_,
    ?_⟩, ?_⟩
  · rw [← hshowing d]
    exact hsetsWindow.at
  · show (Function.update (s.evicted window).ctrls window.videoCtrl v window.videoCtrl).isPlaying = _
    rw [Function.update_self]
    exact hplays
  · intro hon
    obtain ⟨occupant, hoccupies, hidx, _, hstopped⟩ := hoccupant hon
    exact ⟨hne hon, occupant, hoccupies, hidx, (hsetsDevice.of_ne (hne hon)).trans hstopped⟩
  · exact fun e he hother => (hsetsDevice.of_ne he).trans (hdevices e hother)
  · exact fun u hu => (hsetsWindow.of_ne hu).trans (hwindows u hu)
  · exact fun p hp => (Function.update_of_ne hp _ _).trans (hctrls p hp)
  · exact congrArg (fun u : MainCtrl =>
      ((u.setCtrl window.videoCtrl v).showDevice d s.findWindow)) hrest

/-- The object of the picked window refuses to play only while it is playing, and then
nothing was changed before. -/
theorem playIn_refused {s : MainCtrl} {device : DeviceInfo} {window : WindowInfo} {v : VideoCtrl}
    (hs : TablesLinked s) (hown : CtrlsOwn s) (hwindow : lookup s.windows s.findWindow = some window)
    (hplay : playIn window device (s.evicted window) = .ok false v) :
    (s.evicted window).setCtrl window.videoCtrl v = s := by
  have hrefused : ((s.evicted window).ctrls window.videoCtrl).isPlaying = true ∧
      v = (s.evicted window).ctrls window.videoCtrl :=
    VideoCtrl.play_refused (evicted_own window hown _) hplay
  have hfree : window.isPlaying = false := by
    cases hon : window.isPlaying with
    | false => rfl
    | true =>
      have hstopped := (evicted_of_playing hs hown hwindow hon).2.1
      rw [hrefused.1] at hstopped
      cases hstopped
  have hsame : s.evicted window = s := by
    rw [evicted, hfree]
    rfl
  rw [hrefused.2, hsame, setCtrl, Function.update_eq_self]

/-- A call that returns a window has played the device there and has changed nothing else
but the device the window showed; a call that returns -1 has changed nothing. -/
theorem playVideo_allOrNothing {s : MainCtrl} (hs : Reachable step {} s) {d w : Int} {t : MainCtrl}
    (h : s.playVideo d = .ok w t) : (0 ≤ w ∧ PlaysIn s d w t) ∨ (w = -1 ∧ t = s) := by
  have htables : TablesLinked s := hs.invariant tables_init fun _ _ _ hu _ => step_tables hu
  have hinit : CtrlsOwn {} := fun _ => nofun
  have hown : CtrlsOwn s := hs.invariant hinit fun _ _ _ hu _ => step_own hu
  cases hdevice : lookup s.devices d with
  | none =>
    simp only [playVideo, hdevice, Outcome.ok.injEq] at h
    exact .inr ⟨h.1.symm, h.2.symm⟩
  | some device =>
    by_cases hready : device.isActive = false ∨ device.isPlaying = true
    · simp only [playVideo, hdevice, if_pos hready, Outcome.ok.injEq] at h
      exact .inr ⟨h.1.symm, h.2.symm⟩
    cases hwindow : lookup s.windows s.findWindow with
    | none =>
      simp only [playVideo, hdevice, if_neg hready, hwindow] at h
      split at h
      · obtain ⟨hw, ht⟩ := Outcome.ok.inj h
        exact .inr ⟨hw.symm, ht.symm⟩
      · cases h
    | some window =>
      have hactive : device.isActive = true := by simpa using (not_or.mp hready).1
      have hidle : device.isPlaying = false := by simpa using (not_or.mp hready).2
      rw [playVideo_of_ready hdevice hactive hidle hwindow] at h
      cases hplay : playIn window device (s.evicted window) with
      | crashed =>
        rw [hplay] at h
        cases h
      | raised f v =>
        rw [hplay] at h
        cases h
      | ok ret v =>
        rw [hplay] at h
        cases ret with
        | true =>
          obtain ⟨rfl, rfl⟩ := Outcome.ok.inj h
          exact .inl ⟨lookup_nonneg hwindow, playVideo_changes htables hdevice hidle hwindow
            (VideoCtrl.play_plays hplay)⟩
        | false =>
          obtain ⟨rfl, rfl⟩ := Outcome.ok.inj h
          exact .inr ⟨rfl, playIn_refused htables hown hwindow hplay⟩

/-- One window, in which the first of two devices is played. -/
def oneWindow : List Event :=
  loggedIn ++ [.addWindow 0, deviceAdded "rtmp://127.0.0.1/live/000001", deviceOnline,
    .playVideo 0,
    .addDevice "000002" (.body (some (.object [("code", .number 200),
      ("reply", .object [("rtmp_url", .string "rtmp://127.0.0.1/live/000002")])]))),
    .message (some (.object [("reply", .object [("operation", .string "device status change"),
      ("device_id", .string "000002"), ("device_status", .string "active")])]))]

/-- The second device takes the window over. -/
theorem playVideo_allOrNothing_takesOver :
    ∃ s t, exec step {} oneWindow = some s ∧ s.playVideo 1 = .ok 0 t ∧
      ((0 ≤ (0 : Int) ∧ PlaysIn s 1 0 t) ∨ ((0 : Int) = -1 ∧ t = s)) := by
  have hrun : ∃ s t, exec step {} oneWindow = some s ∧ s.playVideo 1 = .ok 0 t := ⟨_, _, rfl, rfl⟩
  obtain ⟨s, t, hexec, hplay⟩ := hrun
  exact ⟨s, t, hexec, hplay, playVideo_allOrNothing (reachable_of_exec hexec) hplay⟩

end MiniSurveillance.MainCtrl
