import MiniSurveillance.MainCtrl

/-!
# Devices and windows point to each other

Whatever happens to the `VideoCtrl` of a window, the two tables agree on which
device is shown in which window: `TablesLinked` holds in every run (`step_tables`),
also when `play` raises, and when two windows share a `VideoCtrl`.
-/

namespace MiniSurveillance.MainCtrl
open Table Text Runs

/-- A device that is playing and the window that shows it point to each other. -/
structure TablesLinked (s : MainCtrl) : Prop where
  device_playing : ∀ d device, lookup s.devices d = some device →
    (device.isPlaying = true ↔ device.windowIdx ≠ -1)
  device_window : ∀ d device, lookup s.devices d = some device → device.windowIdx ≠ -1 →
    ∃ window, lookup s.windows device.windowIdx = some window ∧
      window.isPlaying = true ∧ window.deviceIdx = d
  window_playing : ∀ w window, lookup s.windows w = some window →
    (window.isPlaying = true ↔ window.deviceIdx ≠ -1)
  window_device : ∀ w window, lookup s.windows w = some window → window.deviceIdx ≠ -1 →
    ∃ device, lookup s.devices window.deviceIdx = some device ∧ device.windowIdx = w

theorem tables_init : TablesLinked {} where
  device_playing := by simp
  device_window := by simp
  window_playing := by simp
  window_device := by simp

/-- Two devices never share a window. -/
theorem TablesLinked.device_unique {s : MainCtrl} (hs : TablesLinked s) {d e : Int}
    {a b : DeviceInfo} (ha : lookup s.devices d = some a) (hb : lookup s.devices e = some b)
    (hplaying : a.windowIdx ≠ -1) (hshared : a.windowIdx = b.windowIdx) : d = e := by
  obtain ⟨v, hv, _, hvd⟩ := hs.device_window d a ha hplaying
  obtain ⟨w, hw, _, hwe⟩ := hs.device_window e b hb (hshared ▸ hplaying)
  rw [hshared, hw] at hv
  cases hv
  exact hvd.symm.trans hwe

/-- Two windows never show one device. -/
theorem TablesLinked.window_unique {s : MainCtrl} (hs : TablesLinked s) {v w : Int}
    {a b : WindowInfo} (ha : lookup s.windows v = some a) (hb : lookup s.windows w = some b)
    (hplaying : a.deviceIdx ≠ -1) (hshared : a.deviceIdx = b.deviceIdx) : v = w := by
  obtain ⟨d, hd, hdv⟩ := hs.window_device v a ha hplaying
  obtain ⟨e, he, hew⟩ := hs.window_device w b hb (hshared ▸ hplaying)
  rw [hshared, he] at hd
  cases hd
  exact hdv.symm.trans hew

/-- A playing window shows a device that plays in it. -/
theorem TablesLinked.shown {s : MainCtrl} (hs : TablesLinked s) {w : Int} {window : WindowInfo}
    (hwindow : lookup s.windows w = some window) (hplaying : window.isPlaying = true) :
    ∃ device, lookup s.devices window.deviceIdx = some device ∧ device.windowIdx = w ∧
      device.isPlaying = true := by
  obtain ⟨device, hdevice, hback⟩ :=
    hs.window_device w window hwindow ((hs.window_playing w window hwindow).mp hplaying)
  exact ⟨device, hdevice, hback,
    (hs.device_playing _ device hdevice).mpr (hback ▸ ne_neg_one hwindow)⟩

/-! ## Freeing a window -/

/-- The device and its window are unlinked together. -/
theorem freed_tables {s t : MainCtrl} {d : Int} {device : DeviceInfo} {window : WindowInfo}
    (hs : TablesLinked s) (hdevice : lookup s.devices d = some device)
    (hwindow : lookup s.windows device.windowIdx = some window)
    (hdevices : Sets s.devices t.devices d device.stopped)
    (hwindows : Sets s.windows t.windows device.windowIdx window.freed) : TablesLinked t := by
  have hlinked : device.windowIdx ≠ -1 := ne_neg_one hwindow
  obtain ⟨window', hwindow', _, hshows⟩ := hs.device_window d device hdevice hlinked
  obtain rfl : window = window' := Option.some.inj (hwindow.symm.trans hwindow')
  refine ⟨?_, ?_, ?_, ?_⟩
  · intro e other h
    rcases hdevices.cases h with ⟨_, rfl⟩ | ⟨_, h⟩
    · exact iff_of_false nofun fun hne => hne rfl
    · exact hs.device_playing e other h
  · intro e other h hidx
    rcases hdevices.cases h with ⟨_, rfl⟩ | ⟨hne, h⟩
    · exact absurd rfl hidx
    · -- a link that is left is to another window
      obtain ⟨shows, hlookup, hrest⟩ := hs.device_window e other h hidx
      have hother : other.windowIdx ≠ device.windowIdx := fun heq =>
        hne (hs.device_unique h hdevice hidx heq)
      exact ⟨shows, (hwindows.of_ne hother).trans hlookup, hrest⟩
  · intro w other h
    rcases hwindows.cases h with ⟨_, rfl⟩ | ⟨_, h⟩
    · exact iff_of_false nofun fun hne => hne rfl
    · exact hs.window_playing w other h
  · intro w other h hidx
    rcases hwindows.cases h with ⟨_, rfl⟩ | ⟨hne, h⟩
    · exact absurd rfl hidx
    · obtain ⟨shown, hlookup, hrest⟩ := hs.window_device w other h hidx
      have hother : other.deviceIdx ≠ d := fun heq =>
        hne (hs.window_unique h hwindow' hidx (heq.trans hshows.symm))
      exact ⟨shown, (hdevices.of_ne hother).trans hlookup, hrest⟩

theorem stopVideo_eq {s : MainCtrl} {d : Int} {device : DeviceInfo} {window : WindowInfo}
    (hdevice : lookup s.devices d = some device)
    (hwindow : lookup s.windows device.windowIdx = some window) :
    s.stopVideo d =
      { s.setCtrl window.videoCtrl (s.ctrls window.videoCtrl).stop with
        windows := update s.windows device.windowIdx WindowInfo.freed
        devices := update s.devices d DeviceInfo.stopped } := by
  simp only [stopVideo, hdevice, hwindow]

/-- `stopVideo` does nothing to a device that is shown nowhere. -/
theorem stopVideo_cases (s : MainCtrl) (d : Int) :
    s.stopVideo d = s ∨
    ∃ device window, lookup s.devices d = some device ∧
      lookup s.windows device.windowIdx = some window ∧
      s.stopVideo d =
        { s.setCtrl window.videoCtrl (s.ctrls window.videoCtrl).stop with
          windows := update s.windows device.windowIdx WindowInfo.freed
          devices := update s.devices d DeviceInfo.stopped } := by
  cases hdevice : lookup s.devices d with
  | none => exact .inl (by simp only [stopVideo, hdevice])
  | some device =>
    cases hwindow : lookup s.windows device.windowIdx with
    | none => exact .inl (by simp only [stopVideo, hdevice, hwindow])
    | some window => exact .inr ⟨device, window, rfl, hwindow, stopVideo_eq hdevice hwindow⟩

theorem stopVideo_tables {s : MainCtrl} (d : Int) (hs : TablesLinked s) :
    TablesLinked (s.stopVideo d) := by
  rcases stopVideo_cases s d with heq | ⟨device, window, hdevice, hwindow, heq⟩
  · rw [heq]
    exact hs
  · rw [heq]
    exact freed_tables hs hdevice hwindow (sets_update _ hdevice) (sets_update _ hwindow)

/-! ## Showing a device -/

/-- An idle device and a free window are linked together. -/
theorem shown_tables {s t : MainCtrl} {d w : Int} {device : DeviceInfo} {window : WindowInfo}
    (hs : TablesLinked s) (hdevice : lookup s.devices d = some device)
    (hidle : device.isPlaying = false) (hwindow : lookup s.windows w = some window)
    (hfree : window.isPlaying = false) (hdevices : Sets s.devices t.devices d (device.shownIn w))
    (hwindows : Sets s.windows t.windows w (window.showing d)) : TablesLinked t := by
  refine ⟨?_, ?_, ?_, ?_⟩
  · intro e other h
    rcases hdevices.cases h with ⟨_, rfl⟩ | ⟨_, h⟩
    · exact iff_of_true rfl (ne_neg_one hwindow)
    · exact hs.device_playing e other h
  · intro e other h hidx
    rcases hdevices.cases h with ⟨rfl, rfl⟩ | ⟨_, h⟩
    · exact ⟨_, hwindows.at, rfl, rfl⟩
    · -- no device is shown in the free window
      obtain ⟨shows, hlookup, hon, hback⟩ := hs.device_window e other h hidx
      have hother : other.windowIdx ≠ w := by
        rintro rfl
        rw [hwindow] at hlookup
        cases hlookup
        rw [hfree] at hon
        cases hon
      exact ⟨shows, (hwindows.of_ne hother).trans hlookup, hon, hback⟩
  · intro u other h
    rcases hwindows.cases h with ⟨_, rfl⟩ | ⟨_, h⟩
    · exact iff_of_true rfl (ne_neg_one hdevice)
    · exact hs.window_playing u other h
  · intro u other h hidx
    rcases hwindows.cases h with ⟨rfl, rfl⟩ | ⟨_, h⟩
    · exact ⟨_, hdevices.at, rfl⟩
    · -- no window shows the idle device
      obtain ⟨shown, hlookup, hback⟩ := hs.window_device u other h hidx
      have hother : other.deviceIdx ≠ d := by
        rintro rfl
        rw [hdevice] at hlookup
        cases hlookup
        have hon := (hs.device_playing _ device hdevice).mpr (hback ▸ ne_neg_one h)
        rw [hidle] at hon
        cases hon
      exact ⟨shown, (hdevices.of_ne hother).trans hlookup, hback⟩

/-- `playVideo` behind its tests: the window it picked is freed when it is playing. -/
def evicted (window : WindowInfo) (s : MainCtrl) : MainCtrl :=
  if window.isPlaying then s.stopVideo window.deviceIdx else s

/-- What `VideoCtrl::play` is called with for a device. -/
def playIn (window : WindowInfo) (device : DeviceInfo) (s : MainCtrl) :
    Outcome Fault VideoCtrl Bool :=
  (s.ctrls window.videoCtrl).play (cStr device.rtmpUrl) (cStr device.encryption)

/-- `playVideo` of a device that is ready, when there is a window. -/
theorem playVideo_of_ready {s : MainCtrl} {d : Int} {device : DeviceInfo} {window : WindowInfo}
    (hdevice : lookup s.devices d = some device) (hactive : device.isActive = true)
    (hidle : device.isPlaying = false) (hwindow : lookup s.windows s.findWindow = some window) :
    s.playVideo d = ((playIn window device (s.evicted window)).mapState
      ((s.evicted window).setCtrl window.videoCtrl)).bind fun ret t =>
        if ret then .ok s.findWindow (t.showDevice d s.findWindow) else .ok (-1) t := by
  have hready : ¬ (device.isActive = false ∨ device.isPlaying = true) := by simp [hactive, hidle]
  simp only [playVideo, hdevice, hwindow, if_neg hready, if_neg (ne_neg_one hwindow)]
  rfl

/-- A call of `playVideo` does nothing, or frees a window and then shows the device in
it; where `play` fails or raises the window stays free. -/
theorem playVideo_cases {s t : MainCtrl} {d : Int} (h : (s.playVideo d).after = some t) :
    t = s ∨
    ∃ device window v, lookup s.devices d = some device ∧ device.isActive = true ∧
      device.isPlaying = false ∧ lookup s.windows s.findWindow = some window ∧
      ((playIn window device (s.evicted window) = .ok true v ∧
          t = ((s.evicted window).setCtrl window.videoCtrl v).showDevice d s.findWindow) ∨
        ((playIn window device (s.evicted window) = .ok false v ∨
            ∃ f, playIn window device (s.evicted window) = .raised f v) ∧
          t = (s.evicted window).setCtrl window.videoCtrl v)) := by
  cases hdevice : lookup s.devices d with
  | none =>
    simp only [playVideo, hdevice] at h
    exact .inl (Option.some.inj h).symm
  | some device =>
    by_cases hready : device.isActive = false ∨ device.isPlaying = true
    · simp only [playVideo, hdevice, if_pos hready] at h
      exact .inl (Option.some.inj h).symm
    cases hwindow : lookup s.windows s.findWindow with
    | none =>
      simp only [playVideo, hdevice, if_neg hready, hwindow] at h
      split at h
      · exact .inl (Option.some.inj h).symm
      · cases h
    | some window =>
      have hactive : device.isActive = true := by simpa using (not_or.mp hready).1
      have hidle : device.isPlaying = false := by simpa using (not_or.mp hready).2
      rw [playVideo_of_ready hdevice hactive hidle hwindow] at h
      cases hplay : playIn window device (s.evicted window) with
      | crashed =>
        rw [hplay] at h
        cases h
      | raised f v =>
        rw [hplay] at h
        exact .inr ⟨device, window, v, rfl, hactive, hidle, rfl,
          .inr ⟨.inr ⟨f, hplay⟩, (Option.some.inj h).symm⟩⟩
      | ok ret v =>
        rw [hplay] at h
        cases ret with
        | true =>
          exact .inr ⟨device, window, v, rfl, hactive, hidle, rfl,
            .inl ⟨hplay, (Option.some.inj h).symm⟩⟩
        | false =>
          exact .inr ⟨device, window, v, rfl, hactive, hidle, rfl,
            .inr ⟨.inl hplay, (Option.some.inj h).symm⟩⟩

/-- Freeing a window leaves a device alone that is not playing. -/
theorem evicted_tables {s : MainCtrl} {d w : Int} {device : DeviceInfo} {window : WindowInfo}
    (hs : TablesLinked s) (hdevice : lookup s.devices d = some device)
    (hidle : device.isPlaying = false) (hwindow : lookup s.windows w = some window) :
    TablesLinked (s.evicted window) ∧ lookup (s.evicted window).devices d = some device ∧
    ∃ window', lookup (s.evicted window).windows w = some window' ∧ window'.isPlaying = false ∧
      window'.videoCtrl = window.videoCtrl := by
  unfold evicted
  cases hplaying : window.isPlaying with
  | false => exact ⟨hs, hdevice, window, hwindow, hplaying, rfl⟩
  | true =>
    obtain ⟨shown, hshown, rfl, hon⟩ := hs.shown hwindow hplaying
    have hne : d ≠ window.deviceIdx := by
      rintro rfl
      rw [hdevice] at hshown
      cases hshown
      rw [hidle] at hon
      cases hon
    rw [if_pos rfl]
    refine ⟨stopVideo_tables _ hs, ?_⟩
    rw [stopVideo_eq hshown hwindow]
    exact ⟨((sets_update _ hshown).of_ne hne).trans hdevice, window.freed,
      (sets_update _ hwindow).at, rfl, rfl⟩

theorem playVideo_tables {s t : MainCtrl} {d : Int} (hs : TablesLinked s)
    (h : (s.playVideo d).after = some t) : TablesLinked t := by
  rcases playVideo_cases h with rfl | ⟨device, window, v, hdevice, _, hidle, hwindow, hdone⟩
  · exact hs
  obtain ⟨htables, hdevice', window', hwindow', hfree, _⟩ :=
    evicted_tables hs hdevice hidle hwindow
  have hsame : TablesLinked ((s.evicted window).setCtrl window.videoCtrl v) :=
    ⟨htables.device_playing, htables.device_window, htables.window_playing, htables.window_device⟩
  rcases hdone with ⟨_, rfl⟩ | ⟨_, rfl⟩
  · exact shown_tables hsame hdevice' hidle hwindow' hfree (sets_update _ hdevice')
      (sets_update _ hwindow')
  · exact hsame

/-! ## The other calls -/

/-- The fields of a device that say where it is shown. -/
def shownAt (device : DeviceInfo) : Bool × Int := (device.isPlaying, device.windowIdx)

/-- Nothing but the links counts. -/
theorem TablesLinked.congr {s t : MainCtrl} (hs : TablesLinked s)
    (hdevices : t.devices.map shownAt = s.devices.map shownAt) (hwindows : t.windows = s.windows) :
    TablesLinked t := by
  have hlink : ∀ i, (lookup t.devices i).map shownAt = (lookup s.devices i).map shownAt := by
    intro i
    rw [← lookup_map, ← lookup_map, hdevices]
  have hback (d : Int) (device : DeviceInfo) (hd : lookup t.devices d = some device) :
      ∃ old, lookup s.devices d = some old ∧ old.isPlaying = device.isPlaying ∧
        old.windowIdx = device.windowIdx := by
    have hsame := hlink d
    rw [hd] at hsame
    obtain ⟨old, hold, heq⟩ := Option.map_eq_some_iff.mp hsame.symm
    exact ⟨old, hold, Prod.mk.inj heq⟩
  refine ⟨?_, ?_, ?_, ?_⟩
  · intro d device hd
    obtain ⟨old, hold, hplaying, hidx⟩ := hback d device hd
    rw [← hplaying, ← hidx]
    exact hs.device_playing d old hold
  · intro d device hd hne
    obtain ⟨old, hold, _, hidx⟩ := hback d device hd
    rw [← hidx] at hne ⊢
    rw [hwindows]
    exact hs.device_window d old hold hne
  · rw [hwindows]
    exact hs.window_playing
  · intro w window hw hne
    rw [hwindows] at hw
    obtain ⟨old, hold, hidx⟩ := hs.window_device w window hw hne
    have hsame := hlink window.deviceIdx
    rw [hold] at hsame
    obtain ⟨device, hdevice, heq⟩ := Option.map_eq_some_iff.mp hsame
    exact ⟨device, hdevice, (Prod.mk.inj heq).2.trans hidx⟩

theorem SameTables.tables {s t : MainCtrl} (h : SameTables s t) (hs : TablesLinked s) :
    TablesLinked t := hs.congr (by rw [h.devices]) h.windows

theorem addDevice_tables {s t : MainCtrl} {key : String} (hs : TablesLinked s)
    (h : Added key s t) : TablesLinked t := by
  obtain ⟨name, rtmpUrl, encryption, hdevices, hwindows, _⟩ := h
  dsimp only at hdevices hwindows
  have hsets := sets_append s.devices ⟨name, key, rtmpUrl, encryption, false, false, false, -1⟩
  rw [← hdevices] at hsets
  refine ⟨?_, ?_, ?_, ?_⟩
  · intro d device h
    rcases hsets.cases h with ⟨_, rfl⟩ | ⟨_, h⟩
    · exact iff_of_false nofun fun hne => hne rfl
    · exact hs.device_playing d device h
  · intro d device h hidx
    rw [hwindows]
    rcases hsets.cases h with ⟨_, rfl⟩ | ⟨_, h⟩
    · exact absurd rfl hidx
    · exact hs.device_window d device h hidx
  · rw [hwindows]
    exact hs.window_playing
  · intro w window h hidx
    rw [hwindows] at h
    obtain ⟨device, hdevice, hback⟩ := hs.window_device w window h hidx
    exact ⟨device, (hsets.of_ne (Int.ne_of_lt (lookup_lt hdevice))).trans hdevice, hback⟩

theorem addWindow_tables {s : MainCtrl} (p : Nat) (hs : TablesLinked s) :
    TablesLinked (s.addWindow p) := by
  have hsets : Sets s.windows (s.addWindow p).windows s.windows.length ⟨false, -1, p⟩ :=
    sets_append _ _
  refine ⟨hs.device_playing, ?_, ?_, ?_⟩
  · intro d device h hidx
    obtain ⟨window, hwindow, hrest⟩ := hs.device_window d device h hidx
    exact ⟨window, (hsets.of_ne (Int.ne_of_lt (lookup_lt hwindow))).trans hwindow, hrest⟩
  · intro w window h
    rcases hsets.cases h with ⟨_, rfl⟩ | ⟨_, h⟩
    · exact iff_of_false nofun fun hne => hne rfl
    · exact hs.window_playing w window h
  · intro w window h hidx
    rcases hsets.cases h with ⟨_, rfl⟩ | ⟨_, h⟩
    · exact absurd rfl hidx
    · exact hs.window_device w window h hidx

/-- The audio calls and the messages change no link. -/
theorem playAudio_shownAt (s : MainCtrl) (w : Int) :
    (s.playAudio w).devices.map shownAt = s.devices.map shownAt ∧
      (s.playAudio w).windows = s.windows := by
  unfold playAudio
  split
  · exact ⟨rfl, rfl⟩
  split
  · exact ⟨rfl, rfl⟩
  split
  · exact ⟨map_update _ _ fun _ => rfl, rfl⟩
  · exact ⟨rfl, rfl⟩

theorem stopAudio_shownAt (s : MainCtrl) (w : Int) :
    (s.stopAudio w).devices.map shownAt = s.devices.map shownAt ∧
      (s.stopAudio w).windows = s.windows := by
  unfold stopAudio
  split
  · exact ⟨rfl, rfl⟩
  split
  · exact ⟨rfl, rfl⟩
  · dsimp only
    split
    · exact ⟨map_update _ _ fun _ => rfl, rfl⟩
    · exact ⟨map_update _ _ fun _ => rfl, rfl⟩

theorem message_shownAt {s t : MainCtrl} {msg : Option Json}
    (h : (s.messageHandle msg).afterUncaught = some t) :
    t.devices.map shownAt = s.devices.map shownAt ∧ t.windows = s.windows := by
  rcases messageHandle_cases h with ⟨_, rfl⟩ | ⟨k, status, _, ⟨_, _, rfl⟩ | ⟨_, rfl⟩⟩
  · exact ⟨rfl, rfl⟩
  · exact ⟨markDevice_map _ _ _ (fun _ => rfl) _, rfl⟩
  · exact ⟨rfl, rfl⟩

theorem pullThreadEnds_eq {s t : MainCtrl} {p : Nat} (h : s.pullThreadEnds p = some t) :
    ∃ v, t = s.setCtrl p v := by
  unfold pullThreadEnds at h
  split at h
  · exact ⟨_, (Option.some.inj h).symm⟩
  · cases h

/-! ## What the player calls leave alone -/

/-- Nothing but the tables and the window objects changed. -/
def TablesOnly (s t : MainCtrl) : Prop :=
  ∃ devices windows ctrls, t = { s with
    devices := devices
    windows := windows
    ctrls := ctrls }

theorem TablesOnly.refl (s : MainCtrl) : TablesOnly s s := ⟨_, _, _, rfl⟩

theorem TablesOnly.trans {s t u : MainCtrl} (h : TablesOnly s t) (h' : TablesOnly t u) :
    TablesOnly s u := by
  obtain ⟨_, _, _, rfl⟩ := h
  obtain ⟨_, _, _, rfl⟩ := h'
  exact ⟨_, _, _, rfl⟩

theorem stopVideo_tablesOnly (s : MainCtrl) (d : Int) : TablesOnly s (s.stopVideo d) := by
  rcases stopVideo_cases s d with heq | ⟨device, window, _, _, heq⟩
  · rw [heq]
    exact .refl s
  · rw [heq]
    exact ⟨_, _, _, rfl⟩

theorem evicted_tablesOnly (s : MainCtrl) (window : WindowInfo) :
    TablesOnly s (s.evicted window) := by
  unfold evicted
  split
  · exact stopVideo_tablesOnly s window.deviceIdx
  · exact .refl s

theorem playVideo_tablesOnly {s t : MainCtrl} {d : Int} (h : (s.playVideo d).after = some t) :
    TablesOnly s t := by
  rcases playVideo_cases h with rfl | ⟨device, window, v, _, _, _, _, ⟨_, rfl⟩ | ⟨_, rfl⟩⟩
  · exact .refl t
  · exact (evicted_tablesOnly s window).trans ⟨_, _, _, rfl⟩
  · exact (evicted_tablesOnly s window).trans ⟨_, _, _, rfl⟩

theorem playAudio_tablesOnly (s : MainCtrl) (w : Int) : TablesOnly s (s.playAudio w) := by
  unfold playAudio
  split
  · exact .refl s
  split
  · exact .refl s
  split
  · exact ⟨_, _, _, rfl⟩
  · exact .refl s

theorem stopAudio_tablesOnly (s : MainCtrl) (w : Int) : TablesOnly s (s.stopAudio w) := by
  unfold stopAudio
  split
  · exact .refl s
  split
  · exact .refl s
  · dsimp only
    split
    · exact ⟨_, _, _, rfl⟩
    · exact ⟨_, _, _, rfl⟩

theorem message_tablesOnly {s t : MainCtrl} {msg : Option Json}
    (h : (s.messageHandle msg).afterUncaught = some t) : TablesOnly s t := by
  rcases messageHandle_cases h with ⟨_, rfl⟩ | ⟨k, status, _, ⟨_, _, rfl⟩ | ⟨_, rfl⟩⟩
  · exact .refl t
  · exact ⟨_, _, _, rfl⟩
  · exact .refl t

/-- The calls that ask the server nothing, the messages and the ends of pull threads. -/
def staysHere : Event → Bool
  | .addWindow _ | .playVideo _ | .playAudio _ | .stopVideo _ | .stopAudio _ => true
  | .message _ | .pullThreadEnds _ => true
  | _ => false

theorem step_tablesOnly {s t : MainCtrl} {e : Event} (h : step s e = some t)
    (he : staysHere e = true) : TablesOnly s t := by
  cases e with
  | addWindow p =>
    obtain rfl := Option.some.inj h
    exact ⟨_, _, _, rfl⟩
  | playVideo d => exact playVideo_tablesOnly h
  | playAudio w =>
    obtain rfl := Option.some.inj h
    exact playAudio_tablesOnly s w
  | stopVideo d =>
    obtain rfl := Option.some.inj h
    exact stopVideo_tablesOnly s d
  | stopAudio w =>
    obtain rfl := Option.some.inj h
    exact stopAudio_tablesOnly s w
  | message msg =>
    simp only [step] at h
    split at h
    · exact message_tablesOnly h
    · cases h
  | pullThreadEnds p =>
    obtain ⟨v, rfl⟩ := pullThreadEnds_eq h
    exact ⟨_, _, _, rfl⟩
  | _ => cases he

/-! ## Steps -/

theorem step_tables {s t : MainCtrl} {e : Event} (hs : TablesLinked s) (h : step s e = some t) :
    TablesLinked t := by
  cases e with
  | setServerIp ip =>
    obtain rfl := Option.some.inj h
    exact (setServerIp_sameTables s ip).tables hs
  | setServerPort port =>
    obtain rfl := Option.some.inj h
    exact (setServerPort_sameTables s port).tables hs
  | addDevice key r =>
    rcases addDevice_leaves s key r t h with ⟨hsame, _⟩ | ⟨hadded, _⟩
    · exact hsame.tables hs
    · exact addDevice_tables hs hadded
  | addWindow p =>
    obtain rfl := Option.some.inj h
    exact addWindow_tables p hs
  | playVideo d => exact playVideo_tables hs h
  | playAudio w =>
    obtain rfl := Option.some.inj h
    exact hs.congr (playAudio_shownAt s w).1 (playAudio_shownAt s w).2
  | stopVideo d =>
    obtain rfl := Option.some.inj h
    exact stopVideo_tables d hs
  | stopAudio w =>
    obtain rfl := Option.some.inj h
    exact hs.congr (stopAudio_shownAt s w).1 (stopAudio_shownAt s w).2
  | startTalk w r => exact (startTalk_sameTables s w r t h).tables hs
  | stopTalk w r => exact (stopTalk_sameTables s w r t h).tables hs
  | registerUser username password r =>
    exact (registerUser_sameTables s username password r t h).tables hs
  | loginUser username password r =>
    exact (loginUser_sameTables s username password r t h).tables hs
  | message msg =>
    simp only [step] at h
    split at h
    · exact hs.congr (message_shownAt h).1 (message_shownAt h).2
    · cases h
  | pullThreadEnds p =>
    obtain ⟨v, rfl⟩ := pullThreadEnds_eq h
    exact hs.congr rfl rfl

end MiniSurveillance.MainCtrl
