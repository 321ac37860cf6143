import MiniSurveillance.MainTables

/-!
# Devices and windows stay linked

Which device is shown in which window is stored three times: in the device, in the
window, and as the playing state of the window's `VideoCtrl`. `Linked` says that the
three agree.

* `stopVideo_inv`, `playVideo_inv`, `playAudio_inv`, `stopAudio_inv`: the calls that
  write a part of the link keep it.
* `linked_of_longUrls`: it holds in every run in which each window gets a `VideoCtrl`
  of its own and the stream URLs are long enough.
* `short_cString_unlinks`: a URL that `c_str()` cuts short breaks it.
-/

namespace MiniSurveillance.MainCtrl
open Table Text Runs

/-- A device and the window it is shown in point to each other, and the copies of
the playing state agree. -/
structure Linked (s : MainCtrl) : Prop where
  device_playing : ∀ d device, lookup s.devices d = some device →
    (device.isPlaying = true ↔ device.windowIdx ≠ -1)
  device_window : ∀ d device, lookup s.devices d = some device → device.windowIdx ≠ -1 →
    ∃ window, lookup s.windows device.windowIdx = some window ∧
      window.isPlaying = true ∧ window.deviceIdx = d
  window_playing : ∀ w window, lookup s.windows w = some window →
    (window.isPlaying = true ↔ window.deviceIdx ≠ -1)
  window_device : ∀ w window, lookup s.windows w = some window → window.deviceIdx ≠ -1 →
    ∃ device, lookup s.devices window.deviceIdx = some device ∧ device.windowIdx = w
  ctrl_playing : ∀ w window, lookup s.windows w = some window →
    (s.ctrls window.videoCtrl).isPlaying = window.isPlaying
  ctrl_audio : ∀ w window device, lookup s.windows w = some window → window.isPlaying = true →
    lookup s.devices window.deviceIdx = some device →
    (s.ctrls window.videoCtrl).isPlayingAudio = device.isPlayingAudio
  quiet : ∀ d device, lookup s.devices d = some device → device.isPlaying = false →
    device.isPlayingAudio = false

def ptrs (s : MainCtrl) : List Nat := s.windows.map WindowInfo.videoCtrl

/-- Every window has an object of its own, and an object no window has is not playing. -/
structure OwnCtrls (s : MainCtrl) : Prop where
  nodup : s.ptrs.Nodup
  unused : ∀ p, p ∉ s.ptrs → (s.ctrls p).isPlaying = false

structure Inv (s : MainCtrl) : Prop extends Linked s, OwnCtrls s

theorem Linked.tables {s : MainCtrl} (hs : Linked s) : TablesLinked s :=
  ⟨hs.device_playing, hs.device_window, hs.window_playing, hs.window_device⟩

/-- The tables are linked, and the objects of the windows agree with them. -/
theorem TablesLinked.linked {s : MainCtrl} (hs : TablesLinked s)
    (hplaying : ∀ w window, lookup s.windows w = some window →
      (s.ctrls window.videoCtrl).isPlaying = window.isPlaying)
    (haudio : ∀ w window device, lookup s.windows w = some window → window.isPlaying = true →
      lookup s.devices window.deviceIdx = some device →
      (s.ctrls window.videoCtrl).isPlayingAudio = device.isPlayingAudio)
    (hquiet : ∀ d device, lookup s.devices d = some device → device.isPlaying = false →
      device.isPlayingAudio = false) : Linked s :=
  ⟨hs.device_playing, hs.device_window, hs.window_playing, hs.window_device, hplaying, haudio, hquiet⟩

/-- Windows with one object are one window. -/
theorem OwnCtrls.distinct {s : MainCtrl} (hs : OwnCtrls s) {v w : Int} {a b : WindowInfo}
    (ha : lookup s.windows v = some a) (hb : lookup s.windows w = some b)
    (hshared : a.videoCtrl = b.videoCtrl) : v = w := by
  refine lookup_inj hs.nodup (a := b.videoCtrl) ?_ ?_
  · rw [ptrs, lookup_map, ha, Option.map_some, hshared]
  · rw [ptrs, lookup_map, hb, Option.map_some]

/-- The windows keep their objects, and only objects of windows may start to play. -/
theorem OwnCtrls.keep {s t : MainCtrl} (hs : OwnCtrls s) (hptrs : t.ptrs = s.ptrs)
    (hctrls : ∀ p, p ∉ s.ptrs → t.ctrls p = s.ctrls p) : OwnCtrls t := by
  refine ⟨hptrs ▸ hs.nodup, fun p hp => ?_⟩
  rw [hptrs] at hp
  rw [hctrls p hp]
  exact hs.unused p hp

theorem ptr_mem {s : MainCtrl} {w : Int} {window : WindowInfo}
    (h : lookup s.windows w = some window) : window.videoCtrl ∈ s.ptrs :=
  List.mem_map_of_mem (lookup_mem h)

theorem inv_init : Inv {} where
  device_playing := by simp
  device_window := by simp
  window_playing := by simp
  window_device := by simp
  ctrl_playing := by simp
  ctrl_audio := by simp
  quiet := by simp
  nodup := List.nodup_nil
  unused _ _ := rfl

/-- The steps that change one window and its object: the window's entry, the
object, and what stays. -/
structure ChangesWindow (s t : MainCtrl) (w : Int) (window window' : WindowInfo)
    (v : VideoCtrl) : Prop where
  before : lookup s.windows w = some window
  sets : Sets s.windows t.windows w window'
  ptrs : t.ptrs = s.ptrs
  ctrls : t.ctrls = Function.update s.ctrls window.videoCtrl v

section ChangesWindow

variable {s t : MainCtrl} {w : Int} {window window' : WindowInfo} {v : VideoCtrl}

theorem ChangesWindow.ownCtrls (h : ChangesWindow s t w window window' v) (hs : OwnCtrls s) :
    OwnCtrls t := by
  refine hs.keep h.ptrs fun p hp => ?_
  rw [h.ctrls, Function.update_of_ne]
  rintro rfl
  exact hp (ptr_mem h.before)

theorem ChangesWindow.ctrl_self (h : ChangesWindow s t w window window' v) :
    t.ctrls window.videoCtrl = v := by
  rw [h.ctrls, Function.update_self]

/-- The objects of the other windows are as they were. -/
theorem ChangesWindow.ctrl_other (h : ChangesWindow s t w window window' v) (hs : OwnCtrls s)
    {u : Int} {other : WindowInfo} (hu : lookup s.windows u = some other) (hne : u ≠ w) :
    t.ctrls other.videoCtrl = s.ctrls other.videoCtrl := by
  rw [h.ctrls, Function.update_of_ne fun heq => hne (hs.distinct hu h.before heq)]

end ChangesWindow

/-! ## Freeing a window -/

/-- The device and its window are unlinked together, and the object stops. -/
theorem freed_inv {s t : MainCtrl} {d : Int} {device : DeviceInfo} {window : WindowInfo}
    (hs : Inv s) (hdevice : lookup s.devices d = some device)
    (hdevices : Sets s.devices t.devices d device.stopped)
    (hchange : ChangesWindow s t device.windowIdx window window.freed
      (s.ctrls window.videoCtrl).stop) : Inv t := by
  have hlinked : device.windowIdx ≠ -1 := ne_neg_one hchange.before
  obtain ⟨window', hwindow', hplaying, hshows⟩ := hs.device_window d device hdevice hlinked
  obtain rfl : window = window' := Option.some.inj (hchange.before.symm.trans hwindow')
  have htables := freed_tables hs.tables hdevice hwindow' hdevices hchange.sets
  refine ⟨htables.linked ?_ ?_ ?_, hchange.ownCtrls hs.toOwnCtrls⟩
  · intro w other h
    rcases hchange.sets.cases h with ⟨_, rfl⟩ | ⟨hne, h⟩
    · exact (congrArg VideoCtrl.isPlaying hchange.ctrl_self).trans (VideoCtrl.stop_isPlaying _)
    · rw [hchange.ctrl_other hs.toOwnCtrls h hne]
      exact hs.ctrl_playing w other h
  · intro w other e h hon he
    rcases hchange.sets.cases h with ⟨_, rfl⟩ | ⟨hne, h⟩
    · cases hon
    · -- a window that still plays shows another device
      have hidx := (hs.window_playing w other h).mp hon
      have hother : other.deviceIdx ≠ d := fun heq =>
        hne (hs.tables.window_unique h hwindow' hidx (heq.trans hshows.symm))
      rw [hdevices.of_ne hother] at he
      rw [hchange.ctrl_other hs.toOwnCtrls h hne]
      exact hs.ctrl_audio w other e h hon he
  · intro e other h hoff
    rcases hdevices.cases h with ⟨_, rfl⟩ | ⟨_, h⟩
    · rfl
    · exact hs.quiet e other h hoff

theorem stopVideo_inv {s : MainCtrl} (d : Int) (hs : Inv s) : Inv (s.stopVideo d) := by
  rcases stopVideo_cases s d with heq | ⟨device, window, hdevice, hwindow, heq⟩
  · rw [heq]
    exact hs
  · rw [heq]
    exact freed_inv hs hdevice (sets_update _ hdevice)
      ⟨hwindow, sets_update _ hwindow, map_update _ _ fun _ => rfl, rfl⟩

/-- What `playVideo` does first. -/
theorem evicted_inv {s : MainCtrl} (window : WindowInfo) (hs : Inv s) : Inv (s.evicted window) := by
  unfold evicted
  split
  · exact stopVideo_inv _ hs
  · exact hs

/-! ## Showing a device -/

/-- An idle device and a free window are linked together, and the object plays. -/
theorem shown_inv {s t : MainCtrl} {d w : Int} {device : DeviceInfo} {window : WindowInfo}
    {v : VideoCtrl} (hs : Inv s) (hdevice : lookup s.devices d = some device)
    (hidle : device.isPlaying = false) (hfree : window.isPlaying = false)
    (hdevices : Sets s.devices t.devices d (device.shownIn w))
    (hchange : ChangesWindow s t w window (window.showing d) v)
    (hplays : v.isPlaying = true) (hsilent : v.isPlayingAudio = false) : Inv t := by
  have hwindow := hchange.before
  have htables := shown_tables hs.tables hdevice hidle hwindow hfree hdevices hchange.sets
  refine ⟨htables.linked ?_ ?_ ?_, hchange.ownCtrls hs.toOwnCtrls⟩
  · intro u other h
    rcases hchange.sets.cases h with ⟨_, rfl⟩ | ⟨hne, h⟩
    · exact (congrArg VideoCtrl.isPlaying hchange.ctrl_self).trans hplays
    · rw [hchange.ctrl_other hs.toOwnCtrls h hne]
      exact hs.ctrl_playing u other h
  · intro u other e h hon he
    rcases hchange.sets.cases h with ⟨_, rfl⟩ | ⟨hne, h⟩
    · -- the device was idle, so it is silent, and `play` makes the object silent
      obtain rfl : device.shownIn w = e := Option.some.inj (hdevices.at.symm.trans he)
      exact ((congrArg VideoCtrl.isPlayingAudio hchange.ctrl_self).trans hsilent).trans
        (hs.quiet d device hdevice hidle).symm
    · -- no window shows the idle device
      have hother : other.deviceIdx ≠ d := by
        obtain ⟨shown, hshown, _, hplays'⟩ := hs.tables.shown h hon
        rintro rfl
        rw [hdevice] at hshown
        cases hshown
        rw [hidle] at hplays'
        cases hplays'
      rw [hdevices.of_ne hother] at he
      rw [hchange.ctrl_other hs.toOwnCtrls h hne]
      exact hs.ctrl_audio u other e h hon he
  · intro e other h hoff
    rcases hdevices.cases h with ⟨_, rfl⟩ | ⟨_, h⟩
    · cases hoff
    · exact hs.quiet e other h hoff

/-- The object of a free window may change while it does not play. -/
theorem idleCtrl_inv {s : MainCtrl} {w : Int} {window : WindowInfo} {v : VideoCtrl} (hs : Inv s)
    (hwindow : lookup s.windows w = some window) (hfree : window.isPlaying = false)
    (hidle : v.isPlaying = false) : Inv (s.setCtrl window.videoCtrl v) := by
  have hchange : ChangesWindow s (s.setCtrl window.videoCtrl v) w window window v :=
    ⟨hwindow, sets_self hwindow, rfl, rfl⟩
  refine ⟨⟨hs.device_playing, hs.device_window, hs.window_playing, hs.window_device, ?_, ?_,
    hs.quiet⟩, hchange.ownCtrls hs.toOwnCtrls⟩
  · intro u other h
    by_cases hu : u = w
    · subst hu
      obtain rfl : window = other := Option.some.inj (hwindow.symm.trans h)
      exact (congrArg VideoCtrl.isPlaying hchange.ctrl_self).trans (hidle.trans hfree.symm)
    · rw [hchange.ctrl_other hs.toOwnCtrls h hu]
      exact hs.ctrl_playing u other h
  · intro u other e h hon he
    have hu : u ≠ w := by
      rintro rfl
      obtain rfl : window = other := Option.some.inj (hwindow.symm.trans h)
      rw [hfree] at hon
      cases hon
    rw [hchange.ctrl_other hs.toOwnCtrls h hu]
    exact hs.ctrl_audio u other e h hon he

/-- Behind `c_str()` every stream URL still has the six characters that
`VideoCtrl::play` cuts off its end. -/
def LongUrls (s : MainCtrl) : Prop :=
  ∀ device ∈ s.devices, 6 ≤ utf16Length (cStr device.rtmpUrl)

/-- Six characters are enough. -/
theorem longUrls_of_length {s : MainCtrl}
    (h : ∀ device ∈ s.devices, 6 ≤ (cStr device.rtmpUrl).length) : LongUrls s :=
  fun device hdevice => Nat.le_trans (h device hdevice) (length_le_utf16Length _)

theorem playVideo_inv {s : MainCtrl} (d : Int) (hs : Inv s) (hurls : LongUrls s) :
    (s.playVideo d).Leaves Inv := by
  intro t h
  rcases playVideo_cases h with rfl | ⟨device, window, v, hdevice, _, hidle, hwindow, hdone⟩
  · exact hs
  obtain ⟨_, hdevice', window', hwindow', hfree, hsame⟩ :=
    evicted_tables hs.tables hdevice hidle hwindow
  have hinv := evicted_inv window hs
  have hctrl : ((s.evicted window).ctrls window'.videoCtrl).isPlaying = false :=
    (hinv.ctrl_playing _ window' hwindow').trans hfree
  obtain ⟨name, _, hplay⟩ :=
    VideoCtrl.play_of_long (cStr device.encryption) hctrl (hurls device (lookup_mem hdevice))
  rw [playIn, ← hsame, hplay] at hdone
  -- with a URL that long `play` starts to pull, or finds a pull thread and gives up
  split at hdone
  · rcases hdone with ⟨hv, rfl⟩ | ⟨hv | ⟨f, hv⟩, _⟩
    · cases hv
      exact shown_inv hinv hdevice' hidle hfree (sets_update _ hdevice')
        ⟨hwindow', sets_update _ hwindow', map_update _ _ fun _ => rfl, rfl⟩ rfl rfl
    · cases hv
    · cases hv
  · rcases hdone with ⟨hv, _⟩ | ⟨hv | ⟨f, hv⟩, rfl⟩
    · cases hv
    · cases hv
      exact idleCtrl_inv hinv hwindow' hfree rfl
    · cases hv
  · rcases hdone with ⟨hv, _⟩ | ⟨hv | ⟨f, hv⟩, _⟩
    · cases hv
    · cases hv
    · cases hv

/-! ## Audio -/

/-- The audio states of a playing window's object and of its device change together. -/
theorem audio_inv {s t : MainCtrl} {w : Int} {window : WindowInfo} {device : DeviceInfo}
    {on : Bool} {v : VideoCtrl} (hs : Inv s) (hwindow : lookup s.windows w = some window)
    (hplaying : window.isPlaying = true) (hdevice : lookup s.devices window.deviceIdx = some device)
    (hdevices : Sets s.devices t.devices window.deviceIdx { device with isPlayingAudio := on })
    (hwindows : t.windows = s.windows)
    (hctrls : t.ctrls = Function.update s.ctrls window.videoCtrl v)
    (hv : v.isPlaying = (s.ctrls window.videoCtrl).isPlaying) (hon : v.isPlayingAudio = on) :
    Inv t := by
  have hchange : ChangesWindow s t w window window v :=
    ⟨hwindow, by rw [hwindows]; exact sets_self hwindow, by rw [ptrs, hwindows]; rfl, hctrls⟩
  have hshows := (hs.window_playing w window hwindow).mp hplaying
  obtain ⟨device', hdevice', hback⟩ := hs.window_device w window hwindow hshows
  obtain rfl : device = device' := Option.some.inj (hdevice.symm.trans hdevice')
  refine ⟨⟨?_, ?_, ?_, ?_, ?_, ?_, ?_⟩, hchange.ownCtrls hs.toOwnCtrls⟩
  · intro e other h
    rcases hdevices.cases h with ⟨_, rfl⟩ | ⟨_, h⟩
    · exact hs.device_playing _ device hdevice
    · exact hs.device_playing e other h
  · intro e other h hidx
    rw [hwindows]
    rcases hdevices.cases h with ⟨rfl, rfl⟩ | ⟨_, h⟩
    · exact hs.device_window _ device hdevice hidx
    · exact hs.device_window e other h hidx
  · rw [hwindows]
    exact hs.window_playing
  · intro u other h hidx
    rw [hwindows] at h
    obtain ⟨shown, hlookup, hrest⟩ := hs.window_device u other h hidx
    by_cases hsame : other.deviceIdx = window.deviceIdx
    · rw [hsame, hdevice] at hlookup
      cases hlookup
      exact ⟨{ device with isPlayingAudio := on }, by rw [hsame]; exact hdevices.at, hrest⟩
    · exact ⟨shown, (hdevices.of_ne hsame).trans hlookup, hrest⟩
  · intro u other h
    rw [hwindows] at h
    by_cases hu : u = w
    · subst hu
      obtain rfl : window = other := Option.some.inj (hwindow.symm.trans h)
      exact ((congrArg VideoCtrl.isPlaying hchange.ctrl_self).trans hv).trans
        (hs.ctrl_playing _ window h)
    · rw [hchange.ctrl_other hs.toOwnCtrls h hu]
      exact hs.ctrl_playing u other h
  · intro u other e h hplays he
    rw [hwindows] at h
    by_cases hu : u = w
    · subst hu
      obtain rfl : window = other := Option.some.inj (hwindow.symm.trans h)
      obtain rfl := Option.some.inj (hdevices.at.symm.trans he)
      exact (congrArg VideoCtrl.isPlayingAudio hchange.ctrl_self).trans hon
    · have hidx := (hs.window_playing u other h).mp hplays
      rw [hdevices.of_ne fun hsame => hu (hs.tables.window_unique h hwindow hidx hsame)] at he
      rw [hchange.ctrl_other hs.toOwnCtrls h hu]
      exact hs.ctrl_audio u other e h hplays he
  · intro e other h hoff
    rcases hdevices.cases h with ⟨_, rfl⟩ | ⟨_, h⟩
    · -- the device is shown in the window, so it is playing
      have hplays := (hs.device_playing _ device hdevice).mpr (hback ▸ ne_neg_one hwindow)
      rw [hplays] at hoff
      cases hoff
    · exact hs.quiet e other h hoff

theorem playAudio_inv {s : MainCtrl} (w : Int) (hs : Inv s) : Inv (s.playAudio w) := by
  unfold playAudio
  cases hwindow : lookup s.windows w with
  | none => exact hs
  | some window =>
    cases hdevice : lookup s.devices window.deviceIdx with
    | none => simpa only [hdevice] using hs
    | some device =>
      simp only [hdevice]
      split
      · next hplaying =>
        exact audio_inv hs hwindow hplaying hdevice (sets_update _ hdevice) rfl rfl rfl rfl
      · exact hs

/-- In a window that is not playing there is no device to silence. -/
theorem stopAudio_inv {s : MainCtrl} (w : Int) (hs : Inv s) : Inv (s.stopAudio w) := by
  unfold stopAudio
  cases hwindow : lookup s.windows w with
  | none => exact hs
  | some window =>
    cases hdevice : lookup s.devices window.deviceIdx with
    | none => simpa only [hdevice] using hs
    | some device =>
      have hplaying := (hs.window_playing w window hwindow).mpr (ne_neg_one hdevice)
      simp only [hdevice, if_pos hplaying]
      exact audio_inv hs hwindow hplaying hdevice (sets_update _ hdevice) rfl rfl rfl rfl

/-! ## Growing tables -/

theorem addDevice_inv {s t : MainCtrl} {key : String} (hs : Inv s) (h : Added key s t) : Inv t := by
  obtain ⟨name, rtmpUrl, encryption, hdevices, hwindows, hctrls⟩ := h
  dsimp only at hdevices hwindows hctrls
  have hsets := sets_append s.devices ⟨name, key, rtmpUrl, encryption, false, false, false, -1⟩
  rw [← hdevices] at hsets
  have hold {d : Int} {device : DeviceInfo} (h : lookup s.devices d = some device) :
      lookup t.devices d = some device :=
    (hsets.of_ne (Int.ne_of_lt (lookup_lt h))).trans h
  refine ⟨⟨?_, ?_, ?_, ?_, ?_, ?_, ?_⟩, hs.toOwnCtrls.keep (by rw [ptrs, hwindows]; rfl)
    fun p _ => by rw [hctrls]⟩
  · intro d device h
    rcases hsets.cases h with ⟨_, rfl⟩ | ⟨_, h⟩
    · exact iff_of_false nofun fun hne => hne rfl
    · exact hs.device_playing d device h
  · intro d device h hidx
    rw [hwindows]
    rcases hsets.cases h with ⟨_, rfl⟩ | ⟨_, h⟩
    · exact absurd rfl hidx
    · exact hs.device_window d device h hidx
  · rw [hwindows]
    exact hs.window_playing
  · intro w window h hidx
    rw [hwindows] at h
    obtain ⟨device, hdevice, hback⟩ := hs.window_device w window h hidx
    exact ⟨device, hold hdevice, hback⟩
  · rw [hwindows, hctrls]
    exact hs.ctrl_playing
  · intro w window device h hon hd
    rw [hwindows] at h
    rw [hctrls]
    -- a playing window shows an old device
    obtain ⟨shown, hshown, _⟩ :=
      hs.window_device w window h ((hs.window_playing w window h).mp hon)
    obtain rfl := Option.some.inj ((hold hshown).symm.trans hd)
    exact hs.ctrl_audio w window shown h hon hshown
  · intro d device h hoff
    rcases hsets.cases h with ⟨_, rfl⟩ | ⟨_, h⟩
    · rfl
    · exact hs.quiet d device h hoff

/-- The new window points to an object of its own. -/
theorem addWindow_inv {s : MainCtrl} {p : Nat} (hs : Inv s) (hfresh : p ∉ s.ptrs) :
    Inv (s.addWindow p) := by
  have hsets : Sets s.windows (s.addWindow p).windows s.windows.length ⟨false, -1, p⟩ :=
    sets_append _ _
  have hptrs : (s.addWindow p).ptrs = s.ptrs ++ [p] := by simp [ptrs, addWindow]
  refine ⟨⟨hs.device_playing, ?_, ?_, ?_, ?_, ?_, hs.quiet⟩, ?_, ?_⟩
  · intro d device h hidx
    obtain ⟨window, hwindow, hrest⟩ := hs.device_window d device h hidx
    exact ⟨window, (hsets.of_ne (Int.ne_of_lt (lookup_lt hwindow))).trans hwindow, hrest⟩
  · intro w window h
    rcases hsets.cases h with ⟨_, rfl⟩ | ⟨_, h⟩
    · exact iff_of_false nofun fun hne => hne rfl
    · exact hs.window_playing w window h
  · intro w window h hidx
    rcases hsets.cases h with ⟨_, rfl⟩ | ⟨_, h⟩
    · exact absurd rfl hidx
    · exact hs.window_device w window h hidx
  · intro w window h
    rcases hsets.cases h with ⟨_, rfl⟩ | ⟨_, h⟩
    · exact hs.unused p hfresh
    · exact hs.ctrl_playing w window h
  · intro w window device h hon hd
    rcases hsets.cases h with ⟨_, rfl⟩ | ⟨_, h⟩
    · cases hon
    · exact hs.ctrl_audio w window device h hon hd
  · rw [hptrs, List.nodup_append]
    refine ⟨hs.nodup, by simp, fun q hq r hr => ?_⟩
    rw [List.mem_singleton.mp hr]
    rintro rfl
    exact hfresh hq
  · intro q hq
    rw [hptrs, List.mem_append, not_or] at hq
    exact hs.unused q hq.1

/-! ## Steps that touch no link -/

/-- The fields of a device that say where it is shown. -/
def linkOf (device : DeviceInfo) : Bool × Bool × Int :=
  (device.isPlaying, device.isPlayingAudio, device.windowIdx)

/-- The links are the same, and so are the playing states of the objects. -/
structure SameLinks (s t : MainCtrl) : Prop where
  devices : ∀ i, (lookup t.devices i).map linkOf = (lookup s.devices i).map linkOf
  windows : t.windows = s.windows
  playing : ∀ p, (t.ctrls p).isPlaying = (s.ctrls p).isPlaying
  audio : ∀ p, (t.ctrls p).isPlayingAudio = (s.ctrls p).isPlayingAudio

theorem SameTables.sameLinks {s t : MainCtrl} (h : SameTables s t) : SameLinks s t where
  devices := by simp [h.devices]
  windows := h.windows
  playing := by simp [h.ctrls]
  audio := by simp [h.ctrls]

theorem SameLinks.inv {s t : MainCtrl} (h : SameLinks s t) (hs : Inv s) : Inv t := by
  have hback (d : Int) (device : DeviceInfo) (hd : lookup t.devices d = some device) :
      ∃ old, lookup s.devices d = some old ∧ old.isPlaying = device.isPlaying ∧
        old.isPlayingAudio = device.isPlayingAudio ∧ old.windowIdx = device.windowIdx := by
    have hsame := h.devices d
    rw [hd] at hsame
    obtain ⟨old, hold, hlink⟩ := Option.map_eq_some_iff.mp hsame.symm
    simp only [linkOf, Prod.mk.injEq] at hlink
    exact ⟨old, hold, hlink⟩
  have hforth (d : Int) (old : DeviceInfo) (hd : lookup s.devices d = some old) :
      ∃ device, lookup t.devices d = some device ∧ device.windowIdx = old.windowIdx := by
    have hsame := h.devices d
    rw [hd] at hsame
    obtain ⟨device, hdevice, hlink⟩ := Option.map_eq_some_iff.mp hsame
    simp only [linkOf, Prod.mk.injEq] at hlink
    exact ⟨device, hdevice, hlink.2.2⟩
  have hwindows := h.windows
  constructor
  · constructor
    · intro d device hd
      obtain ⟨old, hold, hplaying, _, hidx⟩ := hback d device hd
      rw [← hplaying, ← hidx]
      exact hs.device_playing d old hold
    · intro d device hd hne
      obtain ⟨old, hold, _, _, hidx⟩ := hback d device hd
      rw [← hidx] at hne ⊢
      rw [hwindows]
      exact hs.device_window d old hold hne
    · rw [hwindows]
      exact hs.window_playing
    · intro w window hw hne
      rw [hwindows] at hw
      obtain ⟨old, hold, hidx⟩ := hs.window_device w window hw hne
      obtain ⟨device, hdevice, hsame⟩ := hforth _ old hold
      exact ⟨device, hdevice, hsame.trans hidx⟩
    · intro w window hw
      rw [hwindows] at hw
      rw [h.playing]
      exact hs.ctrl_playing w window hw
    · intro w window device hw hon hd
      rw [hwindows] at hw
      obtain ⟨old, hold, _, haudio, _⟩ := hback _ device hd
      rw [h.audio, ← haudio]
      exact hs.ctrl_audio w window old hw hon hold
    · intro d device hd hoff
      obtain ⟨old, hold, hplaying, haudio, _⟩ := hback d device hd
      rw [← haudio]
      exact hs.quiet d old hold (hplaying.trans hoff)
  · have hptrs : t.ptrs = s.ptrs := by
      rw [ptrs, hwindows]
      rfl
    exact ⟨hptrs ▸ hs.nodup, fun p hp => (h.playing p).trans (hs.unused p (hptrs ▸ hp))⟩

theorem message_sameLinks {s t : MainCtrl} {msg : Option Json}
    (h : (s.messageHandle msg).afterUncaught = some t) : SameLinks s t := by
  rcases messageHandle_cases h with ⟨_, rfl⟩ | ⟨k, status, _, ⟨_, _, rfl⟩ | ⟨_, rfl⟩⟩
  · exact (SameTables.refl _).sameLinks
  · refine ⟨fun i => ?_, rfl, fun _ => rfl, fun _ => rfl⟩
    rw [← lookup_map, ← lookup_map]
    exact congrArg (lookup · i) (markDevice_map _ _ _ (fun _ => rfl) _)
  · exact (SameTables.refl _).sameLinks

theorem pullThreadEnds_sameLinks {s t : MainCtrl} {p : Nat} (h : s.pullThreadEnds p = some t) :
    SameLinks s t := by
  unfold pullThreadEnds at h
  split at h
  · obtain rfl := Option.some.inj h
    refine ⟨fun _ => rfl, rfl, fun q => ?_, fun q => ?_⟩
    · by_cases hq : q = p
      · simp [setCtrl, hq]
      · simp [setCtrl, Function.update_of_ne hq]
    · by_cases hq : q = p
      · simp [setCtrl, hq]
      · simp [setCtrl, Function.update_of_ne hq]
  · cases h

/-! ## Runs -/

/-- Each window gets a `VideoCtrl` of its own. -/
def FreshWindow (s : MainCtrl) : Event → Prop
  | .addWindow p => p ∉ s.ptrs
  | _ => True

instance (s : MainCtrl) (e : Event) : Decidable (FreshWindow s e) := by
  cases e <;> unfold FreshWindow <;> infer_instance

theorem step_inv {s t : MainCtrl} {e : Event} (hs : Inv s) (hurls : LongUrls s)
    (hfresh : FreshWindow s e) (h : step s e = some t) : Inv t := by
  cases e with
  | setServerIp ip =>
    obtain rfl := Option.some.inj h
    exact (setServerIp_sameTables s ip).sameLinks.inv hs
  | setServerPort port =>
    obtain rfl := Option.some.inj h
    exact (setServerPort_sameTables s port).sameLinks.inv hs
  | addDevice key r =>
    rcases addDevice_leaves s key r t h with ⟨hsame, _⟩ | ⟨hadded, _⟩
    · exact hsame.sameLinks.inv hs
    · exact addDevice_inv hs hadded
  | addWindow p =>
    obtain rfl := Option.some.inj h
    exact addWindow_inv hs hfresh
  | playVideo d => exact playVideo_inv d hs hurls t h
  | playAudio w =>
    obtain rfl := Option.some.inj h
    exact playAudio_inv w hs
  | stopVideo d =>
    obtain rfl := Option.some.inj h
    exact stopVideo_inv d hs
  | stopAudio w =>
    obtain rfl := Option.some.inj h
    exact stopAudio_inv w hs
  | startTalk w r => exact (startTalk_sameTables s w r t h).sameLinks.inv hs
  | stopTalk w r => exact (stopTalk_sameTables s w r t h).sameLinks.inv hs
  | registerUser username password r =>
    exact (registerUser_sameTables s username password r t h).sameLinks.inv hs
  | loginUser username password r =>
    exact (loginUser_sameTables s username password r t h).sameLinks.inv hs
  | message msg =>
    simp only [step] at h
    split at h
    · exact (message_sameLinks h).inv hs
    · cases h
  | pullThreadEnds p => exact (pullThreadEnds_sameLinks h).inv hs

/-- Devices are never removed, and their URLs never change. -/
theorem step_urls {s t : MainCtrl} {e : Event} (h : step s e = some t) :
    s.devices.map DeviceInfo.rtmpUrl <+: t.devices.map DeviceInfo.rtmpUrl := by
  have hfree : LinkFree DeviceInfo.rtmpUrl := fun _ _ _ _ => rfl
  by_cases hadd : ∃ key r, e = .addDevice key r
  · obtain ⟨key, r, rfl⟩ := hadd
    rcases addDevice_leaves s key r t h with ⟨hsame, _⟩ | ⟨⟨name, rtmpUrl, encryption, hsame⟩, _⟩
    · exact (congrArg (List.map _) hsame.devices.symm).subst List.prefix_rfl
    · rw [hsame.devices, List.map_append]
      exact List.prefix_append _ _
  by_cases hmessage : ∃ msg, e = .message msg
  · obtain ⟨msg, rfl⟩ := hmessage
    simp only [step] at h
    split at h
    · rcases messageHandle_cases h with ⟨_, rfl⟩ | ⟨k, status, _, ⟨_, _, rfl⟩ | ⟨_, rfl⟩⟩
      · exact List.prefix_rfl
      · exact (markDevice_map _ _ _ (fun _ => rfl) _).symm.subst List.prefix_rfl
      · exact List.prefix_rfl
    · cases h
  · have hsame := step_map hfree h (fun key r he => hadd ⟨key, r, he⟩)
      fun msg he => hmessage ⟨msg, he⟩
    exact hsame.symm.subst List.prefix_rfl

theorem longUrls_of_step {s t : MainCtrl} {e : Event} (h : step s e = some t)
    (hurls : LongUrls t) : LongUrls s := by
  intro device hdevice
  obtain ⟨later, hlater, hsame⟩ :=
    List.mem_map.mp ((step_urls h).subset (List.mem_map_of_mem hdevice))
  rw [← hsame]
  exact hurls later hlater

/-- In every run in which the stream URLs are long enough, the devices and the
windows are linked. -/
theorem reach_inv {s : MainCtrl} (h : Reach step FreshWindow {} s) (hurls : LongUrls s) : Inv s :=
  h.invariant (I := fun s => LongUrls s → Inv s) (fun _ => inv_init)
    (fun _ _ _ ih hfresh hstep hurls =>
      have hbefore := longUrls_of_step hstep hurls
      step_inv (ih hbefore) hbefore hfresh hstep) hurls

/-- The devices and the windows are linked, one to one. -/
theorem linked_of_longUrls {s : MainCtrl} (h : Reach step FreshWindow {} s) (hurls : LongUrls s) :
    Linked s ∧
    (∀ d e a b, lookup s.devices d = some a → lookup s.devices e = some b →
      a.windowIdx ≠ -1 → a.windowIdx = b.windowIdx → d = e) ∧
    (∀ v w a b, lookup s.windows v = some a → lookup s.windows w = some b →
      a.deviceIdx ≠ -1 → a.deviceIdx = b.deviceIdx → v = w) := by
  have hlinked := (reach_inv h hurls).toLinked
  exact ⟨hlinked, fun _ _ _ _ => hlinked.tables.device_unique,
    fun _ _ _ _ => hlinked.tables.window_unique⟩

/-- A window, and a device with this URL that comes online and is played. -/
def playOne (rtmpUrl : String) : List Event :=
  loggedIn ++ [.addWindow 0, deviceAdded rtmpUrl, deviceOnline, .playVideo 0]

/-- Playing an ordinary stream keeps the link: the device is shown in window 0. -/
theorem linked_of_longUrls_playOne :
    ∃ s, exec step {} (playOne "rtmp://127.0.0.1/live/000001") = some s ∧
      s.devices.map DeviceInfo.windowIdx = [0] ∧ Linked s := by
  have hrun : ∃ s, exec step {} (playOne "rtmp://127.0.0.1/live/000001") = some s ∧
      s.devices.map DeviceInfo.windowIdx = [0] ∧
      s.devices.map DeviceInfo.rtmpUrl = ["rtmp://127.0.0.1/live/000001"] := ⟨_, rfl, rfl, rfl⟩
  obtain ⟨s, hexec, hidx, hurl⟩ := hrun
  have hurls : LongUrls s := by
    intro device hdevice
    have hmem := List.mem_map_of_mem (f := DeviceInfo.rtmpUrl) hdevice
    rw [hurl, List.mem_singleton] at hmem
    rw [hmem]
    decide
  exact ⟨s, hexec, hidx, (linked_of_longUrls (Reach.start.exec hexec (by decide)) hurls).1⟩

/-- A URL of seven characters of which `c_str()` leaves none: the play raises, and
the window's object is left playing in a free window. -/
theorem short_cString_unlinks :
    ∃ s, Reach step FreshWindow {} s ∧ (∀ device ∈ s.devices, 6 ≤ device.rtmpUrl.length) ∧
      ¬ Linked s := by
  have hrun : ∃ s, exec step {} (playOne "\x00abcdef") = some s ∧
      s.devices.map DeviceInfo.rtmpUrl = ["\x00abcdef"] ∧
      lookup s.windows 0 = some ⟨false, -1, 0⟩ ∧ (s.ctrls 0).isPlaying = true :=
    ⟨_, rfl, rfl, rfl, rfl⟩
  obtain ⟨s, hexec, hurl, hwindow, hplaying⟩ := hrun
  refine ⟨s, Reach.start.exec hexec (by decide), fun device hdevice => ?_, fun hlinked => ?_⟩
  · have hmem := List.mem_map_of_mem (f := DeviceInfo.rtmpUrl) hdevice
    rw [hurl, List.mem_singleton] at hmem
    rw [hmem]
    decide
  · have hcopy := hlinked.ctrl_playing 0 _ hwindow
    rw [hplaying] at hcopy
    cases hcopy

end MiniSurveillance.MainCtrl
