import MiniSurveillance.MainPlay
import MiniSurveillance.MainTalk

/-!
# Ending a talk through its own window

`stopTalk` does nothing for a window that shows no device, so a talk can be ended in
the window in which it began exactly as long as that window shows a device.

* `stops_iff`: what a `stopTalk` needs.
* `shows_iff`: the steps that empty the window are a `stopVideo` of its device and a
  `playVideo` that takes the window over and raises on its URL.
* `stopTalk_stops_iff`: the runs in which a talk can always be ended.
* `closed_window_strands`: the video is closed during the talk.
-/

namespace MiniSurveillance
open Text

namespace MainCtrl
open Table Runs

/-! ## What ends a talk -/

/-- `stopTalk` sends a stop and ends the talk, and a new talk can start after it. -/
def Stops (windowIdx : Int) (r : Reply) (s : MainCtrl) : Prop :=
  ∃ key t, s.stopTalk windowIdx r = .ok () t ∧ t.sent = s.sent ++ [talkCtrl "stop" key] ∧
    t.isTalking = false ∧
    ∀ w, (t.talkDevice w).isSome → ∃ r u, t.startTalk w r = .ok true u

/-- A talk can start when none is on. -/
theorem startTalk_accepted {s : MainCtrl} {w : Int} {device : DeviceInfo} (hrpc : s.rpc = true)
    (htalking : s.isTalking = false) (hdevice : s.talkDevice w = some device) :
    ∃ u, s.startTalk w talkAccepted = .ok true u := by
  rw [startTalk, htalking, hdevice]
  simp only [Bool.false_eq_true, if_false, call, hrpc, if_true]
  exact ⟨_, rfl⟩

/-- A talk that is on ends exactly when the window shows a device and the reply can be
read. -/
theorem stops_iff {s : MainCtrl} {w : Int} {r : Reply} (htalking : s.isTalking = true)
    (hrpc : s.rpc = true) : Stops w r s ↔ (s.talkDevice w).isSome ∧ Readable r := by
  cases hdevice : s.talkDevice w with
  | none =>
    refine iff_of_false ?_ (by simp)
    rintro ⟨key, t, hstop, hsent, _⟩
    rw [stopTalk_of_none r (.inr hdevice)] at hstop
    cases hstop
    simp at hsent
  | some device =>
    have hstops := stopTalk_of_device r htalking hdevice
    rw [call, if_pos hrpc] at hstops
    rw [Option.isSome_some, eq_self, true_and, ← call_isOk_iff]
    constructor
    · rintro ⟨key, t, hstop, _⟩
      rw [hstops] at hstop
      cases hcall : IPCClient.call r with
      | error f =>
        rw [hcall] at hstop
        cases hstop
      | ok p => exact ⟨p, rfl⟩
    · rintro ⟨p, hcall⟩
      rw [hcall] at hstops
      refine ⟨device.key, _, hstops, rfl, rfl, fun v hv => ?_⟩
      obtain ⟨other, hother⟩ := Option.isSome_iff_exists.mp hv
      exact ⟨talkAccepted, startTalk_accepted hrpc rfl hother⟩

/-! ## What empties a window -/

/-- A window is showing something. -/
def Shows (s : MainCtrl) (w : Int) : Prop :=
  ∃ window, lookup s.windows w = some window ∧ window.isPlaying = true

/-- The window the talk that was started last began in. -/
def talkWindow (es : List Event) : Option Int :=
  ((talkLog {} es).filterMap fun
    | .started windowIdx _ => some windowIdx
    | .stopped _ => none).getLast?

/-- During a talk the device in its window is not stopped, and the window is not taken
over by a device whose URL is too short for `VideoCtrl::play`. -/
def KeepsShown (es : List Event) (s : MainCtrl) : Event → Prop
  | .stopVideo deviceIdx => s.isTalking = true → ∀ w, talkWindow es = some w →
      ∀ device, lookup s.devices deviceIdx = some device → device.windowIdx ≠ w
  | .playVideo deviceIdx => s.isTalking = true → talkWindow es = some s.findWindow →
      ∀ device, lookup s.devices deviceIdx = some device → device.isActive = true →
        device.isPlaying = false → 6 ≤ utf16Length (cStr device.rtmpUrl)
  | _ => True

/-- A window that shows a device is one that a talk can begin or end in. -/
theorem talkDevice_isSome_iff {s : MainCtrl} (hs : TablesLinked s) (w : Int) :
    (s.talkDevice w).isSome ↔ Shows s w := by
  unfold talkDevice Shows
  cases hwindow : lookup s.windows w with
  | none => simp
  | some window =>
    simp only [Option.bind_eq_bind, Option.bind_some, Option.some.injEq, exists_eq_left']
    rw [hs.window_playing w window hwindow]
    constructor
    · rintro hdevice hnone
      obtain ⟨device, hdevice⟩ := Option.isSome_iff_exists.mp hdevice
      exact ne_neg_one hdevice hnone
    · intro hlinked
      obtain ⟨device, hdevice, _⟩ := hs.window_device w window hwindow hlinked
      exact Option.isSome_iff_exists.mpr ⟨device, hdevice⟩

theorem Shows.congr {s t : MainCtrl} (h : t.windows = s.windows) (w : Int) :
    Shows t w ↔ Shows s w := by
  rw [Shows, Shows, h]

/-- `stopVideo` empties the window of its device and no other. -/
theorem stopVideo_shows_iff {s : MainCtrl} {w : Int} (d : Int) (hs : Shows s w) :
    Shows (s.stopVideo d) w ↔
      ∀ device, lookup s.devices d = some device → device.windowIdx ≠ w := by
  obtain ⟨shown, hshown, hplaying⟩ := hs
  cases hdevice : lookup s.devices d with
  | none =>
    have heq : s.stopVideo d = s := by simp only [stopVideo, hdevice]
    rw [heq]
    exact iff_of_true ⟨shown, hshown, hplaying⟩ (by simp)
  | some device =>
    simp only [Option.some.injEq, forall_eq']
    cases hwindow : lookup s.windows device.windowIdx with
    | none =>
      have heq : s.stopVideo d = s := by simp only [stopVideo, hdevice, hwindow]
      rw [heq]
      refine iff_of_true ⟨shown, hshown, hplaying⟩ fun hsame => ?_
      rw [hsame, hshown] at hwindow
      cases hwindow
    | some window =>
      have hsets : Sets s.windows (s.stopVideo d).windows device.windowIdx window.freed := by
        rw [stopVideo_eq hdevice hwindow]
        exact sets_update _ hwindow
      constructor
      · rintro ⟨after, hafter, hon⟩ rfl
        rw [hsets.at] at hafter
        cases hafter
        cases hon
      · intro hne
        exact ⟨shown, (hsets.of_ne hne.symm).trans hshown, hplaying⟩

/-- A window that is taken over shows the new device, unless the URL of that is too
short. -/
theorem playVideo_over_iff {s t : MainCtrl} {d : Int} {device : DeviceInfo} {window : WindowInfo}
    (htables : TablesLinked s) (hown : CtrlsOwn s) (hdevice : lookup s.devices d = some device)
    (hactive : device.isActive = true) (hidle : device.isPlaying = false)
    (hwindow : lookup s.windows s.findWindow = some window) (hplaying : window.isPlaying = true)
    (h : (s.playVideo d).after = some t) :
    Shows t s.findWindow ↔ 6 ≤ utf16Length (cStr device.rtmpUrl) := by
  obtain ⟨hsets, hstopped, hthread⟩ := evicted_of_playing htables hown hwindow hplaying
  rw [playVideo_of_ready hdevice hactive hidle hwindow] at h
  rcases Nat.lt_or_ge (utf16Length (cStr device.rtmpUrl)) 6 with hshort | hlong
  · -- `play` raises, and nothing shows the device
    rw [playIn, VideoCtrl.play_of_short _ hstopped hshort] at h
    obtain rfl := Option.some.inj h
    refine iff_of_false ?_ (Nat.not_le_of_lt hshort)
    rintro ⟨after, hafter, hon⟩
    obtain rfl := Option.some.inj (hsets.at.symm.trans hafter)
    cases hon
  · refine iff_of_true ?_ hlong
    obtain ⟨name, _, heq⟩ := VideoCtrl.play_of_long (cStr device.encryption) hstopped hlong
    rw [playIn, heq] at h
    cases hpull : ((s.evicted window).ctrls window.videoCtrl).capture.pullThread with
    | none =>
      rw [hpull] at h
      obtain rfl := Option.some.inj h
      exact ⟨_, (sets_update _ hsets.at).at, rfl⟩
    | running => exact absurd hpull hthread
    | ended =>
      rw [hpull] at h
      cases h

/-- The other windows keep showing what they show. -/
theorem playVideo_others {s t : MainCtrl} {d w : Int} (htables : TablesLinked s)
    (hown : CtrlsOwn s) (hs : Shows s w) (hne : w ≠ s.findWindow)
    (h : (s.playVideo d).after = some t) : Shows t w := by
  obtain ⟨shown, hshown, hplaying⟩ := hs
  rcases playVideo_cases h with rfl | ⟨device, window, v, _, _, _, hwindow, hdone⟩
  · exact ⟨shown, hshown, hplaying⟩
  have hevicted : lookup (s.evicted window).windows w = some shown := by
    cases hon : window.isPlaying with
    | false => rwa [evicted, hon]
    | true =>
      exact ((evicted_of_playing htables hown hwindow hon).1.of_ne hne).trans hshown
  rcases hdone with ⟨_, rfl⟩ | ⟨_, rfl⟩
  · exact ⟨shown, (lookup_update_ne _ hne.symm).trans hevicted, hplaying⟩
  · exact ⟨shown, hevicted, hplaying⟩

/-- `playVideo` empties a window only where it takes it over and the URL is too short. -/
theorem playVideo_shows_iff {s t : MainCtrl} {d w : Int} (htables : TablesLinked s)
    (hown : CtrlsOwn s) (hs : Shows s w) (h : (s.playVideo d).after = some t) :
    Shows t w ↔ (w = s.findWindow → ∀ device, lookup s.devices d = some device →
      device.isActive = true → device.isPlaying = false →
        6 ≤ utf16Length (cStr device.rtmpUrl)) := by
  rcases eq_or_ne w s.findWindow with rfl | hne
  · rw [imp_iff_right rfl]
    obtain ⟨window, hwindow, hplaying⟩ := hs
    constructor
    · intro hshows device hdevice hactive hidle
      exact (playVideo_over_iff htables hown hdevice hactive hidle hwindow hplaying h).mp hshows
    · intro hlong
      rcases playVideo_cases h with rfl | ⟨device, _, _, hdevice, hactive, hidle, _⟩
      · exact ⟨window, hwindow, hplaying⟩
      · exact (playVideo_over_iff htables hown hdevice hactive hidle hwindow hplaying h).mpr
          (hlong device hdevice hactive hidle)
  · exact iff_of_true (playVideo_others htables hown hs hne h) fun heq => absurd heq hne

/-- The other steps empty no window. -/
theorem step_shows {s t : MainCtrl} {e : Event} (h : step s e = some t)
    (hplay : ∀ d, e ≠ .playVideo d) (hstop : ∀ d, e ≠ .stopVideo d) {w : Int} (hs : Shows s w) :
    Shows t w := by
  have hsame (hst : SameTables s t) : Shows t w := (Shows.congr hst.windows w).mpr hs
  cases e with
  | setServerIp ip =>
    obtain rfl := Option.some.inj h
    exact hsame (setServerIp_sameTables s ip)
  | setServerPort port =>
    obtain rfl := Option.some.inj h
    exact hsame (setServerPort_sameTables s port)
  | addDevice key r =>
    rcases addDevice_leaves s key r t h with ⟨hst, _⟩ | ⟨⟨_, _, _, hst⟩, _⟩
    · exact hsame hst
    · exact (Shows.congr hst.windows w).mpr hs
  | addWindow p =>
    obtain rfl := Option.some.inj h
    obtain ⟨window, hwindow, hplaying⟩ := hs
    exact ⟨window, ((sets_append _ _).of_ne (Int.ne_of_lt (lookup_lt hwindow))).trans hwindow,
      hplaying⟩
  | playVideo d => exact absurd rfl (hplay d)
  | playAudio v =>
    obtain rfl := Option.some.inj h
    exact (Shows.congr (playAudio_shownAt s v).2 w).mpr hs
  | stopVideo d => exact absurd rfl (hstop d)
  | stopAudio v =>
    obtain rfl := Option.some.inj h
    exact (Shows.congr (stopAudio_shownAt s v).2 w).mpr hs
  | startTalk v r => exact hsame (startTalk_sameTables s v r t h)
  | stopTalk v r => exact hsame (stopTalk_sameTables s v r t h)
  | registerUser username password r =>
    exact hsame (registerUser_sameTables s username password r t h)
  | loginUser username password r => exact hsame (loginUser_sameTables s username password r t h)
  | message msg =>
    simp only [step] at h
    split at h
    · exact (Shows.congr (message_shownAt h).2 w).mpr hs
    · cases h
  | pullThreadEnds p =>
    obtain ⟨v, rfl⟩ := pullThreadEnds_eq h
    exact hs

/-! ## Runs -/

theorem talkWindow_snoc {es : List Event} {s : MainCtrl} (e : Event)
    (h : exec step {} es = some s) :
    talkWindow (es ++ [e]) =
      match talkCommand s e with
      | some (.started windowIdx _) => some windowIdx
      | _ => talkWindow es := by
  rw [talkWindow, talkLog_snoc e h, List.filterMap_append]
  cases talkCommand s e with
  | none => simp [talkWindow]
  | some command =>
    cases command with
    | started w key => simp
    | stopped key => simp [talkWindow]

/-- What every run keeps. -/
structure TalkInv (es : List Event) (s : MainCtrl) : Prop where
  run : exec step {} es = some s
  tables : TablesLinked s
  own : CtrlsOwn s
  connected : s.isTalking = true → s.rpc = true
  began : s.isTalking = true → ∃ w, talkWindow es = some w

theorem talkInv_init : TalkInv [] {} := ⟨rfl, tables_init, fun _ => nofun, nofun, nofun⟩

theorem step_talkInv {es : List Event} {s t : MainCtrl} {e : Event} (hs : TalkInv es s)
    (h : step s e = some t) : TalkInv (es ++ [e]) t := by
  have hwindow := talkWindow_snoc e hs.run
  refine ⟨(exec_snoc_of e hs.run).trans h, step_tables hs.tables h, step_own hs.own h, ?_, ?_⟩
  · intro hon
    rcases step_talk h with ⟨_, hsame, _⟩ | ⟨_, _, _, _, _, _, _, _, hrpc⟩ |
      ⟨_, _, _, _, _, _, _, hrpc⟩
    · exact hsame.rpc (hs.connected (hsame.isTalking ▸ hon))
    · exact hrpc
    · exact hrpc
  · intro hon
    rcases step_talk h with ⟨hcommand, hsame, _⟩ | ⟨w, _, _, _, hcommand, _⟩ |
      ⟨_, _, _, _, hcommand, hbefore, _⟩
    · rw [hwindow, hcommand]
      exact hs.began (hsame.isTalking ▸ hon)
    · exact ⟨w, by rw [hwindow, hcommand]⟩
    · rw [hwindow, hcommand]
      exact hs.began hbefore

theorem talkInv_of_run {es : List Event} {s : MainCtrl} (h : exec step {} es = some s) :
    TalkInv es s := by
  induction es using List.reverseRecOn generalizing s with
  | nil =>
    cases h
    exact talkInv_init
  | append_singleton es e ih =>
    obtain ⟨t, ht⟩ := exec_of_prefix (List.prefix_append es [e]) h
    exact step_talkInv (ih ht) (exec_snoc_of e ht ▸ h)

/-- A talk that is on can be ended in the window it began in, by any reply that can be
read. -/
def NotStranded (es : List Event) (s : MainCtrl) : Prop :=
  s.isTalking = true → ∃ w, talkWindow es = some w ∧ ∀ r, Stops w r s ↔ Readable r

/-- The window of a talk that is on shows a device. -/
def TalkShown (es : List Event) (s : MainCtrl) : Prop :=
  s.isTalking = true → ∀ w, talkWindow es = some w → Shows s w

theorem notStranded_iff {es : List Event} {s : MainCtrl} (hs : TalkInv es s) :
    NotStranded es s ↔ TalkShown es s := by
  refine forall_congr' fun hon => ?_
  obtain ⟨w, hw⟩ := hs.began hon
  simp only [hw, Option.some.injEq, exists_eq_left', forall_eq', stops_iff hon (hs.connected hon),
    talkDevice_isSome_iff hs.tables]
  constructor
  · intro h
    exact ((h .notOk).mpr (.inl trivial)).1
  · intro h r
    exact and_iff_right h

/-- A talk begins in a window that shows a device, and goes on in it. -/
theorem talkShown_of_shows {es : List Event} {s t : MainCtrl} {e : Event} (hs : TalkInv es s)
    (hshown : TalkShown es s) (h : step s e = some t) (hshows : ∀ w, Shows s w → Shows t w) :
    TalkShown (es ++ [e]) t := by
  intro hon w hw
  rw [talkWindow_snoc e hs.run] at hw
  rcases step_talk h with ⟨hcommand, hsame, _⟩ | ⟨v, _, device, _, hcommand, _, hdevice, _⟩ |
    ⟨_, _, _, _, hcommand, hbefore, _⟩
  · rw [hcommand] at hw
    exact hshows w (hshown (hsame.isTalking ▸ hon) w hw)
  · rw [hcommand] at hw
    obtain rfl := Option.some.inj hw
    exact hshows v ((talkDevice_isSome_iff hs.tables v).mp (hdevice ▸ rfl))
  · rw [hcommand] at hw
    exact hshows w (hshown hbefore w hw)

/-- A step keeps the window of the talk showing something exactly under its condition. -/
theorem step_shown_iff {es : List Event} {s t : MainCtrl} {e : Event} (hs : TalkInv es s)
    (hshown : TalkShown es s) (h : step s e = some t) :
    TalkShown (es ++ [e]) t ↔ KeepsShown es s e := by
  have hwindow := talkWindow_snoc e hs.run
  cases e with
  | stopVideo d =>
    obtain rfl := Option.some.inj h
    change talkWindow _ = talkWindow es at hwindow
    unfold TalkShown KeepsShown
    rw [(stopVideo_tablesOnly s d).sameTalk.isTalking, hwindow]
    refine forall_congr' fun hon => forall₂_congr fun w hw => ?_
    exact stopVideo_shows_iff d (hshown hon w hw)
  | playVideo d =>
    change talkWindow _ = talkWindow es at hwindow
    unfold TalkShown KeepsShown
    rw [(playVideo_tablesOnly h).sameTalk.isTalking, hwindow]
    refine forall_congr' fun hon => ?_
    obtain ⟨w, hw⟩ := hs.began hon
    simp only [hw, Option.some.injEq, forall_eq']
    exact playVideo_shows_iff hs.tables hs.own (hshown hon w hw) h
  | _ =>
    exact iff_of_true
      (talkShown_of_shows hs hshown h fun w => step_shows h (fun _ => nofun) fun _ => nofun) trivial

/-- Along a run a talk can be ended in its window exactly when every step keeps that
window showing something. -/
theorem stopTalk_stops_iff {es : List Event} {s : MainCtrl} (hrun : exec step {} es = some s) :
    (∀ fs t, fs <+: es → exec step {} fs = some t → NotStranded fs t) ↔
      ∀ fs e t, fs ++ [e] <+: es → exec step {} fs = some t → KeepsShown fs t e := by
  have hall : (∀ fs t, fs <+: es → exec step {} fs = some t → TalkInv fs t ∧ TalkShown fs t) ↔
      ∀ fs e t, fs ++ [e] <+: es → exec step {} fs = some t → KeepsShown fs t e :=
    holds_along_iff ⟨talkInv_init, nofun⟩ (fun fs t e u ht hstep => by
      rw [and_iff_right (step_talkInv ht.1 hstep)]
      exact step_shown_iff ht.1 ht.2 hstep) hrun
  rw [← hall]
  refine forall₂_congr fun fs t => forall₂_congr fun hprefix ht => ?_
  have hinv : TalkInv fs t := talkInv_of_run ht
  rw [notStranded_iff hinv, and_iff_right hinv]

/-- A talk that just began can be ended. -/
theorem stopTalk_stops_iff_twoShown :
    ∃ s, exec step {} (twoShown ++ [.startTalk 0 talkAccepted]) = some s ∧ s.isTalking = true ∧
      ∀ fs t, fs <+: twoShown ++ [.startTalk 0 talkAccepted] → exec step {} fs = some t →
        NotStranded fs t := by
  have hrun : ∃ s, exec step {} (twoShown ++ [.startTalk 0 talkAccepted]) = some s ∧
      s.isTalking = true := ⟨_, rfl, rfl⟩
  have hshown : ∃ s, exec step {} twoShown = some s := ⟨_, rfl⟩
  obtain ⟨s, hrun, htalking⟩ := hrun
  obtain ⟨u, hshown⟩ := hshown
  refine ⟨s, hrun, htalking, (stopTalk_stops_iff hrun).mpr fun fs e t hprefix ht => ?_⟩
  -- there is no talk before the last event
  have hfs : fs <+: twoShown := by
    rcases List.prefix_concat_iff.mp hprefix with heq | hshorter
    · exact (List.append_inj_left' heq rfl).symm ▸ List.prefix_rfl
    · exact (List.prefix_append fs [e]).trans hshorter
  have hlog : talkLog {} fs = [] := List.prefix_nil.mp (talkLog_mono hfs hshown)
  have hoff : t.isTalking ≠ true := by
    intro hon
    obtain ⟨w, hw⟩ := (talkInv_of_run ht).began hon
    rw [talkWindow, hlog] at hw
    cases hw
  cases e with
  | stopVideo d => exact fun hon => absurd hon hoff
  | playVideo d => exact fun hon => absurd hon hoff
  | _ => trivial

/-- The video of window 0 is closed during the talk: a `stopTalk` of window 0 does
nothing, and the talk stays on. -/
theorem closed_window_strands :
    ∃ s, exec step {} (twoShown ++ [.startTalk 0 talkAccepted, .stopVideo 0]) = some s ∧
      s.isTalking = true ∧ (∀ r, s.stopTalk 0 r = .ok () s) ∧
      ¬ NotStranded (twoShown ++ [.startTalk 0 talkAccepted, .stopVideo 0]) s := by
  have hrun : ∃ s, exec step {} (twoShown ++ [.startTalk 0 talkAccepted, .stopVideo 0]) = some s ∧
      s.isTalking = true ∧ s.talkDevice 0 = none ∧
      talkWindow (twoShown ++ [.startTalk 0 talkAccepted, .stopVideo 0]) = some 0 :=
    ⟨_, rfl, rfl, rfl, rfl⟩
  obtain ⟨s, hrun, hon, hdevice, hwindow⟩ := hrun
  refine ⟨s, hrun, hon, fun r => stopTalk_of_none r (.inr hdevice), fun h => ?_⟩
  obtain ⟨w, hw, hstops⟩ := h hon
  obtain rfl := Option.some.inj (hwindow.symm.trans hw)
  have hstop := (hstops .notOk).mpr (.inl trivial)
  rw [stops_iff hon ((talkInv_of_run hrun).connected hon), hdevice] at hstop
  cases hstop.1

end MainCtrl

end MiniSurveillance
