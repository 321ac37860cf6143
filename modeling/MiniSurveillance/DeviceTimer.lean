import MiniSurveillance.MainTables

/-!
# The device list and its timer

The device list of the main window has a row for each device, with a sample of the
device's status. Every 500 ms a timer compares the samples with the devices, and stops
the video of a device whose sample was active and that is not active any more.

* `checkRows_inactivePlaying_iff`: what one tick does.
* `ticks_stop_iff`: in which runs every tick leaves no inactive device playing.
* `edge_between_ticks`: a device that comes online, is played and goes offline between
  two ticks.
-/

namespace MiniSurveillance
open Table Runs

/-- `getDeviceIsActive`. -/
def MainCtrl.getDeviceIsActive (idx : Int) (s : MainCtrl) : Bool :=
  match lookup s.devices idx with
  | none => false
  | some device => device.isActive

/-- A row of `device_list_model`. -/
structure DeviceRow where
  idx : Int
  isActive : Bool
deriving DecidableEq, Repr

structure DeviceList where
  ctrl : MainCtrl := {}
  rows : List DeviceRow := []

namespace DeviceList

/-- The body of the timer's loop: the device of the row has gone offline. -/
def checkRow (i : Int) (row : DeviceRow) (s : MainCtrl) : MainCtrl :=
  if row.isActive = true ∧ s.getDeviceIsActive i = false then s.stopVideo row.idx else s

/-- The timer's loop from row `i` on. -/
def checkRows : List DeviceRow → Int → MainCtrl → MainCtrl × List DeviceRow
  | [], _, s => (s, [])
  | row :: rows, i, s =>
    let rest := checkRows rows (i + 1) (checkRow i row s)
    (rest.1, { row with isActive := s.getDeviceIsActive i } :: rest.2)

/-- `onTriggered` of `timer_handle_device_statu`. -/
def tick (l : DeviceList) : DeviceList :=
  let checked := checkRows l.rows 0 l.ctrl
  ⟨checked.1, checked.2⟩

/-- `addDevice`, from the key input or behind a login: a new device gets a row. -/
def addDevice (key : String) (r : Reply) (l : DeviceList) : Option DeviceList :=
  match l.ctrl.addDevice key r with
  | .ok deviceIdx s =>
    some ⟨s, if deviceIdx = -1 then l.rows else l.rows ++ [⟨deviceIdx, false⟩]⟩
  | .raised _ s => some { l with ctrl := s }
  | .crashed => none

/-- A call or message of the controller, or a tick of the timer. -/
inductive Event
  | ctrl (e : MainCtrl.Event)
  | tick

def step (l : DeviceList) : Event → Option DeviceList
  | .ctrl (.addDevice key r) => l.addDevice key r
  | .ctrl e => (MainCtrl.step l.ctrl e).map fun s => { l with ctrl := s }
  | .tick => some l.tick

/-! ## One tick -/

/-- Device `d` is not active and still marked as playing. -/
def InactivePlaying (s : MainCtrl) (d : Int) : Prop :=
  ∃ device, lookup s.devices d = some device ∧ device.isActive = false ∧ device.isPlaying = true

open MainCtrl

/-- `stopVideo` of a device that is not playing does nothing. -/
theorem stopVideo_of_idle {s : MainCtrl} (hs : TablesLinked s) {d : Int}
    (hidle : ∀ device, lookup s.devices d = some device → device.isPlaying = false) :
    s.stopVideo d = s := by
  rcases stopVideo_cases s d with heq | ⟨device, window, hdevice, hwindow, _⟩
  · exact heq
  · have hplaying := (hs.device_playing d device hdevice).mpr (ne_neg_one hwindow)
    rw [hidle device hdevice] at hplaying
    cases hplaying

/-- `stopVideo` of a device that is playing stops it. -/
theorem stopVideo_of_playing {s : MainCtrl} (hs : TablesLinked s) {d : Int} {device : DeviceInfo}
    (hdevice : lookup s.devices d = some device) (hplaying : device.isPlaying = true) :
    Sets s.devices (s.stopVideo d).devices d device.stopped := by
  obtain ⟨window, hwindow, _⟩ :=
    hs.device_window d device hdevice ((hs.device_playing d device hdevice).mp hplaying)
  rw [stopVideo_eq hdevice hwindow]
  exact sets_update _ hdevice

theorem stopVideo_inactivePlaying_iff {s : MainCtrl} (hs : TablesLinked s) (d e : Int) :
    InactivePlaying (s.stopVideo d) e ↔ InactivePlaying s e ∧ e ≠ d := by
  by_cases hplays : ∃ device, lookup s.devices d = some device ∧ device.isPlaying = true
  · obtain ⟨device, hdevice, hplaying⟩ := hplays
    have hsets := stopVideo_of_playing hs hdevice hplaying
    constructor
    · rintro ⟨after, hafter, hinactive, hon⟩
      rcases hsets.cases hafter with ⟨_, rfl⟩ | ⟨hne, hbefore⟩
      · cases hon
      · exact ⟨⟨after, hbefore, hinactive, hon⟩, hne⟩
    · rintro ⟨⟨other, hother, hrest⟩, hne⟩
      exact ⟨other, (hsets.of_ne hne).trans hother, hrest⟩
  · rw [stopVideo_of_idle hs fun device hdevice => by
      simpa using fun hon => hplays ⟨device, hdevice, hon⟩]
    refine ⟨fun h => ⟨h, ?_⟩, And.left⟩
    rintro rfl
    obtain ⟨device, hdevice, _, hon⟩ := h
    exact hplays ⟨device, hdevice, hon⟩

/-- The row of a device whose sample was active stops it, and touches no other. -/
theorem checkRow_inactivePlaying_iff {s : MainCtrl} (hs : TablesLinked s) {i : Int}
    {row : DeviceRow} (hrow : row.idx = i) (e : Int) :
    InactivePlaying (checkRow i row s) e ↔
      InactivePlaying s e ∧ (e = i → row.isActive = false) := by
  unfold checkRow
  split
  · next hedge =>
    rw [hrow, stopVideo_inactivePlaying_iff hs, hedge.1]
    simp
  · next hnone =>
    refine ⟨fun h => ⟨h, ?_⟩, And.left⟩
    rintro rfl
    obtain ⟨device, hdevice, hinactive, _⟩ := h
    simpa [getDeviceIsActive, hdevice, hinactive] using hnone

theorem checkRow_tables {s : MainCtrl} (i : Int) (row : DeviceRow) (hs : TablesLinked s) :
    TablesLinked (checkRow i row s) := by
  unfold checkRow
  split
  · exact stopVideo_tables row.idx hs
  · exact hs

/-- The rows from `i` on are those of the devices from `i` on. -/
def Numbered (rows : List DeviceRow) (i : Int) : Prop :=
  ∀ k row, lookup rows k = some row → row.idx = i + k

/-- One pass stops the inactive devices whose samples were active, and no other. -/
theorem checkRows_inactivePlaying_iff (rows : List DeviceRow) {i : Int} {s : MainCtrl}
    (hs : TablesLinked s) (hrows : Numbered rows i) (e : Int) :
    InactivePlaying (checkRows rows i s).1 e ↔
      InactivePlaying s e ∧ ∀ row, lookup rows (e - i) = some row → row.isActive = false := by
  induction rows generalizing i s with
  | nil => simp [checkRows]
  | cons row rows ih =>
    have hrow : row.idx = i := by simpa using hrows 0 row rfl
    have hrest : Numbered rows (i + 1) := by
      intro k other hk
      have hk₀ := lookup_nonneg hk
      have hnext := hrows (k + 1) other (by
        rw [lookup_cons, if_neg (by omega), Int.add_sub_cancel]
        exact hk)
      omega
    rw [checkRows, ih (checkRow_tables i row hs) hrest, checkRow_inactivePlaying_iff hs hrow,
      and_assoc]
    refine and_congr_right fun _ => ?_
    rcases eq_or_ne e i with rfl | hne
    · have hhead : lookup (row :: rows) (e - e) = some row := by rw [Int.sub_self]; rfl
      have hnone : lookup rows (e - (e + 1)) = none := by rw [lookup, if_pos (by omega)]
      simp only [hhead, hnone, Option.some.injEq, forall_eq', true_imp_iff, reduceCtorEq,
        false_imp_iff, implies_true, and_true]
    · rw [lookup_cons, if_neg (by omega), show e - i - 1 = e - (i + 1) by omega]
      simp [hne]

theorem checkRows_tables (rows : List DeviceRow) (i : Int) {s : MainCtrl} (hs : TablesLinked s) :
    TablesLinked (checkRows rows i s).1 := by
  induction rows generalizing i s with
  | nil => exact hs
  | cons row rows ih => exact ih (i + 1) (checkRow_tables i row hs)

theorem checkRows_length (rows : List DeviceRow) (i : Int) (s : MainCtrl) :
    (checkRows rows i s).1.devices.length = s.devices.length := by
  induction rows generalizing i s with
  | nil => rfl
  | cons row rows ih =>
    rw [checkRows, ih, checkRow]
    split
    · simpa using congrArg List.length
        (stopVideo_map (f := fun _ => ()) (fun _ _ _ _ => rfl) s row.idx)
    · rfl

theorem checkRows_idx (rows : List DeviceRow) (i : Int) (s : MainCtrl) :
    (checkRows rows i s).2.map DeviceRow.idx = rows.map DeviceRow.idx := by
  induction rows generalizing i s with
  | nil => rfl
  | cons row rows ih => simp [checkRows, ih]

/-! ## Runs -/

/-- Each device has its row, and the devices and windows are linked. -/
structure Aligned (l : DeviceList) : Prop where
  tables : TablesLinked l.ctrl
  length : l.rows.length = l.ctrl.devices.length
  rows : Numbered l.rows 0

theorem Numbered.congr {rows rows' : List DeviceRow} {i : Int} (h : Numbered rows i)
    (hidx : rows'.map DeviceRow.idx = rows.map DeviceRow.idx) : Numbered rows' i := by
  intro k row hk
  have hsame := lookup_map DeviceRow.idx rows' k
  rw [hidx, lookup_map, hk] at hsame
  obtain ⟨old, hold, heq⟩ := Option.map_eq_some_iff.mp hsame
  rw [← heq]
  exact h k old hold

theorem tick_aligned {l : DeviceList} (hl : Aligned l) : Aligned l.tick := by
  refine ⟨checkRows_tables l.rows 0 hl.tables, ?_, hl.rows.congr (checkRows_idx l.rows 0 l.ctrl)⟩
  have hlength := congrArg List.length (checkRows_idx l.rows 0 l.ctrl)
  rw [List.length_map, List.length_map] at hlength
  exact hlength.trans (hl.length.trans (checkRows_length l.rows 0 l.ctrl).symm)

/-- Every way through `addDevice`. -/
theorem addDevice_paths (s : MainCtrl) (key : String) (r : Reply) :
    s.addDevice key r = .crashed ∨
    (∃ t, SameTables s t ∧
      (s.addDevice key r = .ok (-1) t ∨ ∃ f, s.addDevice key r = .raised f t)) ∨
    ∃ t, Added key s t ∧ s.addDevice key r = .ok s.devices.length t := by
  unfold MainCtrl.addDevice call
  split
  · have hsame : SameTables s { s with sent :=
        s.sent ++ [request "get_device_info" [("user", s.token), ("key", key)]] } := ⟨rfl, rfl, rfl⟩
    cases IPCClient.call r with
    | error f => exact .inr (.inl ⟨_, hsame, .inr ⟨f, rfl⟩⟩)
    | ok p =>
      obtain ⟨ctx, ret⟩ := p
      cases ret with
      | false => exact .inr (.inl ⟨_, hsame, .inl rfl⟩)
      | true =>
        simp only [Outcome.ofExcept_ok, Outcome.ok_bind, Bool.true_eq_false, if_false]
        cases hinfo : deviceInfo key ctx with
        | error f => exact .inr (.inl ⟨_, hsame, .inr ⟨f, rfl⟩⟩)
        | ok info =>
          obtain ⟨name, rtmpUrl, encryption, rfl⟩ := deviceInfo_cases hinfo
          refine .inr (.inr ⟨_, ?_, rfl⟩)
          exact ⟨name, rtmpUrl, encryption, rfl, rfl, rfl⟩
  · exact .inl rfl

theorem addDevice_aligned {l m : DeviceList} {key : String} {r : Reply} (hl : Aligned l)
    (h : l.addDevice key r = some m) : Aligned m := by
  unfold DeviceList.addDevice at h
  rcases addDevice_paths l.ctrl key r with hcrash | ⟨t, hsame, hpath⟩ | ⟨t, hadded, hpath⟩
  · rw [hcrash] at h
    cases h
  · have hkept : Aligned ⟨t, l.rows⟩ :=
      ⟨hsame.tables hl.tables, hl.length.trans (by rw [hsame.devices]), hl.rows⟩
    rcases hpath with hpath | ⟨f, hpath⟩
    · rw [hpath] at h
      obtain rfl := Option.some.inj h
      exact hkept
    · rw [hpath] at h
      obtain rfl := Option.some.inj h
      exact hkept
  · rw [hpath] at h
    obtain rfl := Option.some.inj h
    have hlength : t.devices.length = l.ctrl.devices.length + 1 := by
      obtain ⟨name, rtmpUrl, encryption, hdevices, _⟩ := hadded
      simp [hdevices]
    rw [if_neg (by omega)]
    refine ⟨addDevice_tables hl.tables hadded, by simp [hl.length, hlength], fun k row hk => ?_⟩
    rcases (sets_append l.rows _).cases hk with ⟨rfl, rfl⟩ | ⟨_, hk⟩
    · simp [hl.length]
    · exact hl.rows k row hk

theorem step_length {s t : MainCtrl} {e : MainCtrl.Event} (h : MainCtrl.step s e = some t)
    (hadd : ∀ key r, e ≠ .addDevice key r) : t.devices.length = s.devices.length := by
  by_cases hmessage : ∃ msg, e = .message msg
  · obtain ⟨msg, rfl⟩ := hmessage
    simp only [MainCtrl.step] at h
    split at h
    · simpa using congrArg List.length (message_shownAt h).1
    · cases h
  · simpa using congrArg List.length
      (step_map (f := fun _ => ()) (fun _ _ _ _ => rfl) h hadd fun msg he => hmessage ⟨msg, he⟩)

/-- Besides `addDevice`, a step of the controller touches no row. -/
theorem step_ctrl (l : DeviceList) {e : MainCtrl.Event} (hadd : ∀ key r, e ≠ .addDevice key r) :
    step l (.ctrl e) = (MainCtrl.step l.ctrl e).map fun s => { l with ctrl := s } := by
  cases e with
  | addDevice key r => exact absurd rfl (hadd key r)
  | _ => rfl

theorem step_aligned {l m : DeviceList} {e : Event} (hl : Aligned l) (h : step l e = some m) :
    Aligned m := by
  cases e with
  | tick =>
    obtain rfl := Option.some.inj h
    exact tick_aligned hl
  | ctrl e =>
    by_cases hadd : ∃ key r, e = .addDevice key r
    · obtain ⟨key, r, rfl⟩ := hadd
      exact addDevice_aligned hl h
    · have hadd : ∀ key r, e ≠ .addDevice key r := fun key r he => hadd ⟨key, r, he⟩
      rw [step_ctrl l hadd] at h
      obtain ⟨t, ht, rfl⟩ := Option.map_eq_some_iff.mp h
      exact ⟨step_tables hl.tables ht, hl.length.trans (step_length ht hadd).symm, hl.rows⟩

theorem aligned_of_run {es : List Event} {l : DeviceList} (h : exec step {} es = some l) :
    Aligned l :=
  (reachable_of_exec h).invariant ⟨tables_init, rfl, fun _ _ h => by simp at h⟩
    fun _ _ _ hs _ hstep => step_aligned hs hstep

/-- No inactive device is marked as playing. -/
def AllStopped (l : DeviceList) : Prop :=
  ∀ device ∈ l.ctrl.devices, device.isActive = false → device.isPlaying = false

/-- A device that is playing and not active any more was active in the last sample. -/
def NoneMissed (l : DeviceList) : Prop :=
  ∀ (i : Nat) (device : DeviceInfo) (row : DeviceRow), l.ctrl.devices[i]? = some device →
    l.rows[i]? = some row → device.isActive = false → device.isPlaying = true → row.isActive = true

theorem allStopped_iff {l : DeviceList} : AllStopped l ↔ ∀ d, ¬ InactivePlaying l.ctrl d := by
  constructor
  · rintro hall d ⟨device, hdevice, hinactive, hplaying⟩
    rw [hall device (lookup_mem hdevice) hinactive] at hplaying
    cases hplaying
  · intro hnone device hmem hinactive
    obtain ⟨i, hi⟩ := List.mem_iff_getElem?.mp hmem
    rw [← lookup_natCast] at hi
    by_contra hplaying
    exact hnone i ⟨device, hi, hinactive, by simpa using hplaying⟩

/-- A tick stops every device that went offline exactly when its sample was active. -/
theorem tick_allStopped_iff {l : DeviceList} (hl : Aligned l) :
    AllStopped l.tick ↔ NoneMissed l := by
  have hpass (d : Int) : InactivePlaying l.tick.ctrl d ↔
      InactivePlaying l.ctrl d ∧ ∀ row, lookup l.rows d = some row → row.isActive = false := by
    have hpass := checkRows_inactivePlaying_iff l.rows hl.tables hl.rows d
    rwa [Int.sub_zero] at hpass
  simp only [allStopped_iff, hpass]
  constructor
  · intro hnone i device row hdevice hrow hinactive hplaying
    by_contra hsample
    refine hnone i ⟨⟨device, (lookup_natCast ..).trans hdevice, hinactive, hplaying⟩, ?_⟩
    intro row' hrow'
    rw [lookup_natCast, hrow] at hrow'
    cases hrow'
    simpa using hsample
  · rintro hseen d ⟨⟨device, hdevice, hinactive, hplaying⟩, hrow⟩
    obtain ⟨n, rfl⟩ := Int.eq_ofNat_of_zero_le (lookup_nonneg hdevice)
    have hlt := lookup_lt hdevice
    have hn : n < l.rows.length := by rw [hl.length]; omega
    have hsample : l.rows[n]? = some l.rows[n] := List.getElem?_eq_getElem hn
    have hseen :=
      hseen n device _ ((lookup_natCast ..).symm.trans hdevice) hsample hinactive hplaying
    rw [hrow _ ((lookup_natCast ..).trans hsample)] at hseen
    cases hseen

/-- In a run every tick leaves no inactive device playing exactly when no tick misses
one. -/
theorem ticks_stop_iff (es : List Event) :
    (∀ fs m, fs ++ [.tick] <+: es → exec step {} (fs ++ [.tick]) = some m → AllStopped m) ↔
      ∀ fs m, fs ++ [.tick] <+: es → exec step {} fs = some m → NoneMissed m := by
  constructor
  · intro hall fs m hprefix hm
    exact (tick_allStopped_iff (aligned_of_run hm)).mp
      (hall fs m.tick hprefix (exec_snoc_of .tick hm))
  · intro hall fs m hprefix hm
    obtain ⟨k, hk⟩ := exec_of_prefix (List.prefix_append fs [.tick]) hm
    rw [exec_snoc_of .tick hk] at hm
    obtain rfl := Option.some.inj hm
    exact (tick_allStopped_iff (aligned_of_run hk)).mpr (hall fs k hprefix hk)

/-- A login, a window, and a device that is sampled once. -/
def listed : List Event :=
  (loggedIn ++ [.addWindow 0, deviceAdded "rtmp://127.0.0.1/live/000001"]).map .ctrl ++ [.tick]

/-- The server says that device 000001 is not active. -/
def deviceOffline : MainCtrl.Event :=
  .message (some (.object [("reply", .object [("operation", .string "device status change"),
    ("device_id", .string "000001"), ("device_status", .string "inactive")])]))

/-- Between two ticks the device comes online, is played and goes offline: no tick sees
it active, and it stays marked as playing. -/
theorem edge_between_ticks :
    ∃ l, exec step {} (listed ++
        [.ctrl deviceOnline, .ctrl (.playVideo 0), .ctrl deviceOffline, .tick]) = some l ∧
      ¬ AllStopped l := by
  have hrun : ∃ l device, exec step {} (listed ++
      [.ctrl deviceOnline, .ctrl (.playVideo 0), .ctrl deviceOffline, .tick]) = some l ∧
      l.ctrl.devices = [device] ∧ device.isActive = false ∧ device.isPlaying = true :=
    ⟨_, _, rfl, rfl, rfl, rfl⟩
  obtain ⟨l, device, hexec, hdevices, hinactive, hplaying⟩ := hrun
  refine ⟨l, hexec, fun hall => ?_⟩
  rw [hall device (by simp [hdevices]) hinactive] at hplaying
  cases hplaying

end DeviceList

end MiniSurveillance
