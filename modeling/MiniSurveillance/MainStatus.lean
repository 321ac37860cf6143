import Mathlib.Tactic.IntervalCases
import MiniSurveillance.MainCtrl

/-!
# Which status messages are lost

`MessageHandle` marks the first device with the key of a status message, and
`addDevice` adds a device as inactive. `tracked_along_iff` says which runs lose no
status: a device is added while its key is not active, and a message that changes
the status of a key meets at most one device with that key.

* `marked_iff`: what marking one device does to a table that was up to date.
* `step_tracked_iff`: one step.
* `message_before_device_is_lost`: a message that comes before its device.
-/

namespace MiniSurveillance.MainCtrl
open Table Runs

/-- The key and the status a status message names. -/
def statusOf : Event → Option (String × String)
  | .message msg =>
    match readMessage msg with
    | .ok status => status
    | .error _ => none
  | _ => none

/-- The status the last status message for a key said. The stream of messages is
opened by the login, which happens once in a run. -/
def lastStatus (es : List Event) (k : String) : Option String :=
  (((es.filterMap statusOf).filter fun status => status.1 == k).getLast?).map Prod.snd

/-- Every device is active exactly when the last message for its key said so. -/
def Tracked (es : List Event) (s : MainCtrl) : Prop :=
  ∀ device ∈ s.devices, (device.isActive = true ↔ lastStatus es device.key = some "active")

def keyCount (devices : List DeviceInfo) (k : String) : Nat :=
  devices.countP fun device => device.key == k

/-- What a step must meet: a device is added while its key is not active, and a
message that changes the status of a key meets at most one device with the key, or
none if it names no key or no status and is ignored. -/
def KeepsTrack (es : List Event) (s : MainCtrl) : Event → Prop
  | .addDevice key r => AnswersDevice r → lastStatus es key ≠ some "active"
  | .message msg => ∀ k status, statusOf (.message msg) = some (k, status) →
      (status = "active" ↔ lastStatus es k = some "active") ∨
        keyCount s.devices k ≤ if k = "" ∨ status = "" then 0 else 1
  | _ => True

/-! ## The history -/

theorem lastStatus_snoc_of_none {es : List Event} {e : Event} {k : String}
    (h : statusOf e = none) : lastStatus (es ++ [e]) k = lastStatus es k := by
  simp [lastStatus, List.filterMap_append, h]

theorem lastStatus_snoc_of_some {es : List Event} {e : Event} {k k' status : String}
    (h : statusOf e = some (k', status)) :
    lastStatus (es ++ [e]) k = if k = k' then some status else lastStatus es k := by
  unfold lastStatus
  rw [List.filterMap_append, List.filter_append]
  by_cases hk : k = k'
  · simp [h, hk]
  · simp [h, hk, Ne.symm hk]

/-! ## One message -/

section Message

variable {last : String → Option String} {k status : String}

/-- The table says what the last messages said. -/
def UpToDate (last : String → Option String) (devices : List DeviceInfo) : Prop :=
  ∀ device ∈ devices, (device.isActive = true ↔ last device.key = some "active")

theorem upToDate_cons {device : DeviceInfo} {devices : List DeviceInfo} :
    UpToDate last (device :: devices) ↔
      (device.isActive = true ↔ last device.key = some "active") ∧ UpToDate last devices :=
  List.forall_mem_cons

/-- After a message nobody acts on, a table is still up to date when the message
repeats the status of its key or no device has the key. -/
theorem ignored_iff {devices : List DeviceInfo} (h : UpToDate last devices) :
    UpToDate (Function.update last k (some status)) devices ↔
      (status = "active" ↔ last k = some "active") ∨ keyCount devices k = 0 := by
  unfold keyCount
  rw [List.countP_eq_zero]
  constructor
  · intro hnow
    by_cases hkey : ∃ device ∈ devices, device.key = k
    · obtain ⟨device, hmem, rfl⟩ := hkey
      have hafter := hnow device hmem
      rw [Function.update_self] at hafter
      exact .inl ((Option.some.injEq _ _ ▸ hafter.symm).trans (h device hmem))
    · exact .inr fun device hmem hsame => hkey ⟨device, hmem, by simpa using hsame⟩
  · rintro hor device hmem
    rw [h device hmem]
    by_cases hkey : device.key = k
    · rw [hkey, Function.update_self, Option.some.injEq]
      rcases hor with hsame | hnone
      · exact hsame.symm
      · exact absurd (beq_iff_eq.mpr hkey) (by simpa using hnone device hmem)
    · rw [Function.update_of_ne hkey]

/-- After the first device with the key is marked, a table is still up to date when
the message repeats the status of its key or no other device has the key. -/
theorem marked_iff {devices : List DeviceInfo} (h : UpToDate last devices) :
    UpToDate (Function.update last k (some status)) (markDevice k (status == "active") devices) ↔
      (status = "active" ↔ last k = some "active") ∨ keyCount devices k ≤ 1 := by
  induction devices with
  | nil => simp [UpToDate, markDevice, keyCount]
  | cons device devices ih =>
    obtain ⟨hdevice, hdevices⟩ := upToDate_cons.mp h
    rw [keyCount, List.countP_cons]
    by_cases hkey : device.key = k
    · have hnow : (status == "active") = true ↔
          Function.update last k (some status) device.key = some "active" := by
        rw [hkey, Function.update_self, Option.some.injEq, beq_iff_eq]
      have hcount (n : Nat) : n + 1 ≤ 1 ↔ n = 0 := by omega
      rw [markDevice, if_pos hkey, if_pos (beq_iff_eq.mpr hkey), upToDate_cons,
        ignored_iff hdevices, keyCount, hcount]
      exact and_iff_right hnow
    · have hnow : device.isActive = true ↔
          Function.update last k (some status) device.key = some "active" := by
        rw [Function.update_of_ne hkey]
        exact hdevice
      rw [markDevice, if_neg hkey, if_neg (mt beq_iff_eq.mp hkey), upToDate_cons, ih hdevices]
      exact and_iff_right hnow

end Message

/-! ## Steps -/

theorem tracked_iff_upToDate {es : List Event} {s : MainCtrl} :
    Tracked es s ↔ UpToDate (lastStatus es) s.devices := Iff.rfl

/-- A step whose event is no status message and adds no device keeps track. -/
theorem tracked_of_same {es : List Event} {s t : MainCtrl} {e : Event}
    (hstatus : statusOf e = none)
    (hsame : t.devices.map (fun device => (device.key, device.isActive)) =
      s.devices.map fun device => (device.key, device.isActive))
    (hs : Tracked es s) : Tracked (es ++ [e]) t := by
  intro device hmem
  have hpair := List.mem_map_of_mem (f := fun device => (device.key, device.isActive)) hmem
  rw [hsame] at hpair
  obtain ⟨before, hbefore, heq⟩ := List.mem_map.mp hpair
  rw [Prod.mk.injEq] at heq
  rw [lastStatus_snoc_of_none hstatus, ← heq.1, ← heq.2]
  exact hs before hbefore

theorem addDevice_tracked_iff {es : List Event} {s t : MainCtrl} {key : String} {r : Reply}
    (hs : Tracked es s) (h : step s (.addDevice key r) = some t) :
    Tracked (es ++ [.addDevice key r]) t ↔ KeepsTrack es s (.addDevice key r) := by
  rcases addDevice_leaves s key r t h with ⟨hsame, hno⟩ | ⟨⟨name, rtmpUrl, encryption, hsame⟩, hyes⟩
  · exact iff_of_true (tracked_of_same rfl (by rw [hsame.devices]) hs) fun h => absurd h hno
  · have hkeeps : KeepsTrack es s (.addDevice key r) ↔ lastStatus es key ≠ some "active" :=
      imp_iff_right hyes
    rw [hkeeps, Tracked, hsame.devices]
    simp only [List.forall_mem_append, List.forall_mem_singleton, Bool.false_eq_true, false_iff,
      lastStatus_snoc_of_none (e := .addDevice key r) rfl]
    exact and_iff_right hs

theorem message_tracked_iff {es : List Event} {s t : MainCtrl} {msg : Option Json}
    (hs : Tracked es s) (h : step s (.message msg) = some t) :
    Tracked (es ++ [.message msg]) t ↔ KeepsTrack es s (.message msg) := by
  simp only [step] at h
  split at h
  case isFalse => cases h
  have hlast {k status : String} (hstatus : statusOf (.message msg) = some (k, status)) :
      lastStatus (es ++ [.message msg]) = Function.update (lastStatus es) k (some status) := by
    funext k'
    rw [lastStatus_snoc_of_some hstatus, Function.update_apply]
  rcases messageHandle_cases h with ⟨hread, rfl⟩ | ⟨k, status, hread, hdone⟩
  · have hstatus : statusOf (.message msg) = none := by simp only [statusOf, hread]
    refine iff_of_true (tracked_of_same hstatus rfl hs) fun k status hsome => ?_
    rw [hstatus] at hsome
    cases hsome
  · have hstatus : statusOf (.message msg) = some (k, status) := by simp only [statusOf, hread]
    have hkeeps : KeepsTrack es s (.message msg) ↔
        (status = "active" ↔ lastStatus es k = some "active") ∨
          keyCount s.devices k ≤ if k = "" ∨ status = "" then 0 else 1 := by
      simp only [KeepsTrack, hstatus, Option.some.injEq, Prod.mk.injEq]
      constructor
      · intro hall
        exact hall k status ⟨rfl, rfl⟩
      · rintro hone _ _ ⟨rfl, rfl⟩
        exact hone
    rw [hkeeps, tracked_iff_upToDate, hlast hstatus]
    rcases hdone with ⟨hk, hst, rfl⟩ | ⟨hignored, rfl⟩
    · rw [if_neg (not_or.mpr ⟨hk, hst⟩)]
      exact marked_iff hs
    · rw [if_pos hignored, Nat.le_zero]
      exact ignored_iff hs

/-- From a state that is up to date a step leads to one exactly under its condition. -/
theorem step_tracked_iff {es : List Event} {s t : MainCtrl} {e : Event} (hs : Tracked es s)
    (h : step s e = some t) : Tracked (es ++ [e]) t ↔ KeepsTrack es s e := by
  by_cases hadd : ∃ key r, e = .addDevice key r
  · obtain ⟨key, r, rfl⟩ := hadd
    exact addDevice_tracked_iff hs h
  by_cases hmessage : ∃ msg, e = .message msg
  · obtain ⟨msg, rfl⟩ := hmessage
    exact message_tracked_iff hs h
  -- every other step touches at most where a device is shown
  have hfree : LinkFree fun device => (device.key, device.isActive) := fun _ _ _ _ => rfl
  have hsame := step_map hfree h (fun key r he => hadd ⟨key, r, he⟩)
    fun msg he => hmessage ⟨msg, he⟩
  have hneither : statusOf e = none ∧ KeepsTrack es s e := by
    cases e with
    | addDevice key r => exact absurd ⟨key, r, rfl⟩ hadd
    | message msg => exact absurd ⟨msg, rfl⟩ hmessage
    | _ => exact ⟨rfl, trivial⟩
  exact iff_of_true (tracked_of_same hneither.1 hsame hs) hneither.2

/-! ## Runs -/

/-- Along a run no status is lost exactly when every step meets its condition. -/
theorem tracked_along_iff {es : List Event} {s : MainCtrl} (hrun : exec step {} es = some s) :
    (∀ fs t, fs <+: es → exec step {} fs = some t → Tracked fs t) ↔
      ∀ fs e t, fs ++ [e] <+: es → exec step {} fs = some t → KeepsTrack fs t e :=
  holds_along_iff (by simp [Tracked]) (fun _ _ _ _ hs hstep => step_tracked_iff hs hstep) hrun

/-- A login, a device, and its status message. -/
def addThenOnline : List Event :=
  loggedIn ++ [deviceAdded "rtmp://127.0.0.1/live/000001", deviceOnline]

/-- A device that is added before its status message is up to date throughout. -/
theorem tracked_along_iff_addThenOnline :
    ∃ s, exec step {} addThenOnline = some s ∧ s.devices.map DeviceInfo.isActive = [true] ∧
      ∀ fs t, fs <+: addThenOnline → exec step {} fs = some t → Tracked fs t := by
  have hrun : ∃ s, exec step {} addThenOnline = some s ∧
      s.devices.map DeviceInfo.isActive = [true] := ⟨_, rfl, rfl⟩
  obtain ⟨s, hexec, hactive⟩ := hrun
  refine ⟨s, hexec, hactive, (tracked_along_iff hexec).mpr fun fs e t hprefix ht => ?_⟩
  have hlen := hprefix.length_le
  rw [List.length_append, show addThenOnline.length = 5 from rfl] at hlen
  have hlen : fs.length < 5 := hlen
  obtain ⟨rest, hrest⟩ := hprefix
  have hfs : fs = addThenOnline.take fs.length := by
    rw [← hrest, List.append_assoc, List.take_left]
  have he : addThenOnline[fs.length]? = some e := by
    rw [← hrest, List.append_assoc, List.getElem?_append_right (Nat.le_refl _), Nat.sub_self]
    rfl
  generalize fs.length = n at hlen hfs he
  interval_cases n
  · cases he
    trivial
  · cases he
    trivial
  · cases he
    trivial
  · subst hfs
    cases he
    intro _
    decide
  · subst hfs
    cases he
    cases ht
    intro k status hstatus
    cases hstatus
    exact .inr (by decide)

/-- The status message comes before the device: the last message said active, and
the device is added as inactive. -/
theorem message_before_device_is_lost :
    ∃ s, exec step {} (loggedIn ++ [deviceOnline, deviceAdded "rtmp://127.0.0.1/live/000001"]) =
        some s ∧
      ¬ Tracked (loggedIn ++ [deviceOnline, deviceAdded "rtmp://127.0.0.1/live/000001"]) s := by
  have hrun : ∃ s device, exec step {}
      (loggedIn ++ [deviceOnline, deviceAdded "rtmp://127.0.0.1/live/000001"]) = some s ∧
      s.devices = [device] ∧ device.key = "000001" ∧ device.isActive = false :=
    ⟨_, _, rfl, rfl, rfl, rfl⟩
  obtain ⟨s, device, hexec, hdevices, hkey, hinactive⟩ := hrun
  refine ⟨s, hexec, fun htracked => ?_⟩
  have hactive := (htracked device (by simp [hdevices])).mpr (by rw [hkey]; decide)
  rw [hinactive] at hactive
  cases hactive

end MiniSurveillance.MainCtrl
