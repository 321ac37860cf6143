import MiniSurveillance.MainServer
import MiniSurveillance.RecordDownload

/-!
# The main controller from construction to destruction

`MainCtrl` owns two pointers: `rpc`, made by the call that completes the server's
address, and `msg_cb_thread`, made by a login that is given a token. The message thread
goes through `rpc` once, into `streamCall`, and stays there until the stream ends. The
destructor logs out over `rpc` and joins the thread.

A `Lifetime` is a controller with its message thread. A run ends with the first
`Misuse` of one of the pointers; the calls that only read a field are left out.

* `crashes_iff` of the calls says that the first two tests of `guiCall` are their crashes.
* `known_of_exec`: what the events so far say about the two pointers.
* `Known.step`: a step misuses none exactly if it is careful.
* `unmisused_iff`: which runs misuse none.
-/

namespace MiniSurveillance
open Table Text MainCtrl Runs

/-- Where the message thread is. -/
inductive MsgThread
  | absent
  | created
  /-- In `streamCall`, on the client `rpc` points to. -/
  | streaming
  | ended
deriving DecidableEq, Repr

/-- How far the destructor is. -/
inductive Closing
  | notYet
  | joining
  | closed
deriving DecidableEq, Repr

/-- What must not happen to the two pointers. -/
inductive Misuse
  /-- `rpc->` with `rpc` null. -/
  | nullRpc
  /-- `msg_cb_thread->join()` with `msg_cb_thread` null. -/
  | nullThread
  /-- `msg_cb_thread` is replaced while its thread has not been joined. -/
  | unjoinedThread
  /-- `rpc` is replaced while the message thread is in `streamCall` on it. -/
  | busyRpc
deriving DecidableEq, Repr

structure Lifetime where
  main : MainCtrl := {}
  thread : MsgThread := .absent
  closing : Closing := .notYet
  misuse : Option Misuse := none

namespace Lifetime

/-- What can happen: a call or a message, a recording that is asked for, the message
thread that gets to `streamCall` and returns from it, and the destructor, which logs out
and joins the thread. -/
inductive Event
  | main (e : MainCtrl.Event)
  | getRecordFile (deviceIdx : Int) (beginTime endTime applicationDirPath : String) (d : Download)
      (file : Option (List UInt8))
  | threadStarts
  | streamEnds
  | close (r : Reply)
  | joined

def misused (s : Lifetime) (m : Misuse) : Lifetime := { s with misuse := some m }

/-- A call of the GUI. -/
def guiCall (s : Lifetime) (e : MainCtrl.Event) : Option Lifetime :=
  if s.main.usesRpc e = true ∧ s.main.rpc = false then some (s.misused .nullRpc)
  else if startsThread e = true ∧ s.main.msgCbThread = true then some (s.misused .unjoinedThread)
  else if makesClient s.main.address e = true ∧ s.thread = .streaming then
    some (s.misused .busyRpc)
  else
    (MainCtrl.step s.main e).map fun main =>
      { s with main, thread := if startsThread e then .created else s.thread }

/-- The first lines of the destructor, up to the wait in `join`. An exception of the
logout leaves the destructor and ends the process. -/
def close (s : Lifetime) (r : Reply) : Option Lifetime :=
  match s.main.call (request "logout" [("token", s.main.token)]) r with
  | .crashed => some (s.misused .nullRpc)
  | .raised _ _ => none
  | .ok _ main =>
    if main.msgCbThread = false then some ({ s with main }.misused .nullThread)
    else some { s with main, closing := .joining }

/-- An event in a run without misuse so far. -/
def act (s : Lifetime) : Event → Option Lifetime
  | .main (.message msg) =>
    if s.thread = .streaming then
      (MainCtrl.step s.main (.message msg)).map fun main => { s with main }
    else none
  | .main (.pullThreadEnds p) =>
    (MainCtrl.step s.main (.pullThreadEnds p)).map fun main => { s with main }
  | .main e => if s.closing = .notYet then s.guiCall e else none
  | .getRecordFile deviceIdx beginTime endTime dir d file =>
    if s.closing = .notYet then
      if (lookup s.main.devices deviceIdx).isSome = true ∧ s.main.rpc = false then
        some (s.misused .nullRpc)
      else
        (s.main.getRecordFile deviceIdx beginTime endTime dir d file).after.map fun main =>
          { s with main }
    else none
  | .threadStarts =>
    if s.thread = .created then
      if s.main.rpc = false then some (s.misused .nullRpc)
      else some { s with thread := .streaming }
    else none
  | .streamEnds => if s.thread = .streaming then some { s with thread := .ended } else none
  | .close r => if s.closing = .notYet then s.close r else none
  | .joined =>
    if s.closing = .joining ∧ s.thread = .ended then some { s with closing := .closed } else none

def step (s : Lifetime) (e : Event) : Option Lifetime :=
  if s.misuse = none then s.act e else none

/-! ## What the events so far say -/

/-- The two halves of the address behind the events. -/
def settings (fs : List Event) : String × String :=
  fs.foldl (fun address e => match e with
    | .main e => setAddress address e
    | _ => address) ("", "")

/-- Both halves of the address were set at some time. -/
def Configured (fs : List Event) : Prop :=
  ∃ gs, gs <+: fs ∧ (settings gs).1 ≠ "" ∧ (settings gs).2 ≠ ""

/-- A login was given a token. -/
def LoggedIn (fs : List Event) : Prop :=
  ∃ username password r, .main (.loginUser username password r) ∈ fs ∧ grantsToken r = true

/-- What an event has to find: `addDevice`, `register_user`, `login_user` and the end of
the program a configured server, the end also a login that was given a token, and a login
that is given one no other before it; a call that completes the address must not come
while the message thread is in `streamCall`. -/
def Careful (fs : List Event) (s : Lifetime) : Event → Prop
  | .main e => (asksServer e = true → Configured fs) ∧
      (startsThread e = true → ¬ LoggedIn fs) ∧
      (makesClient (settings fs) e = true → s.thread ≠ .streaming)
  | .close _ => Configured fs ∧ LoggedIn fs
  | .getRecordFile .. | .threadStarts | .streamEnds | .joined => True

theorem settings_main (fs : List Event) (e : MainCtrl.Event) :
    settings (fs ++ [.main e]) = setAddress (settings fs) e := by
  rw [settings, List.foldl_append]
  rfl

theorem settings_other {fs : List Event} {e : Event} (he : ∀ m, e ≠ .main m) :
    settings (fs ++ [e]) = settings fs := by
  rw [settings, List.foldl_append]
  cases e with
  | main m => exact absurd rfl (he m)
  | _ => rfl

theorem configured_snoc {fs : List Event} {e : Event} :
    Configured (fs ++ [e]) ↔ Configured fs ∨ complete (settings (fs ++ [e])) = true := by
  constructor
  · rintro ⟨gs, hgs, hset⟩
    rcases List.prefix_concat_iff.mp hgs with rfl | hgs
    · exact .inr (complete_iff.mpr hset)
    · exact .inl ⟨gs, hgs, hset⟩
  · rintro (⟨gs, hgs, hset⟩ | hset)
    · exact ⟨gs, hgs.trans (List.prefix_append fs [e]), hset⟩
    · exact ⟨_, List.prefix_rfl, complete_iff.mp hset⟩

theorem configured_of_complete {fs : List Event} (h : complete (settings fs) = true) :
    Configured fs := ⟨fs, List.prefix_rfl, complete_iff.mp h⟩

theorem configured_main {fs : List Event} {e : MainCtrl.Event} :
    Configured (fs ++ [.main e]) ↔ Configured fs ∨ makesClient (settings fs) e = true := by
  rw [configured_snoc, settings_main]
  cases e with
  | setServerIp ip => exact Iff.rfl
  | setServerPort port => exact Iff.rfl
  | _ => exact or_congr_right' fun h => ⟨fun hset => absurd (configured_of_complete hset) h,
      fun hclient => by cases hclient⟩

theorem configured_other {fs : List Event} {e : Event} (he : ∀ m, e ≠ .main m) :
    Configured (fs ++ [e]) ↔ Configured fs := by
  rw [configured_snoc, settings_other he]
  exact or_iff_left_of_imp configured_of_complete

theorem loggedIn_main {fs : List Event} {e : MainCtrl.Event} :
    LoggedIn (fs ++ [.main e]) ↔ LoggedIn fs ∨ startsThread e = true := by
  constructor
  · rintro ⟨username, password, r, hmem, hgrants⟩
    rcases List.mem_append.mp hmem with hmem | hmem
    · exact .inl ⟨username, password, r, hmem, hgrants⟩
    · cases List.mem_singleton.mp hmem
      exact .inr hgrants
  · rintro (⟨username, password, r, hmem, hgrants⟩ | hstarts)
    · exact ⟨username, password, r, List.mem_append_left _ hmem, hgrants⟩
    · cases e with
      | loginUser username password r =>
        exact ⟨username, password, r, List.mem_append_right _ List.mem_cons_self, hstarts⟩
      | _ => cases hstarts

theorem loggedIn_other {fs : List Event} {e : Event} (he : ∀ m, e ≠ .main m) :
    LoggedIn (fs ++ [e]) ↔ LoggedIn fs := by
  constructor
  · rintro ⟨username, password, r, hmem, hgrants⟩
    rcases List.mem_append.mp hmem with hmem | hmem
    · exact ⟨username, password, r, hmem, hgrants⟩
    · exact absurd (List.mem_singleton.mp hmem).symm (he _)
  · rintro ⟨username, password, r, hmem, hgrants⟩
    exact ⟨username, password, r, List.mem_append_left _ hmem, hgrants⟩

/-- What is known of the pointers from the events so far. -/
structure Known (fs : List Event) (s : Lifetime) : Prop where
  address : s.main.address = settings fs
  rpc : s.main.rpc = true ↔ Configured fs
  thread : s.main.msgCbThread = true ↔ LoggedIn fs
  devices : s.main.devices ≠ [] → s.main.rpc = true
  running : s.thread ≠ .absent → s.main.rpc = true

theorem known_init : Known [] {} where
  address := rfl
  rpc := by simp [Configured, settings]
  thread := by simp [LoggedIn]
  devices h := absurd rfl h
  running h := absurd rfl h

/-- A call goes through. -/
theorem Known.main {fs : List Event} {s : Lifetime} {e : MainCtrl.Event} {main : MainCtrl}
    (h : Known fs s) (hstep : MainCtrl.step s.main e = some main) : Known (fs ++ [.main e])
      { s with main, thread := if startsThread e then .created else s.thread } := by
  obtain ⟨hip, hport, hrpc, hthread⟩ := step_server hstep
  have hkeeps : s.main.rpc = true → main.rpc = true := by
    intro hset
    rw [hrpc, serverAfter, hset, Bool.true_or]
  constructor
  · rw [settings_main, ← h.address]
    exact Prod.ext hip hport
  · rw [configured_main, ← h.rpc, ← h.address, hrpc, serverAfter, Bool.or_eq_true]
  · rw [loggedIn_main, ← h.thread, hthread, serverAfter, Bool.or_eq_true]
  · intro hdevices
    rcases devices_of_step hstep hdevices with hbefore | hset
    · exact hkeeps (h.devices hbefore)
    · exact hkeeps hset
  · intro hrunning
    by_cases hstarts : startsThread e = true
    · refine hkeeps ((goesThrough hstep).1 ?_)
      cases e with
      | loginUser username password r => rfl
      | _ => cases hstarts
    · simp only [hstarts] at hrunning
      exact hkeeps (h.running hrunning)

/-- What happens beside the calls leaves the pointers alone. -/
theorem Known.other {fs : List Event} {s t : Lifetime} {e : Event} (h : Known fs s)
    (he : ∀ m, e ≠ .main m) (hserver : SameServer s.main t.main)
    (hdevices : t.main.devices = s.main.devices)
    (hthread : t.thread ≠ .absent → s.thread ≠ .absent) : Known (fs ++ [e]) t := by
  obtain ⟨hip, hport, hrpc, hjoinable⟩ := hserver
  constructor
  · rw [settings_other he, ← h.address]
    exact Prod.ext hip hport
  · rw [configured_other he, hrpc]
    exact h.rpc
  · rw [loggedIn_other he, hjoinable]
    exact h.thread
  · rw [hdevices, hrpc]
    exact h.devices
  · rw [hrpc]
    exact fun hrunning => h.running (hthread hrunning)

/-! ## One event -/

/-- What a step says: it misused no pointer exactly if it was careful, and if it misused
none, what the pointers are. -/
structure Tells (fs : List Event) (s : Lifetime) (e : Event) (t : Lifetime) : Prop where
  careful : t.misuse = none ↔ Careful fs s e
  known : t.misuse = none → Known (fs ++ [e]) t

theorem Tells.of_misused {fs : List Event} {s : Lifetime} {e : Event} (h : ¬ Careful fs s e)
    (u : Lifetime) (m : Misuse) : Tells fs s e (u.misused m) where
  careful := iff_of_false (by simp [misused]) h
  known hno := by cases hno

theorem Tells.of_careful {fs : List Event} {s t : Lifetime} {e : Event} (h : Careful fs s e)
    (hnone : t.misuse = none) (hknown : Known (fs ++ [e]) t) : Tells fs s e t :=
  ⟨iff_of_true hnone h, fun _ => hknown⟩

theorem lookup_devices {s : MainCtrl} {d : Int} (h : (lookup s.devices d).isSome = true) :
    s.devices ≠ [] := by
  intro hnil
  rw [hnil] at h
  simp at h

/-- A call that uses a null `rpc` is one that always does, before the server is configured:
the others need a device. -/
theorem Known.usesNull_iff {fs : List Event} {s : Lifetime} (h : Known fs s)
    (e : MainCtrl.Event) : (s.main.usesRpc e = true ∧ s.main.rpc = false) ↔
      asksServer e = true ∧ ¬ Configured fs := by
  have htalk {w : Int} (hdevice : (s.main.talkDevice w).isSome = true) :
      s.main.rpc = true := by
    obtain ⟨device, hdevice⟩ := Option.isSome_iff_exists.mp hdevice
    obtain ⟨window, _, hlookup⟩ := Option.bind_eq_some_iff.mp hdevice
    exact h.devices (lookup_devices (Option.isSome_iff_exists.mpr ⟨device, hlookup⟩))
  have hiff : s.main.rpc = false ↔ ¬ Configured fs := by
    rw [← h.rpc, Bool.not_eq_true]
  cases e with
  | startTalk w r =>
    refine iff_of_false ?_ (by simp [asksServer])
    rintro ⟨huses, hrpc⟩
    rw [usesRpc, Bool.and_eq_true] at huses
    rw [htalk huses.2] at hrpc
    cases hrpc
  | stopTalk w r =>
    refine iff_of_false ?_ (by simp [asksServer])
    rintro ⟨huses, hrpc⟩
    rw [usesRpc, Bool.and_eq_true] at huses
    rw [htalk huses.2] at hrpc
    cases hrpc
  | _ => exact and_congr_right' hiff

/-- A call of the GUI misuses no pointer exactly if it is careful. -/
theorem Known.guiCall {fs : List Event} {s t : Lifetime} (h : Known fs s)
    (hnone : s.misuse = none) {e : MainCtrl.Event} (hstep : s.guiCall e = some t) :
    Tells fs s (.main e) t := by
  unfold Lifetime.guiCall at hstep
  rw [h.address] at hstep
  split at hstep
  · next hnull =>
    obtain rfl := Option.some.inj hstep
    obtain ⟨hasks, hconfigured⟩ := (h.usesNull_iff e).mp hnull
    refine .of_misused (fun hcareful => ?_) s _
    exact hconfigured (hcareful.1 hasks)
  next hnull =>
  split at hstep
  · next hjoinable =>
    obtain rfl := Option.some.inj hstep
    refine .of_misused (fun hcareful => ?_) s _
    exact hcareful.2.1 hjoinable.1 (h.thread.mp hjoinable.2)
  next hjoinable =>
  split at hstep
  · next hbusy =>
    obtain rfl := Option.some.inj hstep
    refine .of_misused (fun hcareful => ?_) s _
    exact hcareful.2.2 hbusy.1 hbusy.2
  next hbusy =>
  obtain ⟨main, hmain, rfl⟩ := Option.map_eq_some_iff.mp hstep
  rw [h.usesNull_iff e, not_and, not_not] at hnull
  rw [not_and, h.thread] at hjoinable
  exact .of_careful ⟨hnull, hjoinable, not_and.mp hbusy⟩ hnone (h.main hmain)

/-- The destructor misuses no pointer exactly if the server is configured and a login was
given a token. -/
theorem Known.close {fs : List Event} {s t : Lifetime} (h : Known fs s)
    (hnone : s.misuse = none) {r : Reply} (hstep : s.close r = some t) :
    Tells fs s (.close r) t := by
  unfold Lifetime.close MainCtrl.call at hstep
  cases hrpc : s.main.rpc with
  | false =>
    rw [hrpc, if_neg Bool.false_ne_true] at hstep
    obtain rfl := Option.some.inj hstep
    refine .of_misused (fun hcareful => ?_) s _
    rw [h.rpc.mpr hcareful.1] at hrpc
    cases hrpc
  | true =>
    rw [if_pos hrpc] at hstep
    cases hcall : IPCClient.call r with
    | error f =>
      rw [hcall] at hstep
      cases hstep
    | ok reply =>
      simp only [hcall, Outcome.ofExcept_ok] at hstep
      split at hstep
      · next hjoins =>
        obtain rfl := Option.some.inj hstep
        refine .of_misused (fun hcareful => ?_) _ _
        rw [h.thread.mpr hcareful.2] at hjoins
        cases hjoins
      · next hjoins =>
        obtain rfl := Option.some.inj hstep
        have hthread : s.main.msgCbThread = true := by simpa using hjoins
        exact .of_careful ⟨h.rpc.mp hrpc, h.thread.mp hthread⟩ hnone
          (h.other (by simp) ⟨rfl, rfl, rfl, rfl⟩ rfl id)

/-- A recording that is asked for leaves everything but the record of requests. -/
theorem getRecordFile_server {s t : MainCtrl} {d : Int} {b e dir : String} {download : Download}
    {file : Option (List UInt8)} (h : (s.getRecordFile d b e dir download file).after = some t) :
    SameServer s t ∧ t.devices = s.devices := by
  unfold MainCtrl.getRecordFile at h
  split at h
  · obtain rfl := Option.some.inj h
    exact ⟨.refl s, rfl⟩
  split at h
  · dsimp only at h
    split at h
    · obtain rfl := Option.some.inj h
      exact ⟨⟨rfl, rfl, rfl, rfl⟩, rfl⟩
    · obtain rfl := Option.some.inj h
      exact ⟨⟨rfl, rfl, rfl, rfl⟩, rfl⟩
  · cases h

/-- A message, or the end of a pull thread, misuses no pointer. -/
theorem Known.inThread {fs : List Event} {s t : Lifetime} (h : Known fs s)
    (hnone : s.misuse = none) {e : MainCtrl.Event} (hstarts : startsThread e = false)
    (hasks : asksServer e = false) (hclient : ∀ address, makesClient address e = false)
    (hstep : (MainCtrl.step s.main e).map (fun main => { s with main }) = some t) :
    Tells fs s (.main e) t := by
  obtain ⟨main, hmain, rfl⟩ := Option.map_eq_some_iff.mp hstep
  refine .of_careful ⟨?_, ?_, ?_⟩ hnone ?_
  · simp [hasks]
  · simp [hstarts]
  · simp [hclient]
  · have hknown := h.main hmain
    rwa [if_neg (by simp [hstarts])] at hknown

/-- A step misuses no pointer exactly if it is careful, and says what it did to them. -/
theorem Known.step {fs : List Event} {s t : Lifetime} {e : Event} (h : Known fs s)
    (hstep : Lifetime.step s e = some t) : Tells fs s e t := by
  unfold Lifetime.step at hstep
  split at hstep
  case isFalse => cases hstep
  next hnone =>
  cases e with
  | main e =>
    cases e with
    | message msg =>
      simp only [act] at hstep
      split at hstep
      · exact h.inThread hnone rfl rfl (fun _ => rfl) hstep
      · cases hstep
    | pullThreadEnds p => exact h.inThread hnone rfl rfl (fun _ => rfl) hstep
    | _ =>
      simp only [act] at hstep
      split at hstep
      · exact h.guiCall hnone hstep
      · cases hstep
  | getRecordFile d b en dir download file =>
    simp only [act] at hstep
    split at hstep
    · split at hstep
      · next hnull =>
        rw [h.devices (lookup_devices hnull.1)] at hnull
        cases hnull.2
      · obtain ⟨main, hmain, rfl⟩ := Option.map_eq_some_iff.mp hstep
        obtain ⟨hserver, hdevices⟩ := getRecordFile_server hmain
        exact .of_careful trivial hnone (h.other (by simp) hserver hdevices id)
    · cases hstep
  | threadStarts =>
    simp only [act] at hstep
    split at hstep
    · next hcreated =>
      have hrpc : s.main.rpc = true := h.running (by simp [hcreated])
      rw [hrpc, if_neg (by simp)] at hstep
      obtain rfl := Option.some.inj hstep
      exact .of_careful trivial hnone
        (h.other (by simp) (.refl _) rfl fun _ => by simp [hcreated])
    · cases hstep
  | streamEnds =>
    simp only [act] at hstep
    split at hstep
    · next hstreaming =>
      obtain rfl := Option.some.inj hstep
      exact .of_careful trivial hnone
        (h.other (by simp) (.refl _) rfl fun _ => by simp [hstreaming])
    · cases hstep
  | close r =>
    simp only [act] at hstep
    split at hstep
    · exact h.close hnone hstep
    · cases hstep
  | joined =>
    simp only [act] at hstep
    split at hstep
    · obtain rfl := Option.some.inj hstep
      exact .of_careful trivial hnone (h.other (by simp) (.refl _) rfl id)
    · cases hstep

/-! ## Along a run -/

/-- The events of a run without misuse say what the pointers are. -/
theorem known_of_exec {es : List Event} {s : Lifetime} (hexec : exec step {} es = some s)
    (hnone : s.misuse = none) : Known es s := by
  refine exec_invariant (I := fun es s => s.misuse = none → Known es s)
    (fun _ => known_init) (fun fs u e t hu hstep hno => ?_) hexec hnone
  have hbefore : u.misuse = none := by
    unfold step at hstep
    split at hstep
    · assumption
    · cases hstep
  exact ((hu hbefore).step hstep).known hno

/-- No pointer is misused along a run exactly if each of its events is careful. -/
theorem unmisused_iff (es : List Event) :
    (∀ fs t, fs <+: es → exec step {} fs = some t → t.misuse = none) ↔
      AtEvents step {} es Careful :=
  holds_along_iff_atEvents (I := fun _ s => s.misuse = none) rfl
    (fun _ _ _ _ hs hnone hstep => ((known_of_exec hs hnone).step hstep).careful) es

/-- A login that is given a token, in a program with a configured server. -/
def session : List Event := loggedIn.map .main

/-- Each misuse happens: the program is closed before a server is configured, and before a
login; a second login is given a token; and the address is set again while the message
thread is in `streamCall`. -/
theorem misuses :
    (∃ t, exec step {} [.close .notOk] = some t ∧ t.misuse = some .nullRpc) ∧
    (∃ t, exec step {} (session.take 2 ++ [.close .notOk]) = some t ∧
      t.misuse = some .nullThread) ∧
    (∃ t, exec step {} (session ++ session.drop 2) = some t ∧
      t.misuse = some .unjoinedThread) ∧
    (∃ t, exec step {} (session ++ [.threadStarts, .main (.setServerIp "127.0.0.1")]) = some t ∧
      t.misuse = some .busyRpc) :=
  ⟨⟨_, rfl, rfl⟩, ⟨_, rfl, rfl⟩, ⟨_, rfl, rfl⟩, ⟨_, rfl, rfl⟩⟩

end Lifetime
end MiniSurveillance
