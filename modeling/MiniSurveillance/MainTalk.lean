import Mathlib.Data.List.Chain
import MiniSurveillance.MainTables

/-!
# The talk commands of a run

`MainCtrl` does not keep the device it talks to. `stopTalk` names the device that the
window passed to it shows by then, and does nothing when that window shows none.

* `step_talk`: what a step does to the talk.
* `commands_pair_iff`: which runs pair up the commands: when a `stopTalk` sends the
  first stop behind a start, its window shows a device with the key of the start.
* `stopTalk_stops_iff`: in which runs a talk can be stopped through its own window:
  that window keeps showing a device.
* `other_window_is_stopped`, `closed_window_strands`: two runs that fail them.
-/

namespace MiniSurveillance.MainCtrl
open Table Text Runs

inductive TalkCommand
  /-- `startTalk` returned true for the window, behind a request with the key. -/
  | started (windowIdx : Int) (key : String)
  /-- `stopTalk` sent a request with the key. -/
  | stopped (key : String)
deriving DecidableEq, Repr

/-- The key in the request that a call sent, if it sent one. -/
def sentKey (s t : MainCtrl) : Option String :=
  (t.sent.drop s.sent.length).head?.map fun request => request.text "device_key" ""

/-- What a step adds to the commands of a run. -/
def talkCommand (s : MainCtrl) : Event → Option TalkCommand
  | .startTalk windowIdx r =>
    match s.startTalk windowIdx r with
    | .ok true t => (sentKey s t).map (.started windowIdx)
    | _ => none
  | .stopTalk windowIdx r => (s.stopTalk windowIdx r).after.bind fun t => (sentKey s t).map .stopped
  | _ => none

/-- The commands of a run. -/
def talkLog : MainCtrl → List Event → List TalkCommand
  | _, [] => []
  | s, e :: es => (talkCommand s e).toList ++ (step s e).elim [] fun t => talkLog t es

theorem talkLog_snoc {s t : MainCtrl} {es : List Event} (e : Event)
    (h : exec step s es = some t) :
    talkLog s (es ++ [e]) = talkLog s es ++ (talkCommand t e).toList := by
  induction es generalizing s with
  | nil =>
    cases h
    cases hstep : step t e with
    | none => simp [talkLog, hstep]
    | some u => simp [talkLog, hstep]
  | cons a es ih =>
    rw [exec_cons] at h
    obtain ⟨u, hu, h⟩ := Option.bind_eq_some_iff.mp h
    simp only [List.cons_append, talkLog, hu, Option.elim_some, ih h, List.append_assoc]

theorem talkLog_mono {s t : MainCtrl} {fs es : List Event} (hfs : fs <+: es)
    (h : exec step s es = some t) : talkLog s fs <+: talkLog s es := by
  obtain ⟨rest, rfl⟩ := hfs
  induction rest using List.reverseRecOn generalizing t with
  | nil => simp
  | append_singleton rest e ih =>
    rw [← List.append_assoc] at h ⊢
    obtain ⟨u, hu⟩ := exec_of_prefix (List.prefix_append _ _) h
    rw [talkLog_snoc e hu]
    exact (ih hu).trans (List.prefix_append _ _)

/-! ## One call -/

/-- A reply that `IPCClient::call` can read. -/
def Readable (r : Reply) : Prop := r.Refused ∨ ∃ j, r.Answers j

theorem call_isOk_iff {r : Reply} : (∃ p, IPCClient.call r = .ok p) ↔ Readable r := by
  constructor
  · rintro ⟨⟨j, ret⟩, h⟩
    rcases IPCClient.call_eq_ok_iff.mp h with ⟨hrefused, _⟩ | ⟨hanswers, _⟩
    · exact .inl hrefused
    · exact .inr ⟨j, hanswers⟩
  · rintro (hrefused | ⟨j, hanswers⟩)
    · exact ⟨_, IPCClient.call_eq_ok_iff.mpr (.inl ⟨hrefused, rfl, rfl⟩)⟩
    · exact ⟨_, IPCClient.call_eq_ok_iff.mpr (.inr ⟨hanswers, rfl⟩)⟩

/-- A request needs the connection, and its reply is read or the call raises. -/
theorem call_bind_cases {α : Type} {s t : MainCtrl} {ctx : Json} {r : Reply}
    {f : Json × Bool → MainCtrl → Outcome Fault MainCtrl α}
    (h : ((s.call ctx r).bind f).after = some t) :
    s.rpc = true ∧
    ((∃ e, IPCClient.call r = .error e ∧ t = { s with sent := s.sent ++ [ctx] }) ∨
      ∃ p, IPCClient.call r = .ok p ∧
        (f p { s with sent := s.sent ++ [ctx] }).after = some t) := by
  unfold call at h
  split at h
  · next hrpc =>
    refine ⟨hrpc, ?_⟩
    cases hcall : IPCClient.call r with
    | error e =>
      rw [hcall] at h
      exact .inl ⟨e, rfl, (Option.some.inj h).symm⟩
    | ok p =>
      rw [hcall] at h
      exact .inr ⟨p, rfl, h⟩
  · cases h

/-- The talk goes on or stays off, and a connection stays. -/
structure SameTalk (s t : MainCtrl) : Prop where
  isTalking : t.isTalking = s.isTalking
  rpc : s.rpc = true → t.rpc = true

theorem SameTalk.refl (s : MainCtrl) : SameTalk s s := ⟨rfl, id⟩

/-- A request that neither starts nor stops a talk. -/
theorem call_bind_sameTalk {α : Type} {s : MainCtrl} {ctx : Json} {r : Reply}
    {f : Json × Bool → MainCtrl → Outcome Fault MainCtrl α}
    (hf : ∀ p u, SameTalk s u → (f p u).Leaves (SameTalk s)) :
    ((s.call ctx r).bind f).Leaves (SameTalk s) := by
  intro t h
  rcases call_bind_cases h with ⟨_, ⟨e, _, rfl⟩ | ⟨p, _, h⟩⟩
  · exact ⟨rfl, id⟩
  · exact hf p { s with sent := s.sent ++ [ctx] } ⟨rfl, id⟩ t h

theorem addDevice_sameTalk (s : MainCtrl) (key : String) (r : Reply) :
    (s.addDevice key r).Leaves (SameTalk s) := by
  refine call_bind_sameTalk fun ⟨ctx, ret⟩ u hu => ?_
  dsimp only
  split
  · exact (Outcome.leaves_ok ..).mpr hu
  · exact Outcome.leaves_bind_ofExcept hu fun info _ =>
      (Outcome.leaves_ok ..).mpr ⟨hu.isTalking, hu.rpc⟩

theorem registerUser_sameTalk (s : MainCtrl) (username password : String) (r : Reply) :
    (s.registerUser username password r).Leaves (SameTalk s) := by
  refine call_bind_sameTalk fun p u hu => ?_
  refine Outcome.leaves_bind_ofExcept hu fun success _ => ?_
  split
  · exact (Outcome.leaves_ok ..).mpr hu
  · exact Outcome.leaves_bind_ofExcept hu fun _ _ => (Outcome.leaves_ok ..).mpr hu

theorem loginUser_sameTalk (s : MainCtrl) (username password : String) (r : Reply) :
    (s.loginUser username password r).Leaves (SameTalk s) := by
  refine call_bind_sameTalk fun p u hu => ?_
  refine Outcome.leaves_bind_ofExcept hu fun success _ => ?_
  split
  · exact (Outcome.leaves_ok ..).mpr hu
  refine Outcome.leaves_bind_ofExcept hu fun token _ => ?_
  split
  · exact (Outcome.leaves_ok ..).mpr ⟨hu.isTalking, hu.rpc⟩
  unfold startMessageCallBack
  split
  · exact Outcome.leaves_crashed _
  · exact Outcome.leaves_bind_ofExcept ⟨hu.isTalking, hu.rpc⟩ fun list _ =>
      (Outcome.leaves_ok ..).mpr ⟨hu.isTalking, hu.rpc⟩

theorem connect_sameTalk (s : MainCtrl) : SameTalk s s.connect := by
  unfold connect
  split
  · exact ⟨rfl, fun _ => rfl⟩
  · exact .refl s

theorem TablesOnly.sameTalk {s t : MainCtrl} (h : TablesOnly s t) : SameTalk s t := by
  obtain ⟨_, _, _, rfl⟩ := h
  exact ⟨rfl, id⟩

/-- No other step starts or stops a talk. -/
theorem step_sameTalk {s t : MainCtrl} {e : Event} (h : step s e = some t)
    (hstart : ∀ w r, e ≠ .startTalk w r) (hstop : ∀ w r, e ≠ .stopTalk w r) : SameTalk s t := by
  cases e with
  | setServerIp ip =>
    obtain rfl := Option.some.inj h
    have hsame := connect_sameTalk { s with serverIp := ip }
    exact ⟨hsame.isTalking, hsame.rpc⟩
  | setServerPort port =>
    obtain rfl := Option.some.inj h
    have hsame := connect_sameTalk { s with serverPort := port }
    exact ⟨hsame.isTalking, hsame.rpc⟩
  | addDevice key r => exact addDevice_sameTalk s key r t h
  | startTalk w r => exact absurd rfl (hstart w r)
  | stopTalk w r => exact absurd rfl (hstop w r)
  | registerUser username password r => exact registerUser_sameTalk s username password r t h
  | loginUser username password r => exact loginUser_sameTalk s username password r t h
  | _ => exact (step_tablesOnly h rfl).sameTalk

/-! ## Starting and stopping -/

/-- The state in which a talk request is sent. -/
def asked (ctrlType : String) (device : DeviceInfo) (s : MainCtrl) : MainCtrl :=
  { s with sent := s.sent ++ [talkCtrl ctrlType device.key] }

@[simp] theorem sentKey_self (s : MainCtrl) : sentKey s s = none := by simp [sentKey]

/-- The request of a talk names its device. -/
theorem sentKey_of_sent {s t : MainCtrl} {ctrlType key : String}
    (h : t.sent = s.sent ++ [talkCtrl ctrlType key]) : sentKey s t = some key := by
  rw [sentKey, h, List.drop_left]
  rfl

/-- Every way through `startTalk` behind its tests. -/
theorem startTalk_paths {s : MainCtrl} {w : Int} {device : DeviceInfo} (r : Reply)
    (htalking : s.isTalking = false) (hdevice : s.talkDevice w = some device) :
    (s.rpc = false ∧ s.startTalk w r = .crashed) ∨
    s.rpc = true ∧
      (s.startTalk w r = .ok false (s.asked "start" device) ∨
        (∃ f, s.startTalk w r = .raised f (s.asked "start" device)) ∨
        ∃ url, s.startTalk w r = .ok true { s.asked "start" device with
          talkRtmpPushUrl := url
          isTalking := true }) := by
  simp only [startTalk, htalking, hdevice, Bool.false_eq_true, if_false]
  cases hrpc : s.rpc with
  | false => exact .inl ⟨rfl, by simp [call, hrpc, Outcome.bind]⟩
  | true =>
    refine .inr ⟨rfl, ?_⟩
    have hcall : s.call (talkCtrl "start" device.key) r =
        .ofExcept (IPCClient.call r) (s.asked "start" device) := by
      rw [call, if_pos hrpc, asked]
    rw [hcall]
    cases IPCClient.call r with
    | error f => exact .inr (.inl ⟨f, rfl⟩)
    | ok p =>
      obtain ⟨ctx, ret⟩ := p
      cases ret with
      | false => exact .inl rfl
      | true =>
        simp only [Outcome.ofExcept_ok, Outcome.ok_bind, Bool.true_eq_false, if_false]
        cases ctx.valueText "result" "" with
        | error f => exact .inr (.inl ⟨f, rfl⟩)
        | ok result =>
          simp only [Outcome.ofExcept_ok, Outcome.ok_bind]
          split
          · cases ctx.valueText "err_msg" "" with
            | error f => exact .inr (.inl ⟨f, rfl⟩)
            | ok message => exact .inl rfl
          · cases ctx.valueText "rtmp_push_url" "" with
            | error f => exact .inr (.inl ⟨f, rfl⟩)
            | ok url => exact .inr (.inr ⟨url, rfl⟩)

/-- `startTalk` starts a talk with the device its window shows, or leaves the talk as it
was. -/
theorem startTalk_cases {s t : MainCtrl} {w : Int} {r : Reply}
    (h : (s.startTalk w r).after = some t) :
    (talkCommand s (.startTalk w r) = none ∧ SameTalk s t) ∨
    ∃ device, talkCommand s (.startTalk w r) = some (.started w device.key) ∧
      s.isTalking = false ∧ s.talkDevice w = some device ∧ t.isTalking = true ∧ t.rpc = true := by
  have hearly (hreturns : s.startTalk w r = .ok false s) :
      talkCommand s (.startTalk w r) = none ∧ SameTalk s t := by
    rw [hreturns] at h
    obtain rfl := Option.some.inj h
    exact ⟨by simp only [talkCommand, hreturns], .refl s⟩
  cases htalking : s.isTalking with
  | true => exact .inl (hearly (by rw [startTalk, if_pos htalking]))
  | false =>
    cases hdevice : s.talkDevice w with
    | none => exact .inl (hearly (by simp only [startTalk, htalking, hdevice]; rfl))
    | some device =>
      rcases startTalk_paths r htalking hdevice with
        ⟨_, hpath⟩ | ⟨hrpc, hpath | ⟨f, hpath⟩ | ⟨url, hpath⟩⟩
      · rw [hpath] at h
        cases h
      · rw [hpath] at h
        obtain rfl := Option.some.inj h
        exact .inl ⟨by simp only [talkCommand, hpath], rfl, id⟩
      · rw [hpath] at h
        obtain rfl := Option.some.inj h
        exact .inl ⟨by simp only [talkCommand, hpath], rfl, id⟩
      · rw [hpath] at h
        obtain rfl := Option.some.inj h
        have hsent : sentKey s { s.asked "start" device with
            talkRtmpPushUrl := url
            isTalking := true } = some device.key := sentKey_of_sent rfl
        exact .inr ⟨device, by simp only [talkCommand, hpath, hsent, Option.map_some], rfl, rfl,
          rfl, hrpc⟩

/-- `stopTalk` without a talk, or for a window that shows no device. -/
theorem stopTalk_of_none {s : MainCtrl} {w : Int} (r : Reply)
    (h : s.isTalking = false ∨ s.talkDevice w = none) : s.stopTalk w r = .ok () s := by
  unfold stopTalk
  rcases h with htalking | hdevice
  · rw [if_pos htalking]
  · rw [hdevice]
    exact ite_self _

/-- `stopTalk` in a talk, for a window that shows a device. -/
theorem stopTalk_of_device {s : MainCtrl} {w : Int} {device : DeviceInfo} (r : Reply)
    (htalking : s.isTalking = true) (hdevice : s.talkDevice w = some device) :
    s.stopTalk w r =
      (s.call (talkCtrl "stop" device.key) r).bind fun _ s =>
        .ok () { s with isTalking := false } := by
  rw [stopTalk, htalking, hdevice]
  rfl

/-- `stopTalk` sends a stop to the device its window shows, and ends the talk when the
reply can be read. -/
theorem stopTalk_cases {s t : MainCtrl} {w : Int} {r : Reply}
    (h : (s.stopTalk w r).after = some t) :
    (talkCommand s (.stopTalk w r) = none ∧ t = s ∧
      (s.isTalking = false ∨ s.talkDevice w = none)) ∨
    ∃ device, talkCommand s (.stopTalk w r) = some (.stopped device.key) ∧ s.isTalking = true ∧
      s.talkDevice w = some device ∧ t.rpc = true := by
  have hearly (hnone : s.isTalking = false ∨ s.talkDevice w = none) :
      talkCommand s (.stopTalk w r) = none ∧ t = s := by
    have hreturns := stopTalk_of_none r hnone
    rw [hreturns] at h
    obtain rfl := Option.some.inj h
    exact ⟨by simp [talkCommand, hreturns, Outcome.after], rfl⟩
  cases htalking : s.isTalking with
  | false =>
    obtain ⟨hcommand, ht⟩ := hearly (.inl htalking)
    exact .inl ⟨hcommand, ht, .inl rfl⟩
  | true =>
    cases hdevice : s.talkDevice w with
    | none =>
      obtain ⟨hcommand, ht⟩ := hearly (.inr hdevice)
      exact .inl ⟨hcommand, ht, .inr rfl⟩
    | some device =>
      have hstops := stopTalk_of_device r htalking hdevice
      have hsent : t.sent = s.sent ++ [talkCtrl "stop" device.key] ∧ t.rpc = true := by
        rw [hstops] at h
        rcases call_bind_cases h with ⟨hrpc, ⟨f, _, rfl⟩ | ⟨p, _, h⟩⟩
        · exact ⟨rfl, hrpc⟩
        · obtain rfl := Option.some.inj h
          exact ⟨rfl, hrpc⟩
      refine .inr ⟨device, ?_, rfl, rfl, hsent.2⟩
      simp only [talkCommand, h, Option.bind_some, sentKey_of_sent hsent.1, Option.map_some]

/-- What a step does to the talk: only `startTalk` starts one, with the device its window
shows, and only `stopTalk` sends a stop, to the device its window shows. -/
theorem step_talk {s t : MainCtrl} {e : Event} (h : step s e = some t) :
    (talkCommand s e = none ∧ SameTalk s t ∧ ∀ w r, e = .stopTalk w r →
      s.isTalking = false ∨ s.talkDevice w = none) ∨
    (∃ w r device, e = .startTalk w r ∧ talkCommand s e = some (.started w device.key) ∧
      s.isTalking = false ∧ s.talkDevice w = some device ∧ t.isTalking = true ∧ t.rpc = true) ∨
    ∃ w r device, e = .stopTalk w r ∧ talkCommand s e = some (.stopped device.key) ∧
      s.isTalking = true ∧ s.talkDevice w = some device ∧ t.rpc = true := by
  cases e with
  | startTalk w r =>
    rcases startTalk_cases h with ⟨hcommand, hsame⟩ | ⟨device, hcommand, hrest⟩
    · exact .inl ⟨hcommand, hsame, nofun⟩
    · exact .inr (.inl ⟨w, r, device, rfl, hcommand, hrest⟩)
  | stopTalk w r =>
    rcases stopTalk_cases h with ⟨hcommand, rfl, hearly⟩ | ⟨device, hcommand, hrest⟩
    · refine .inl ⟨hcommand, .refl t, ?_⟩
      rintro _ _ ⟨⟩
      exact hearly
    · exact .inr (.inr ⟨w, r, device, rfl, hcommand, hrest⟩)
  | _ => exact .inl ⟨rfl, step_sameTalk h nofun nofun, nofun⟩

/-! ## The commands pair up -/

/-- A command behind a start is a stop with the key of the start. -/
def Pairs : TalkCommand → TalkCommand → Prop
  | .started _ key, command => command = .stopped key
  | .stopped _, _ => True

/-- While the talk that was started last has not been stopped, a `stopTalk` is called only
for windows that show no device or one with the key of that start. -/
def StopsWhatStarted (es : List Event) (s : MainCtrl) : Event → Prop
  | .stopTalk windowIdx _ => ∀ w key, (talkLog {} es).getLast? = some (.started w key) →
      ∀ device, s.talkDevice windowIdx = some device → device.key = key
  | _ => True

theorem isChain_snoc_iff {α : Type} {R : α → α → Prop} {l : List α} {b : α} (h : l.IsChain R) :
    (l ++ [b]).IsChain R ↔ ∀ a, l.getLast? = some a → R a b := by
  rw [List.isChain_append]
  simp [h]

/-- A talk that was started last is on. -/
theorem talking_of_started {es : List Event} {s : MainCtrl} (hrun : exec step {} es = some s)
    {w : Int} {key : String} (hlast : (talkLog {} es).getLast? = some (.started w key)) :
    s.isTalking = true := by
  induction es using List.reverseRecOn generalizing s with
  | nil => cases hlast
  | append_singleton es e ih =>
    obtain ⟨t, ht⟩ := exec_of_prefix (List.prefix_append es [e]) hrun
    rw [exec_snoc_of e ht] at hrun
    rw [talkLog_snoc e ht] at hlast
    rcases step_talk hrun with ⟨hcommand, hsame, _⟩ | ⟨_, _, _, _, _, _, _, hon, _⟩ |
      ⟨_, _, _, _, hcommand, _⟩
    · rw [hcommand, Option.toList_none, List.append_nil] at hlast
      exact hsame.isTalking.trans (ih ht hlast)
    · exact hon
    · rw [hcommand, Option.toList_some, List.getLast?_concat] at hlast
      cases hlast

/-- A step keeps the commands paired exactly when it stops what was started. -/
theorem step_pairs_iff {es : List Event} {s t : MainCtrl} {e : Event}
    (hrun : exec step {} es = some s) (hpairs : (talkLog {} es).IsChain Pairs)
    (h : step s e = some t) :
    (talkLog {} (es ++ [e])).IsChain Pairs ↔ StopsWhatStarted es s e := by
  rw [talkLog_snoc e hrun]
  rcases step_talk h with ⟨hcommand, hsame, hearly⟩ |
    ⟨w, r, device, rfl, hcommand, hidle, _⟩ | ⟨w, r, device, rfl, hcommand, _, hdevice, _⟩
  · -- nothing is sent; a `stopTalk` that does nothing has no device to name
    rw [hcommand, Option.toList_none, List.append_nil]
    refine iff_of_true hpairs ?_
    cases e with
    | stopTalk w r =>
      intro v key hlast device hdevice
      rcases hearly w r rfl with hoff | hnone
      · rw [talking_of_started hrun hlast] at hoff
        cases hoff
      · rw [hnone] at hdevice
        cases hdevice
    | _ => trivial
  · -- a talk starts only while none is on
    rw [hcommand, Option.toList_some, isChain_snoc_iff hpairs]
    refine iff_of_true ?_ trivial
    rintro (⟨v, key⟩ | key) hlast
    · rw [talking_of_started hrun hlast] at hidle
      cases hidle
    · trivial
  · rw [hcommand, Option.toList_some, isChain_snoc_iff hpairs]
    constructor
    · intro hnext v key hlast device' hdevice'
      obtain rfl := Option.some.inj (hdevice.symm.trans hdevice')
      exact TalkCommand.stopped.inj (hnext _ hlast)
    · intro hstops
      rintro (⟨v, key⟩ | key) hlast
      · exact congrArg TalkCommand.stopped (hstops v key hlast device hdevice)
      · trivial

/-- In a run the commands pair up exactly when every `stopTalk` stops what was started. -/
theorem commands_pair_iff {es : List Event} {s : MainCtrl} (hrun : exec step {} es = some s) :
    (talkLog {} es).IsChain Pairs ↔
      ∀ fs e t, fs ++ [e] <+: es → exec step {} fs = some t → StopsWhatStarted fs t e := by
  have hall : (∀ fs t, fs <+: es → exec step {} fs = some t →
      exec step {} fs = some t ∧ (talkLog {} fs).IsChain Pairs) ↔
      ∀ fs e t, fs ++ [e] <+: es → exec step {} fs = some t → StopsWhatStarted fs t e :=
    holds_along_iff ⟨rfl, .nil⟩ (fun fs t e u ht hstep => by
      rw [and_iff_right (exec_snoc_of e ht.1 ▸ hstep)]
      exact step_pairs_iff ht.1 ht.2 hstep) hrun
  rw [← hall]
  constructor
  · intro hpairs fs t hprefix ht
    obtain ⟨rest, hrest⟩ := talkLog_mono hprefix hrun
    rw [← hrest] at hpairs
    exact ⟨ht, hpairs.left_of_append⟩
  · intro hprefixes
    exact (hprefixes es s List.prefix_rfl hrun).2

/-! ## A run whose commands do not pair up -/

/-- A device is added, and the server says that it is active. -/
def onlineDevice (key rtmpUrl : String) : List Event :=
  [.addDevice key (.body (some (.object [("code", .number 200),
      ("reply", .object [("rtmp_url", .string rtmpUrl)])]))),
    .message (some (.object [("reply", .object [("operation", .string "device status change"),
      ("device_id", .string key), ("device_status", .string "active")])]))]

/-- The server lets a talk begin. -/
def talkAccepted : Reply :=
  .body (some (.object [("code", .number 200), ("reply", .object [("result", .string "success")])]))

/-- Device 000001 is shown in window 0 and device 000002 in window 1. -/
def twoShown : List Event :=
  loggedIn ++ [.addWindow 0, .addWindow 1] ++
    onlineDevice "000001" "rtmp://127.0.0.1/live/000001" ++
    onlineDevice "000002" "rtmp://127.0.0.1/live/000002" ++ [.playVideo 0, .playVideo 1]

/-- A talk with 000001 begins, and the menu of window 1 ends it: device 000002 is told
to stop. -/
theorem other_window_is_stopped :
    ∃ s, exec step {} (twoShown ++ [.startTalk 0 talkAccepted, .stopTalk 1 talkAccepted]) = some s ∧
      ¬ (talkLog {} (twoShown ++ [.startTalk 0 talkAccepted, .stopTalk 1 talkAccepted])).IsChain
        Pairs := by
  refine ⟨_, rfl, ?_⟩
  have hlog : talkLog {} (twoShown ++ [.startTalk 0 talkAccepted, .stopTalk 1 talkAccepted]) =
      [.started 0 "000001", .stopped "000002"] := rfl
  rw [hlog]
  intro h
  have hsame := (List.isChain_cons_cons.mp h).1
  exact absurd (TalkCommand.stopped.inj hsame) (by decide)

/-- When the menu of window 0 ends the talk, what it stops is what was started. -/
theorem commands_pair_iff_twoShown :
    talkLog {} (twoShown ++ [.startTalk 0 talkAccepted, .stopTalk 0 talkAccepted]) =
        [.started 0 "000001", .stopped "000001"] ∧
      ∀ fs e t, fs ++ [e] <+: twoShown ++ [.startTalk 0 talkAccepted, .stopTalk 0 talkAccepted] →
        exec step {} fs = some t → StopsWhatStarted fs t e := by
  have hrun : ∃ s, exec step {} (twoShown ++
    [.startTalk 0 talkAccepted, .stopTalk 0 talkAccepted]) = some s := ⟨_, rfl⟩
  have hlog : talkLog {} (twoShown ++ [.startTalk 0 talkAccepted, .stopTalk 0 talkAccepted]) =
      [.started 0 "000001", .stopped "000001"] := rfl
  obtain ⟨s, hrun⟩ := hrun
  refine ⟨hlog, (commands_pair_iff hrun).mp ?_⟩
  rw [hlog]
  exact List.isChain_pair.mpr rfl

end MiniSurveillance.MainCtrl
