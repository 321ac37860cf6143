import Mathlib.Logic.Function.Basic
import MiniSurveillance.Base.Runs
import MiniSurveillance.Base.Table
import MiniSurveillance.VideoCtrl

/-!
# The main controller

`MainCtrl` keeps the devices, the windows and the talk and login state; the GUI
calls it, and the message thread handles the messages of the server. A step is one
call with the server's reply to it, one message, or a pull thread that ends by
itself.

A run goes on behind a call that raises, from the state the exception leaves
behind; an exception in the message thread ends the process.
-/

namespace MiniSurveillance
open Table Text

structure DeviceInfo where
  name : String
  key : String
  rtmpUrl : String
  encryption : String
  isActive : Bool
  isPlaying : Bool
  isPlayingAudio : Bool
  windowIdx : Int
deriving DecidableEq, Repr

/-- `WindowInfo`; `videoCtrl` is an address. -/
structure WindowInfo where
  isPlaying : Bool
  deviceIdx : Int
  videoCtrl : Nat
deriving DecidableEq, Repr

/-- A device that `stopVideo` has stopped. -/
def DeviceInfo.stopped (device : DeviceInfo) : DeviceInfo :=
  { device with isPlaying := false, isPlayingAudio := false, windowIdx := -1 }

/-- A device that `playVideo` shows in a window. -/
def DeviceInfo.shownIn (device : DeviceInfo) (windowIdx : Int) : DeviceInfo :=
  { device with isPlaying := true, windowIdx := windowIdx }

/-- A window that `stopVideo` has freed. -/
def WindowInfo.freed (window : WindowInfo) : WindowInfo :=
  { window with isPlaying := false, deviceIdx := -1 }

/-- A window in which `playVideo` shows a device. -/
def WindowInfo.showing (window : WindowInfo) (deviceIdx : Int) : WindowInfo :=
  { window with deviceIdx := deviceIdx, isPlaying := true }

structure MainCtrl where
  devices : List DeviceInfo := []
  windows : List WindowInfo := []
  /-- The objects the windows point to, as constructed where nothing was called yet. -/
  ctrls : Nat → VideoCtrl := fun _ => {}
  /-- `rpc` is not null. -/
  rpc : Bool := false
  isTalking : Bool := false
  talkRtmpPushUrl : String := ""
  /-- `msg_cb_thread` is not null; its thread is joinable from then on. -/
  msgCbThread : Bool := false
  token : String := ""
  /-- The value `init_device_list` is the dump of; none while it is empty. -/
  initDeviceList : Option Json := none
  serverIp : String := ""
  serverPort : String := ""
  /-- The requests sent so far. -/
  sent : List Json := []

namespace MainCtrl

def setCtrl (s : MainCtrl) (p : Nat) (v : VideoCtrl) : MainCtrl :=
  { s with ctrls := Function.update s.ctrls p v }

/-! ## The server -/

/-- The common end of `setServerIp` and `setServerPort`. -/
def connect (s : MainCtrl) : MainCtrl :=
  if s.serverIp ≠ "" ∧ s.serverPort ≠ "" then { s with rpc := true } else s

def setServerIp (ip : String) (s : MainCtrl) : MainCtrl := connect { s with serverIp := ip }

def setServerPort (port : String) (s : MainCtrl) : MainCtrl := connect { s with serverPort := port }

def request (method : String) (fields : List (String × String)) : Json :=
  .object (("method", .string method) :: fields.map fun field => (field.1, .string field.2))

/-- `rpc->call`; a call through the null pointer crashes. -/
def call (ctx : Json) (r : Reply) (s : MainCtrl) : Outcome Fault MainCtrl (Json × Bool) :=
  if s.rpc then .ofExcept (IPCClient.call r) { s with sent := s.sent ++ [ctx] } else .crashed

/-! ## Devices and windows -/

/-- The record `addDevice` makes of the server's reply. -/
def deviceInfo (key : String) (ctx : Json) : Except Fault DeviceInfo := do
  let name ← ctx.valueText "name" "未命名设备"
  let rtmpUrl ← ctx.valueText "rtmp_url" ""
  let encryption ← ctx.valueText "encryption" ""
  return ⟨name, key, rtmpUrl, encryption, false, false, false, -1⟩

def addDevice (key : String) (r : Reply) (s : MainCtrl) : Outcome Fault MainCtrl Int :=
  (s.call (request "get_device_info" [("user", s.token), ("key", key)]) r).bind
    fun (ctx, ret) s =>
      if ret = false then .ok (-1) s
      else
        (Outcome.ofExcept (deviceInfo key ctx) s).bind fun info s =>
          .ok s.devices.length { s with devices := s.devices ++ [info] }

def addWindow (videoCtrl : Nat) (s : MainCtrl) : MainCtrl :=
  { s with windows := s.windows ++ [⟨false, -1, videoCtrl⟩] }

/-- The loop of `findWindow` from index `i` on, where `idx` is its result so far. -/
def findWindowFrom : List WindowInfo → Int → Int → Int
  | [], _, idx => idx
  | window :: windows, i, _ =>
    if window.isPlaying then findWindowFrom windows (i + 1) 0 else i

def findWindow (s : MainCtrl) : Int := findWindowFrom s.windows 0 (-1)

def stopVideo (deviceIdx : Int) (s : MainCtrl) : MainCtrl :=
  match lookup s.devices deviceIdx with
  | none => s
  | some device =>
    match lookup s.windows device.windowIdx with
    | none => s
    | some window =>
      { s.setCtrl window.videoCtrl (s.ctrls window.videoCtrl).stop with
        windows := update s.windows device.windowIdx WindowInfo.freed
        devices := update s.devices deviceIdx DeviceInfo.stopped }

/-- The last lines of `playVideo`: the device is shown in the window. -/
def showDevice (deviceIdx windowIdx : Int) (s : MainCtrl) : MainCtrl :=
  { s with
    windows := update s.windows windowIdx fun window => window.showing deviceIdx
    devices := update s.devices deviceIdx fun device => device.shownIn windowIdx }

/-- `playVideo`. `device` is a copy, made before a window is freed. -/
def playVideo (deviceIdx : Int) (s : MainCtrl) : Outcome Fault MainCtrl Int :=
  match lookup s.devices deviceIdx with
  | none => .ok (-1) s
  | some device =>
    if device.isActive = false ∨ device.isPlaying = true then .ok (-1) s
    else if s.findWindow = -1 then .ok (-1) s
    else
      match lookup s.windows s.findWindow with
      | none => .crashed
      | some window =>
        let t := if window.isPlaying then s.stopVideo window.deviceIdx else s
        -- `c_str()`: the player gets the text up to its first NUL
        (((t.ctrls window.videoCtrl).play (cStr device.rtmpUrl) (cStr device.encryption)).mapState
          (t.setCtrl window.videoCtrl)).bind fun ret t =>
            if ret then .ok s.findWindow (t.showDevice deviceIdx s.findWindow) else .ok (-1) t

def playAudio (windowIdx : Int) (s : MainCtrl) : MainCtrl :=
  match lookup s.windows windowIdx with
  | none => s
  | some window =>
    match lookup s.devices window.deviceIdx with
    | none => s
    | some _ =>
      if window.isPlaying then
        { s.setCtrl window.videoCtrl (s.ctrls window.videoCtrl).playAudio with
          devices := update s.devices window.deviceIdx fun device =>
            { device with isPlayingAudio := true } }
      else s

def stopAudio (windowIdx : Int) (s : MainCtrl) : MainCtrl :=
  match lookup s.windows windowIdx with
  | none => s
  | some window =>
    match lookup s.devices window.deviceIdx with
    | none => s
    | some _ =>
      let t := if window.isPlaying then
          s.setCtrl window.videoCtrl (s.ctrls window.videoCtrl).stopAudio
        else s
      { t with devices := update s.devices window.deviceIdx fun device =>
        { device with isPlayingAudio := false } }

/-! ## Talk -/

def talkCtrl (ctrlType key : String) : Json :=
  request "talk_ctrl" [("ctrl_type", ctrlType), ("device_key", key)]

/-- The device shown in a window, behind the range tests of `startTalk` and
`stopTalk`. -/
def talkDevice (windowIdx : Int) (s : MainCtrl) : Option DeviceInfo := do
  let window ← lookup s.windows windowIdx
  lookup s.devices window.deviceIdx

def startTalk (windowIdx : Int) (r : Reply) (s : MainCtrl) : Outcome Fault MainCtrl Bool :=
  if s.isTalking then .ok false s
  else
    match s.talkDevice windowIdx with
    | none => .ok false s
    | some device =>
      (s.call (talkCtrl "start" device.key) r).bind fun (ctx, ret) s =>
        if ret = false then .ok false s
        else
          (Outcome.ofExcept (ctx.valueText "result" "") s).bind fun result s =>
            if result ≠ "success" then
              -- the message of the debug output is read here, whether it is printed or not
              (Outcome.ofExcept (ctx.valueText "err_msg" "") s).bind fun _ s => .ok false s
            else
              (Outcome.ofExcept (ctx.valueText "rtmp_push_url" "") s).bind fun url s =>
                .ok true { s with talkRtmpPushUrl := url, isTalking := true }

def stopTalk (windowIdx : Int) (r : Reply) (s : MainCtrl) : Outcome Fault MainCtrl Unit :=
  if s.isTalking = false then .ok () s
  else
    match s.talkDevice windowIdx with
    | none => .ok () s
    | some device =>
      (s.call (talkCtrl "stop" device.key) r).bind fun _ s => .ok () { s with isTalking := false }

/-! ## Messages -/

/-- The loop of `MessageHandle`: the first device with the key is marked. -/
def markDevice (deviceId : String) (active : Bool) : List DeviceInfo → List DeviceInfo
  | [] => []
  | device :: devices =>
    if device.key = deviceId then { device with isActive := active } :: devices
    else device :: markDevice deviceId active devices

/-- What `MessageHandle` reads: the key and the status of a status message. -/
def readMessage (msg : Option Json) : Except Fault (Option (String × String)) := do
  let js ← IPCClient.parse msg
  let reply ← js.value "reply" .null
  if reply.isNull then return none
  let operation ← reply.valueText "operation" ""
  if operation ≠ "device status change" then return none
  let deviceId ← reply.valueText "device_id" ""
  let deviceStatus ← reply.valueText "device_status" ""
  return some (deviceId, deviceStatus)

def messageHandle (msg : Option Json) (s : MainCtrl) : Outcome Fault MainCtrl Unit :=
  (Outcome.ofExcept (readMessage msg) s).bind fun status s =>
    match status with
    | none => .ok () s
    | some (deviceId, deviceStatus) =>
      if deviceId ≠ "" ∧ deviceStatus ≠ "" then
        .ok () { s with devices := markDevice deviceId (deviceStatus == "active") s.devices }
      else .ok () s

/-! ## Users -/

/-- `ret && reply.value("msg", "failure") == "success"`. -/
def saysSuccess (reply : Json) (ret : Bool) : Except Fault Bool :=
  if ret then do
    let msg ← reply.valueText "msg" "failure"
    return msg == "success"
  else .ok false

def registerUser (username password : String) (r : Reply) (s : MainCtrl) :
    Outcome Fault MainCtrl String :=
  (s.call (request "register" [("username", username), ("password", password)]) r).bind
    fun (reply, ret) s =>
      (Outcome.ofExcept (saysSuccess reply ret) s).bind fun success s =>
        if success then .ok "注册成功" s
        else
          (Outcome.ofExcept (reply.valueText "reason" "注册失败") s).bind fun reason s =>
            .ok (cStr reason) s

/-- `startMessageCallBack`: the assignment of the new thread destroys an old one,
which nobody has joined. -/
def startMessageCallBack (s : MainCtrl) : Outcome Fault MainCtrl Unit :=
  if s.msgCbThread then .crashed else .ok () { s with msgCbThread := true }

def loginUser (username password : String) (r : Reply) (s : MainCtrl) :
    Outcome Fault MainCtrl String :=
  (s.call (request "login" [("username", username), ("password", password)]) r).bind
    fun (reply, ret) s =>
      (Outcome.ofExcept (saysSuccess reply ret) s).bind fun success s =>
        if success = false then .ok "登录失败" s
        else
          (Outcome.ofExcept (reply.valueText "token" "") s).bind fun token s =>
            -- an empty token replaces the old one before it is refused
            if token = "" then .ok "登录失败" { s with token := token }
            else
              (startMessageCallBack { s with token := token }).bind fun _ s =>
                (Outcome.ofExcept (reply.value "device_list" (.array [])) s).bind fun list s =>
                  .ok "登录成功" { s with initDeviceList := some list }

/-! ## Steps -/

inductive Event
  | setServerIp (ip : String)
  | setServerPort (port : String)
  | addDevice (key : String) (r : Reply)
  | addWindow (videoCtrl : Nat)
  | playVideo (deviceIdx : Int)
  | playAudio (windowIdx : Int)
  | stopVideo (deviceIdx : Int)
  | stopAudio (windowIdx : Int)
  | startTalk (windowIdx : Int) (r : Reply)
  | stopTalk (windowIdx : Int) (r : Reply)
  | registerUser (username password : String) (r : Reply)
  | loginUser (username password : String) (r : Reply)
  | message (msg : Option Json)
  | pullThreadEnds (videoCtrl : Nat)

/-- A pull thread ends by itself: `init` failed, or a read did. -/
def pullThreadEnds (p : Nat) (s : MainCtrl) : Option MainCtrl :=
  if (s.ctrls p).capture.pullThread = .running then
    some (s.setCtrl p { s.ctrls p with
      capture := { (s.ctrls p).capture with pullThread := .ended } })
  else none

def step (s : MainCtrl) : Event → Option MainCtrl
  | .setServerIp ip => some (s.setServerIp ip)
  | .setServerPort port => some (s.setServerPort port)
  | .addDevice key r => (s.addDevice key r).after
  | .addWindow videoCtrl => some (s.addWindow videoCtrl)
  | .playVideo deviceIdx => (s.playVideo deviceIdx).after
  | .playAudio windowIdx => some (s.playAudio windowIdx)
  | .stopVideo deviceIdx => some (s.stopVideo deviceIdx)
  | .stopAudio windowIdx => some (s.stopAudio windowIdx)
  | .startTalk windowIdx r => (s.startTalk windowIdx r).after
  | .stopTalk windowIdx r => (s.stopTalk windowIdx r).after
  | .registerUser username password r => (s.registerUser username password r).after
  | .loginUser username password r => (s.loginUser username password r).after
  | .message msg => if s.msgCbThread then (s.messageHandle msg).afterUncaught else none
  | .pullThreadEnds videoCtrl => s.pullThreadEnds videoCtrl

/-! ## Some events of a session -/

/-- The server is configured, and a login succeeds. -/
def loggedIn : List Event :=
  [.setServerIp "127.0.0.1", .setServerPort "8989",
    .loginUser "user" "password" (.body (some (.object [("code", .number 200),
      ("reply", .object [("msg", .string "success"), ("token", .string "t")])])))]

/-- Device 000001 is added, with this stream URL. -/
def deviceAdded (rtmpUrl : String) : Event :=
  .addDevice "000001" (.body (some (.object [("code", .number 200),
    ("reply", .object [("rtmp_url", .string rtmpUrl)])])))

/-- The server says that device 000001 is active. -/
def deviceOnline : Event :=
  .message (some (.object [("reply", .object [("operation", .string "device status change"),
    ("device_id", .string "000001"), ("device_status", .string "active")])]))

/-! ## What the calls leave alone -/

/-- The tables of devices and windows and the window objects are the same. -/
structure SameTables (s t : MainCtrl) : Prop where
  devices : t.devices = s.devices
  windows : t.windows = s.windows
  ctrls : t.ctrls = s.ctrls

theorem SameTables.refl (s : MainCtrl) : SameTables s s := ⟨rfl, rfl, rfl⟩

/-- A request changes nothing but the record of requests. -/
theorem call_bind_leaves {α : Type} {s : MainCtrl} {Q : MainCtrl → Prop} {ctx : Json} {r : Reply}
    {f : Json × Bool → MainCtrl → Outcome Fault MainCtrl α}
    (hraised : ∀ e t, IPCClient.call r = .error e → SameTables s t → Q t)
    (hf : ∀ p t, IPCClient.call r = .ok p → SameTables s t → (f p t).Leaves Q) :
    ((s.call ctx r).bind f).Leaves Q := by
  have hsame : SameTables s { s with sent := s.sent ++ [ctx] } := ⟨rfl, rfl, rfl⟩
  unfold call
  split
  · cases hcall : IPCClient.call r with
    | error e => exact (Outcome.leaves_raised ..).mpr (hraised e _ hcall hsame)
    | ok p => exact hf p _ hcall hsame
  · exact Outcome.leaves_crashed Q

theorem startTalk_sameTables (s : MainCtrl) (windowIdx : Int) (r : Reply) :
    (s.startTalk windowIdx r).Leaves (SameTables s) := by
  unfold startTalk
  split
  · exact (Outcome.leaves_ok ..).mpr (.refl s)
  split
  · exact (Outcome.leaves_ok ..).mpr (.refl s)
  refine call_bind_leaves (fun _ t _ ht => ht) fun ⟨ctx, ret⟩ t _ ht => ?_
  dsimp only
  split
  · exact (Outcome.leaves_ok ..).mpr ht
  refine Outcome.leaves_bind_ofExcept ht fun result _ => ?_
  split
  · exact Outcome.leaves_bind_ofExcept ht fun _ _ => (Outcome.leaves_ok ..).mpr ht
  · exact Outcome.leaves_bind_ofExcept ht fun url _ =>
      (Outcome.leaves_ok ..).mpr ⟨ht.devices, ht.windows, ht.ctrls⟩

theorem stopTalk_sameTables (s : MainCtrl) (windowIdx : Int) (r : Reply) :
    (s.stopTalk windowIdx r).Leaves (SameTables s) := by
  unfold stopTalk
  split
  · exact (Outcome.leaves_ok ..).mpr (.refl s)
  split
  · exact (Outcome.leaves_ok ..).mpr (.refl s)
  · exact call_bind_leaves (fun _ t _ ht => ht) fun _ t _ ht =>
      (Outcome.leaves_ok ..).mpr ⟨ht.devices, ht.windows, ht.ctrls⟩

theorem registerUser_sameTables (s : MainCtrl) (username password : String) (r : Reply) :
    (s.registerUser username password r).Leaves (SameTables s) := by
  refine call_bind_leaves (fun _ t _ ht => ht) fun p t _ ht => ?_
  refine Outcome.leaves_bind_ofExcept ht fun success _ => ?_
  split
  · exact (Outcome.leaves_ok ..).mpr ht
  · exact Outcome.leaves_bind_ofExcept ht fun _ _ => (Outcome.leaves_ok ..).mpr ht

theorem loginUser_sameTables (s : MainCtrl) (username password : String) (r : Reply) :
    (s.loginUser username password r).Leaves (SameTables s) := by
  refine call_bind_leaves (fun _ t _ ht => ht) fun p t _ ht => ?_
  refine Outcome.leaves_bind_ofExcept ht fun success _ => ?_
  split
  · exact (Outcome.leaves_ok ..).mpr ht
  refine Outcome.leaves_bind_ofExcept ht fun token _ => ?_
  have htoken : SameTables s { t with token := token } := ⟨ht.devices, ht.windows, ht.ctrls⟩
  split
  · exact (Outcome.leaves_ok ..).mpr htoken
  unfold startMessageCallBack
  split
  · exact Outcome.leaves_crashed _
  · have hthread : SameTables s { t with token := token, msgCbThread := true } :=
      ⟨ht.devices, ht.windows, ht.ctrls⟩
    exact Outcome.leaves_bind_ofExcept hthread fun list _ =>
      (Outcome.leaves_ok ..).mpr ⟨ht.devices, ht.windows, ht.ctrls⟩

theorem connect_sameTables (s : MainCtrl) : SameTables s s.connect := by
  unfold connect
  split
  · exact ⟨rfl, rfl, rfl⟩
  · exact .refl s

theorem setServerIp_sameTables (s : MainCtrl) (ip : String) : SameTables s (s.setServerIp ip) :=
  have h := connect_sameTables { s with serverIp := ip }
  ⟨h.devices, h.windows, h.ctrls⟩

theorem setServerPort_sameTables (s : MainCtrl) (port : String) :
    SameTables s (s.setServerPort port) :=
  have h := connect_sameTables { s with serverPort := port }
  ⟨h.devices, h.windows, h.ctrls⟩

/-! ## What the other calls do -/

/-- What `addDevice` makes of a reply is an idle device with the key. -/
theorem deviceInfo_cases {key : String} {ctx : Json} {info : DeviceInfo}
    (h : deviceInfo key ctx = .ok info) :
    ∃ name rtmpUrl encryption, info = ⟨name, key, rtmpUrl, encryption, false, false, false, -1⟩ := by
  obtain ⟨name, _, h⟩ := Outcome.except_bind_eq_ok_iff.mp h
  obtain ⟨rtmpUrl, _, h⟩ := Outcome.except_bind_eq_ok_iff.mp h
  obtain ⟨encryption, _, h⟩ := Outcome.except_bind_eq_ok_iff.mp h
  exact ⟨name, rtmpUrl, encryption, (Except.ok.inj h).symm⟩

/-- An object whose fields that `addDevice` reads are texts, or missing. -/
def DescribesDevice (ctx : Json) : Prop :=
  ctx.HasText "name" ∧ ctx.HasText "rtmp_url" ∧ ctx.HasText "encryption"

theorem deviceInfo_isOk_iff (key : String) {ctx : Json} :
    (∃ info, deviceInfo key ctx = .ok info) ↔ DescribesDevice ctx := by
  simp only [deviceInfo, Outcome.except_bind_eq_ok_iff, Json.valueText_eq_ok_iff]
  constructor
  · rintro ⟨_, _, ⟨hname, _⟩, _, ⟨hurl, _⟩, _, ⟨hencryption, _⟩, _⟩
    exact ⟨hname, hurl, hencryption⟩
  · rintro ⟨hname, hurl, hencryption⟩
    exact ⟨_, _, ⟨hname, rfl⟩, _, ⟨hurl, rfl⟩, _, ⟨hencryption, rfl⟩, rfl⟩

/-- The server answers `addDevice` with a device. -/
def AnswersDevice (r : Reply) : Prop := ∃ ctx, r.Answers ctx ∧ DescribesDevice ctx

/-- The state has one device more, which is idle, and the same windows. -/
def Added (key : String) (s t : MainCtrl) : Prop :=
  ∃ name rtmpUrl encryption,
    SameTables { s with devices :=
      s.devices ++ [⟨name, key, rtmpUrl, encryption, false, false, false, -1⟩] } t

/-- `addDevice` adds a device exactly when the server answers with one. -/
theorem addDevice_leaves (s : MainCtrl) (key : String) (r : Reply) :
    (s.addDevice key r).Leaves fun t =>
      (SameTables s t ∧ ¬ AnswersDevice r) ∨ (Added key s t ∧ AnswersDevice r) := by
  have hanswer {ctx : Json} {ret : Bool} (hcall : IPCClient.call r = .ok (ctx, ret)) :
      AnswersDevice r ↔ ret = true ∧ DescribesDevice ctx := by
    constructor
    · rintro ⟨ctx', hanswers, hdescribes⟩
      have hcall' := IPCClient.call_eq_ok_iff.mpr (.inr ⟨hanswers, rfl⟩)
      rw [hcall] at hcall'
      cases hcall'
      exact ⟨rfl, hdescribes⟩
    · rintro ⟨rfl, hdescribes⟩
      rcases IPCClient.call_eq_ok_iff.mp hcall with ⟨_, _, hret⟩ | ⟨hanswers, _⟩
      · cases hret
      · exact ⟨ctx, hanswers, hdescribes⟩
  refine call_bind_leaves (fun e t hcall ht => ?_) fun ⟨ctx, ret⟩ t hcall ht => ?_
  · refine .inl ⟨ht, ?_⟩
    rintro ⟨ctx, hanswers, _⟩
    rw [IPCClient.call_eq_ok_iff.mpr (.inr ⟨hanswers, rfl⟩)] at hcall
    cases hcall
  · rw [hanswer hcall]
    dsimp only
    split
    · next hret => exact (Outcome.leaves_ok ..).mpr (.inl ⟨ht, by simp [hret]⟩)
    next hret =>
    cases hinfo : deviceInfo key ctx with
    | error e =>
      refine (Outcome.leaves_raised ..).mpr (.inl ⟨ht, fun h => ?_⟩)
      obtain ⟨info, hok⟩ := (deviceInfo_isOk_iff key).mpr h.2
      rw [hinfo] at hok
      cases hok
    | ok info =>
      have hdescribes := (deviceInfo_isOk_iff key).mp ⟨info, hinfo⟩
      obtain ⟨name, rtmpUrl, encryption, rfl⟩ := deviceInfo_cases hinfo
      refine (Outcome.leaves_ok ..).mpr (.inr ⟨⟨name, rtmpUrl, encryption, ?_, ht.windows, ht.ctrls⟩,
        by simpa using hret, hdescribes⟩)
      simp only [ht.devices]

/-- A message that does not end the process is read, and what it says is done. -/
theorem messageHandle_cases {s t : MainCtrl} {msg : Option Json}
    (h : (s.messageHandle msg).afterUncaught = some t) :
    (readMessage msg = .ok none ∧ t = s) ∨
    ∃ deviceId deviceStatus, readMessage msg = .ok (some (deviceId, deviceStatus)) ∧
      ((deviceId ≠ "" ∧ deviceStatus ≠ "" ∧
          t = { s with devices := markDevice deviceId (deviceStatus == "active") s.devices }) ∨
        ((deviceId = "" ∨ deviceStatus = "") ∧ t = s)) := by
  unfold messageHandle at h
  cases hread : readMessage msg with
  | error f =>
    rw [hread] at h
    cases h
  | ok status =>
    rw [hread] at h
    cases status with
    | none => exact .inl ⟨rfl, (Option.some.inj h).symm⟩
    | some status =>
      obtain ⟨deviceId, deviceStatus⟩ := status
      refine .inr ⟨deviceId, deviceStatus, rfl, ?_⟩
      simp only [Outcome.ofExcept, Outcome.bind] at h
      split at h
      · next hboth => exact .inl ⟨hboth.1, hboth.2, (Option.some.inj h).symm⟩
      · next hboth => exact .inr ⟨by tauto, (Option.some.inj h).symm⟩

/-- Marking a device changes nothing else of any device. -/
theorem markDevice_map {α : Type} (f : DeviceInfo → α) (k : String) (active : Bool)
    (hf : ∀ device : DeviceInfo, f { device with isActive := active } = f device)
    (devices : List DeviceInfo) : (markDevice k active devices).map f = devices.map f := by
  induction devices with
  | nil => rfl
  | cons device devices ih =>
    unfold markDevice
    split
    · simp [hf]
    · simp [ih]

/-! ## What stays of a device -/

/-- `f` does not look at the fields that say where a device is shown. -/
def LinkFree {α : Type} (f : DeviceInfo → α) : Prop :=
  ∀ (device : DeviceInfo) (playing audio : Bool) (idx : Int), f { device with
    isPlaying := playing
    isPlayingAudio := audio
    windowIdx := idx } = f device

section LinkFree

variable {α : Type} {f : DeviceInfo → α} (hf : LinkFree f)
include hf

theorem stopVideo_map (s : MainCtrl) (d : Int) :
    (s.stopVideo d).devices.map f = s.devices.map f := by
  unfold stopVideo
  split
  · rfl
  split
  · rfl
  · exact map_update _ _ fun device => hf device ..

theorem playVideo_map (s : MainCtrl) (d : Int) :
    (s.playVideo d).Leaves fun t => t.devices.map f = s.devices.map f := by
  unfold playVideo
  split
  · exact (Outcome.leaves_ok ..).mpr rfl
  split
  · exact (Outcome.leaves_ok ..).mpr rfl
  split
  · exact (Outcome.leaves_ok ..).mpr rfl
  split
  · exact Outcome.leaves_crashed _
  next window _ =>
  have hevicted : (if window.isPlaying then s.stopVideo window.deviceIdx else s).devices.map f =
      s.devices.map f := by
    split
    · exact stopVideo_map hf s window.deviceIdx
    · rfl
  generalize (if window.isPlaying then s.stopVideo window.deviceIdx else s) = u at hevicted ⊢
  refine Outcome.leaves_bind_mapState (fun v => hevicted) fun ret v => ?_
  split
  · refine (Outcome.leaves_ok ..).mpr ?_
    exact (map_update _ _ fun device => hf device ..).trans hevicted
  · exact (Outcome.leaves_ok ..).mpr hevicted

theorem playAudio_map (s : MainCtrl) (w : Int) :
    (s.playAudio w).devices.map f = s.devices.map f := by
  unfold playAudio
  split
  · rfl
  split
  · rfl
  split
  · exact map_update _ _ fun device => hf device ..
  · rfl

theorem stopAudio_map (s : MainCtrl) (w : Int) :
    (s.stopAudio w).devices.map f = s.devices.map f := by
  unfold stopAudio
  split
  · rfl
  split
  · rfl
  · dsimp only
    exact map_update _ _ fun device => hf device ..

/-- Besides `addDevice` and the messages, no step changes anything of a device but
where it is shown. -/
theorem step_map {s t : MainCtrl} {e : Event} (h : step s e = some t)
    (hadd : ∀ key r, e ≠ .addDevice key r) (hmessage : ∀ msg, e ≠ .message msg) :
    t.devices.map f = s.devices.map f := by
  have hsame (hst : SameTables s t) : t.devices.map f = s.devices.map f := by rw [hst.devices]
  cases e with
  | setServerIp ip =>
    obtain rfl := Option.some.inj h
    exact hsame (setServerIp_sameTables s ip)
  | setServerPort port =>
    obtain rfl := Option.some.inj h
    exact hsame (setServerPort_sameTables s port)
  | addDevice key r => exact absurd rfl (hadd key r)
  | addWindow p =>
    obtain rfl := Option.some.inj h
    rfl
  | playVideo d => exact playVideo_map hf s d t h
  | playAudio w =>
    obtain rfl := Option.some.inj h
    exact playAudio_map hf s w
  | stopVideo d =>
    obtain rfl := Option.some.inj h
    exact stopVideo_map hf s d
  | stopAudio w =>
    obtain rfl := Option.some.inj h
    exact stopAudio_map hf s w
  | startTalk w r => exact hsame (startTalk_sameTables s w r t h)
  | stopTalk w r => exact hsame (stopTalk_sameTables s w r t h)
  | registerUser username password r =>
    exact hsame (registerUser_sameTables s username password r t h)
  | loginUser username password r => exact hsame (loginUser_sameTables s username password r t h)
  | message msg => exact absurd rfl (hmessage msg)
  | pullThreadEnds p =>
    simp only [step, pullThreadEnds] at h
    split at h
    · obtain rfl := Option.some.inj h
      rfl
    · cases h

end LinkFree

end MainCtrl

end MiniSurveillance
