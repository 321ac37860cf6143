import MiniSurveillance.MainCtrl

/-!
# Which server replies the calls survive

`addDevice`, `startTalk`, `register_user` and `login_user` send a request through
`IPCClient::call` and read fields of the reply. `handles_iff` says for which replies
each of them either succeeds or reports its failure and leaves the controller as it
was; on every other reply it raises, changes the token, or brings the process down.
-/

namespace MiniSurveillance.MainCtrl
open Table Text

/-- The invokable calls that report what the server answered. -/
inductive Call
  | addDevice (key : String)
  | startTalk (windowIdx : Int)
  | registerUser (username password : String)
  | loginUser (username password : String)
deriving DecidableEq, Repr

inductive Result
  | index (i : Int)
  | flag (b : Bool)
  | text (t : String)
deriving DecidableEq, Repr

def Call.run (c : Call) (r : Reply) (s : MainCtrl) : Outcome Fault MainCtrl Result :=
  match c with
  | .addDevice key => (s.addDevice key r).bind fun i t => .ok (.index i) t
  | .startTalk windowIdx => (s.startTalk windowIdx r).bind fun b t => .ok (.flag b) t
  | .registerUser username password =>
    (s.registerUser username password r).bind fun text t => .ok (.text text) t
  | .loginUser username password =>
    (s.loginUser username password r).bind fun text t => .ok (.text text) t

/-- `startTalk` returns before it sends its request. -/
def Call.ReturnsEarly (s : MainCtrl) : Call → Prop
  | .startTalk windowIdx => s.isTalking = true ∨ s.talkDevice windowIdx = none
  | _ => False

/-- The server is asked, and grants what it is asked for. -/
def Call.Granted (s : MainCtrl) (r : Reply) (c : Call) : Prop :=
  ¬ c.ReturnsEarly s ∧
    match c with
    | .addDevice _ => ¬ r.Refused
    | .startTalk _ => r.given.text "result" "" = "success"
    | .registerUser _ _ => r.given.text "msg" "failure" = "success"
    | .loginUser _ _ =>
      r.given.text "msg" "failure" = "success" ∧ r.given.text "token" "" ≠ ""

/-- The device that a reply describes. -/
def describedDevice (key : String) (j : Json) : DeviceInfo :=
  ⟨j.text "name" "未命名设备", key, j.text "rtmp_url" "", j.text "encryption" "", false, false,
    false, -1⟩

/-- The call did what it is for: `s` is the state before it, `t` the one after. -/
def Call.Succeeds (r : Reply) (s t : MainCtrl) : Call → Result → Prop
  | .addDevice key, .index i =>
    i = s.devices.length ∧ t.devices = s.devices ++ [describedDevice key r.given]
  | .startTalk _, .flag b =>
    b = true ∧ t.isTalking = true ∧ t.talkRtmpPushUrl = r.given.text "rtmp_push_url" ""
  | .registerUser _ _, .text text => text = "注册成功"
  | .loginUser _ _, .text text =>
    text = "登录成功" ∧ t.token = r.given.text "token" "" ∧ t.msgCbThread = true
  | _, _ => False

/-- The failure result of a call. The failure text of `register_user` is the reason
the server gives, up to its first NUL. -/
def Call.Fails (r : Reply) : Call → Result → Prop
  | .addDevice _, .index i => i = -1
  | .startTalk _, .flag b => b = false
  | .registerUser _ _, .text text => text = cStr (r.given.text "reason" "注册失败")
  | .loginUser _ _, .text text => text = "登录失败"
  | _, _ => False

/-- Devices, windows, token, talk state and message thread are as they were. -/
structure Kept (s t : MainCtrl) : Prop where
  devices : t.devices = s.devices
  windows : t.windows = s.windows
  token : t.token = s.token
  isTalking : t.isTalking = s.isTalking
  talkRtmpPushUrl : t.talkRtmpPushUrl = s.talkRtmpPushUrl
  msgCbThread : t.msgCbThread = s.msgCbThread

/-- What is asked of a call that returns `a`: it has succeeded where the server grants it;
elsewhere it reports its failure and has kept the controller as it was. -/
def Call.Accounts (c : Call) (r : Reply) (s : MainCtrl) (a : Result) (t : MainCtrl) : Prop :=
  (c.Granted s r ∧ c.Succeeds r s t a) ∨ (¬ c.Granted s r ∧ c.Fails r a ∧ Kept s t)

/-- The call returns, and accounts for what the server has answered. -/
def Call.Handles (c : Call) (r : Reply) (s : MainCtrl) : Prop :=
  (c.run r s).Returns (c.Accounts r s)

/-- The fields of the `reply` of a 200 body that the call reads are texts, or
missing. A successful login also needs that no message thread is there already, or,
when it comes without a token, that there was none before. -/
def Call.Fits (s : MainCtrl) (reply : Json) : Call → Prop
  | .addDevice _ => DescribesDevice reply
  | .startTalk _ => reply.HasText "result" ∧
      if reply.text "result" "" = "success" then reply.HasText "rtmp_push_url"
      else reply.HasText "err_msg"
  | .registerUser _ _ => reply.HasText "msg" ∧
      (reply.text "msg" "failure" ≠ "success" → reply.HasText "reason")
  | .loginUser _ _ => reply.HasText "msg" ∧
      (reply.text "msg" "failure" = "success" → reply.HasText "token" ∧
        if reply.text "token" "" = "" then s.token = "" else s.msgCbThread = false)

/-- `register_user` reads the null value of a refused reply. -/
def Call.CopesWithRefusal : Call → Prop
  | .registerUser _ _ => False
  | _ => True

/-- The condition under which a call copes with a reply. -/
def Call.Meets (c : Call) (r : Reply) (s : MainCtrl) : Prop :=
  c.ReturnsEarly s ∨
    (s.rpc = true ∧ ((r.Refused ∧ c.CopesWithRefusal) ∨ ∃ j, r.Answers j ∧ c.Fits s j))

/-! ## A request -/

theorem returns_call {ctx : Json} {r : Reply} {s : MainCtrl} {Q : Json × Bool → MainCtrl → Prop} :
    (s.call ctx r).Returns Q ↔
      s.rpc = true ∧ ((r.Refused ∧ Q (.null, false) { s with sent := s.sent ++ [ctx] }) ∨
        ∃ j, r.Answers j ∧ Q (j, true) { s with sent := s.sent ++ [ctx] }) := by
  unfold call
  cases hrpc : s.rpc with
  | false => simp
  | true =>
    rw [if_pos rfl, Outcome.returns_ofExcept]
    constructor
    · rintro ⟨⟨j, ret⟩, hcall, hq⟩
      rcases IPCClient.call_eq_ok_iff.mp hcall with ⟨hrefused, rfl, rfl⟩ | ⟨hanswers, rfl⟩
      · exact ⟨rfl, .inl ⟨hrefused, hrpc ▸ hq⟩⟩
      · exact ⟨rfl, .inr ⟨j, hanswers, hrpc ▸ hq⟩⟩
    · rintro ⟨_, ⟨hrefused, hq⟩ | ⟨j, hanswers, hq⟩⟩
      · exact ⟨_, IPCClient.call_eq_ok_iff.mpr (.inl ⟨hrefused, rfl, rfl⟩), hrpc ▸ hq⟩
      · exact ⟨_, IPCClient.call_eq_ok_iff.mpr (.inr ⟨hanswers, rfl⟩), hrpc ▸ hq⟩

theorem kept_sent (s : MainCtrl) (sent : List Json) : Kept s { s with sent := sent } :=
  ⟨rfl, rfl, rfl, rfl, rfl, rfl⟩

/-- A call that begins with a request meets the condition when it copes with a
refusal and with the replies that fit. -/
theorem meets_iff_of_request {α : Type} {c : Call} {r : Reply} {s : MainCtrl} {ctx : Json}
    {f : Json × Bool → MainCtrl → Outcome Fault MainCtrl α} {Q : α → MainCtrl → Prop}
    (hearly : ¬ c.ReturnsEarly s)
    (hrefused : r.Refused →
      ((f (.null, false) { s with sent := s.sent ++ [ctx] }).Returns Q ↔ c.CopesWithRefusal))
    (hanswers : ∀ j, r.Answers j →
      ((f (j, true) { s with sent := s.sent ++ [ctx] }).Returns Q ↔ c.Fits s j)) :
    ((s.call ctx r).bind f).Returns Q ↔ c.Meets r s := by
  rw [Outcome.returns_bind, returns_call, Call.Meets, or_iff_right hearly]
  exact and_congr_right fun _ => or_congr (and_congr_right hrefused)
    (exists_congr fun j => and_congr_right (hanswers j))

/-- A refusal grants nothing. -/
theorem not_granted_of_refused {c : Call} {r : Reply} (h : r.Refused) (s : MainCtrl) :
    ¬ c.Granted s r := by
  have hdefault (key default : String) : r.given.text key default = default := by
    rw [h.given]
    rfl
  rintro ⟨-, hgranted⟩
  cases c with
  | addDevice key => exact hgranted h
  | startTalk windowIdx => exact absurd ((hdefault _ _).symm.trans hgranted) (by decide)
  | registerUser username password =>
    exact absurd ((hdefault _ _).symm.trans hgranted) (by decide)
  | loginUser username password =>
    exact absurd ((hdefault _ _).symm.trans hgranted.1) (by decide)

/-- A call that returns its failure result as soon as the request is refused. -/
theorem accounts_refused {c : Call} {r : Reply} (h : r.Refused) {s : MainCtrl} {a : Result}
    (hfails : c.Fails r a) (sent : List Json) :
    c.Accounts r s a { s with sent := sent } :=
  .inr ⟨not_granted_of_refused h s, hfails, kept_sent s sent⟩

/-- Reading a text goes on with it when the field is a text or missing. -/
theorem returns_readText {α : Type} {j : Json} {key default : String} {s : MainCtrl}
    {f : String → MainCtrl → Outcome Fault MainCtrl α} {Q : α → MainCtrl → Prop} :
    ((Outcome.ofExcept (j.valueText key default) s).bind f).Returns Q ↔
      j.HasText key ∧ (f (j.text key default) s).Returns Q := by
  rw [Outcome.returns_bind, Outcome.returns_ofExcept]
  constructor
  · rintro ⟨t, ht, hq⟩
    obtain ⟨htext, rfl⟩ := Json.valueText_eq_ok_iff.mp ht
    exact ⟨htext, hq⟩
  · rintro ⟨htext, hq⟩
    exact ⟨_, Json.valueText_eq_ok_iff.mpr ⟨htext, rfl⟩, hq⟩

theorem returns_saysSuccess {α : Type} {j : Json} {s : MainCtrl}
    {f : Bool → MainCtrl → Outcome Fault MainCtrl α} {Q : α → MainCtrl → Prop} :
    ((Outcome.ofExcept (saysSuccess j true) s).bind f).Returns Q ↔
      j.HasText "msg" ∧ (f (j.text "msg" "failure" == "success") s).Returns Q := by
  rw [Outcome.returns_bind, Outcome.returns_ofExcept, saysSuccess, if_pos rfl]
  constructor
  · rintro ⟨b, hb, hq⟩
    obtain ⟨msg, hmsg, hsame⟩ := Outcome.except_bind_eq_ok_iff.mp hb
    obtain ⟨htext, rfl⟩ := Json.valueText_eq_ok_iff.mp hmsg
    cases hsame
    exact ⟨htext, hq⟩
  · rintro ⟨htext, hq⟩
    exact ⟨_, Outcome.except_bind_eq_ok_iff.mpr
      ⟨_, Json.valueText_eq_ok_iff.mpr ⟨htext, rfl⟩, rfl⟩, hq⟩

/-- A null reply has no text to read. -/
theorem not_hasText_null (key : String) : ¬ Json.null.HasText key := by
  simp [Json.HasText, Json.Has, Json.isObject]

/-! ## The calls -/

theorem deviceInfo_eq_ok_iff {key : String} {j : Json} {info : DeviceInfo} :
    deviceInfo key j = .ok info ↔ DescribesDevice j ∧ describedDevice key j = info := by
  simp only [deviceInfo, Outcome.except_bind_eq_ok_iff, Json.valueText_eq_ok_iff]
  constructor
  · rintro ⟨_, ⟨hname, rfl⟩, _, ⟨hurl, rfl⟩, _, ⟨hencryption, rfl⟩, hinfo⟩
    exact ⟨⟨hname, hurl, hencryption⟩, Except.ok.inj hinfo⟩
  · rintro ⟨⟨hname, hurl, hencryption⟩, rfl⟩
    exact ⟨_, ⟨hname, rfl⟩, _, ⟨hurl, rfl⟩, _, ⟨hencryption, rfl⟩, rfl⟩

theorem addDevice_handles_iff (key : String) (r : Reply) (s : MainCtrl) :
    (Call.addDevice key).Handles r s ↔ (Call.addDevice key).Meets r s := by
  unfold Call.Handles Call.run
  rw [Outcome.returns_bind]
  have hfails : (Call.addDevice key).Fails r (.index (-1)) := rfl
  refine meets_iff_of_request (fun h => h) (fun hrefused => ?_) fun j hanswers => ?_
  · exact iff_of_true (accounts_refused hrefused hfails _) trivial
  · simp only [Bool.true_eq_false, if_false, Outcome.returns_bind, Outcome.returns_ofExcept,
      Outcome.returns_ok, deviceInfo_eq_ok_iff]
    constructor
    · rintro ⟨info, ⟨hdescribes, -⟩, -⟩
      exact hdescribes
    · intro hdescribes
      refine ⟨_, ⟨hdescribes, rfl⟩, .inl ⟨⟨fun h => h, hanswers.not_refused⟩, rfl, ?_⟩⟩
      rw [hanswers.given]

theorem startTalk_handles_iff (windowIdx : Int) (r : Reply) (s : MainCtrl) :
    (Call.startTalk windowIdx).Handles r s ↔ (Call.startTalk windowIdx).Meets r s := by
  unfold Call.Handles Call.run startTalk
  rw [Outcome.returns_bind]
  -- the returns in front of the request
  have hreturns (hearly : (Call.startTalk windowIdx).ReturnsEarly s) :
      (Call.startTalk windowIdx).Accounts r s (.flag false) s :=
    .inr ⟨fun h => h.1 hearly, rfl, kept_sent s s.sent⟩
  cases htalking : s.isTalking with
  | true => exact iff_of_true (hreturns (.inl htalking)) (.inl (.inl htalking))
  | false =>
    cases hdevice : s.talkDevice windowIdx with
    | none => exact iff_of_true (hreturns (.inr hdevice)) (.inl (.inr hdevice))
    | some device =>
      have hearly : ¬ (Call.startTalk windowIdx).ReturnsEarly s := by
        simp [Call.ReturnsEarly, htalking, hdevice]
      have hfails : (Call.startTalk windowIdx).Fails r (.flag false) := rfl
      rw [if_neg Bool.false_ne_true]
      refine meets_iff_of_request hearly (fun hrefused => ?_) fun j hanswers => ?_
      · exact iff_of_true (accounts_refused hrefused hfails _) trivial
      · obtain rfl := hanswers.given
        simp only [Bool.true_eq_false, if_false, returns_readText, Call.Fits]
        refine and_congr_right fun _ => ?_
        by_cases hresult : r.given.text "result" "" = "success"
        · rw [if_neg (not_not_intro hresult), if_pos hresult, returns_readText]
          exact and_iff_left (.inl ⟨⟨hearly, hresult⟩, rfl, rfl, rfl⟩)
        · rw [if_pos hresult, if_neg hresult, returns_readText]
          exact and_iff_left (.inr ⟨fun h => hresult h.2, rfl, kept_sent s _⟩)

theorem registerUser_handles_iff (username password : String) (r : Reply) (s : MainCtrl) :
    (Call.registerUser username password).Handles r s ↔
      (Call.registerUser username password).Meets r s := by
  unfold Call.Handles Call.run
  rw [Outcome.returns_bind]
  refine meets_iff_of_request (fun h => h) (fun hrefused => ?_) fun j hanswers => ?_
  · -- the reason is read from the null value
    simp only [saysSuccess, Bool.false_eq_true, if_false, Outcome.ofExcept_ok, Outcome.ok_bind,
      returns_readText]
    exact iff_of_false (fun h => not_hasText_null _ h.1) fun h => h
  · obtain rfl := hanswers.given
    rw [returns_saysSuccess]
    refine and_congr_right fun _ => ?_
    by_cases hmsg : r.given.text "msg" "failure" = "success"
    · rw [if_pos (beq_iff_eq.mpr hmsg)]
      exact iff_of_true (.inl ⟨⟨fun h => h, hmsg⟩, rfl⟩) (absurd hmsg)
    · rw [if_neg (mt beq_iff_eq.mp hmsg), returns_readText]
      exact (and_iff_left (.inr ⟨fun h => hmsg h.2, rfl, kept_sent s _⟩)).trans
        (imp_iff_right hmsg).symm

theorem loginUser_handles_iff (username password : String) (r : Reply) (s : MainCtrl) :
    (Call.loginUser username password).Handles r s ↔
      (Call.loginUser username password).Meets r s := by
  unfold Call.Handles Call.run
  rw [Outcome.returns_bind]
  have hfails : (Call.loginUser username password).Fails r (.text "登录失败") := rfl
  refine meets_iff_of_request (fun h => h) (fun hrefused => ?_) fun j hanswers => ?_
  · exact iff_of_true (accounts_refused hrefused hfails _) trivial
  · obtain rfl := hanswers.given
    rw [returns_saysSuccess]
    refine and_congr_right fun hobject => ?_
    by_cases hmsg : r.given.text "msg" "failure" = "success"
    · simp only [hmsg, beq_self_eq_true, Bool.true_eq_false, if_false, returns_readText,
        forall_const]
      refine and_congr_right fun _ => ?_
      by_cases htoken : r.given.text "token" "" = ""
      · -- a failure that has stored the empty token
        simp only [htoken, if_true, Outcome.returns_ok]
        constructor
        · rintro (⟨hgranted, -⟩ | ⟨-, -, hkept⟩)
          · exact absurd htoken hgranted.2.2
          · exact hkept.token.symm
        · intro hsame
          exact .inr ⟨fun h => h.2.2 htoken, rfl, rfl, rfl, hsame.symm, rfl, rfl, rfl⟩
      · have hlist : r.given.value "device_list" (.array []) =
            .ok ((r.given.field "device_list").getD (.array [])) :=
          Json.value_eq_ok_iff.mpr ⟨hobject.1, rfl⟩
        simp only [htoken, if_false, startMessageCallBack, hlist]
        cases hthread : s.msgCbThread with
        | true => exact iff_of_false (fun h => h) (Ne.symm Bool.false_ne_true)
        | false =>
          exact iff_of_true (.inl ⟨⟨fun h => h, hmsg, htoken⟩, rfl, rfl, rfl⟩) rfl
    · rw [if_pos (beq_eq_false_iff_ne.mpr hmsg)]
      exact iff_of_true (.inr ⟨fun h => hmsg h.2.1, rfl, kept_sent s _⟩) fun h => absurd h hmsg

/-- A call copes with a reply exactly under its condition. -/
theorem handles_iff (c : Call) (r : Reply) (s : MainCtrl) : c.Handles r s ↔ c.Meets r s := by
  cases c with
  | addDevice key => exact addDevice_handles_iff key r s
  | startTalk windowIdx => exact startTalk_handles_iff windowIdx r s
  | registerUser username password => exact registerUser_handles_iff username password r s
  | loginUser username password => exact loginUser_handles_iff username password r s

/-- With a server configured and a status that is not ok, `register_user` raises. -/
theorem refusal_raises :
    ∃ s, Runs.exec step {} [.setServerIp "127.0.0.1", .setServerPort "8989"] = some s ∧
      ¬ (Call.registerUser "user" "password").Handles .notOk s :=
  ⟨_, rfl, fun h => h⟩

end MiniSurveillance.MainCtrl
