import MiniSurveillance.MainTalk

/-!
# The calls and the connection

`rpc` and `msg_cb_thread` are set by different calls: the one that completes the
server's address, and the login that is given a token. `step_server` says what each
step does to them; `crashes_iff` says which calls bring the process down for the lack
of the first or the presence of the second.
-/

namespace MiniSurveillance.MainCtrl
open Table Text Runs

/-- The address, the connection and the message thread are the same. -/
structure SameServer (s t : MainCtrl) : Prop where
  serverIp : t.serverIp = s.serverIp
  serverPort : t.serverPort = s.serverPort
  rpc : t.rpc = s.rpc
  msgCbThread : t.msgCbThread = s.msgCbThread

theorem SameServer.refl (s : MainCtrl) : SameServer s s := ⟨rfl, rfl, rfl, rfl⟩

/-- The reply says success and carries a token: `login_user` starts the message thread. -/
def grantsToken (r : Reply) : Bool :=
  match IPCClient.call r with
  | .error _ => false
  | .ok (reply, ret) =>
    match saysSuccess reply ret with
    | .ok true =>
      match reply.valueText "token" "" with
      | .ok token => token ≠ ""
      | .error _ => false
    | _ => false

/-- The calls that go through `rpc` whatever the state. -/
def asksServer : Event → Bool
  | .addDevice _ _ | .registerUser _ _ _ | .loginUser _ _ _ => true
  | _ => false

/-- The call gets to an `rpc->`. -/
def usesRpc (s : MainCtrl) : Event → Bool
  | .startTalk windowIdx _ => !s.isTalking && (s.talkDevice windowIdx).isSome
  | .stopTalk windowIdx _ => s.isTalking && (s.talkDevice windowIdx).isSome
  | e => asksServer e

/-- The call gets to `startMessageCallBack`, if it gets through the request. -/
def startsThread : Event → Bool
  | .loginUser _ _ r => grantsToken r
  | _ => false

/-- The two halves of the address behind a call. -/
def setAddress (address : String × String) : Event → String × String
  | .setServerIp ip => (ip, address.2)
  | .setServerPort port => (address.1, port)
  | _ => address

/-- Both halves of the address are set. -/
def complete (address : String × String) : Bool := address.1 ≠ "" && address.2 ≠ ""

theorem complete_iff {address : String × String} :
    complete address = true ↔ address.1 ≠ "" ∧ address.2 ≠ "" := by simp [complete]

/-- The call makes an `IPCClient`. -/
def makesClient (address : String × String) : Event → Bool
  | .setServerIp ip => complete (setAddress address (.setServerIp ip))
  | .setServerPort port => complete (setAddress address (.setServerPort port))
  | _ => false

/-! ## Requests -/

/-- A request over the connection settles where its continuation does. -/
theorem call_bind_settles {α : Type} {s : MainCtrl} {Q : MainCtrl → Prop} {ctx : Json} {r : Reply}
    {f : Json × Bool → MainCtrl → Outcome Fault MainCtrl α} (hrpc : s.rpc = true)
    (hsent : Q { s with sent := s.sent ++ [ctx] })
    (hf : ∀ p, IPCClient.call r = .ok p →
      (f p { s with sent := s.sent ++ [ctx] }).Settles Q) : ((s.call ctx r).bind f).Settles Q := by
  rw [call, if_pos hrpc]
  exact Outcome.settles_bind_ofExcept hsent hf

theorem call_bind_crashed {α : Type} {s : MainCtrl} {ctx : Json} {r : Reply}
    {f : Json × Bool → MainCtrl → Outcome Fault MainCtrl α} (hrpc : s.rpc = false) :
    (s.call ctx r).bind f = .crashed := by
  rw [call, hrpc]
  rfl

theorem addDevice_settles {s : MainCtrl} (hrpc : s.rpc = true) (key : String) (r : Reply) :
    (s.addDevice key r).Settles (SameServer s) := by
  refine call_bind_settles hrpc ⟨rfl, rfl, rfl, rfl⟩ fun ⟨ctx, ret⟩ _ => ?_
  dsimp only
  split
  · exact (Outcome.settles_ok ..).mpr ⟨rfl, rfl, rfl, rfl⟩
  · exact Outcome.settles_bind_ofExcept ⟨rfl, rfl, rfl, rfl⟩ fun info _ =>
      (Outcome.settles_ok ..).mpr ⟨rfl, rfl, rfl, rfl⟩

theorem registerUser_settles {s : MainCtrl} (hrpc : s.rpc = true) (username password : String)
    (r : Reply) : (s.registerUser username password r).Settles (SameServer s) := by
  refine call_bind_settles hrpc ⟨rfl, rfl, rfl, rfl⟩ fun p _ => ?_
  refine Outcome.settles_bind_ofExcept ⟨rfl, rfl, rfl, rfl⟩ fun success _ => ?_
  split
  · exact (Outcome.settles_ok ..).mpr ⟨rfl, rfl, rfl, rfl⟩
  · exact Outcome.settles_bind_ofExcept ⟨rfl, rfl, rfl, rfl⟩ fun _ _ =>
      (Outcome.settles_ok ..).mpr ⟨rfl, rfl, rfl, rfl⟩

theorem startTalk_settles {s : MainCtrl} {w : Int} {r : Reply}
    (h : s.usesRpc (.startTalk w r) = true → s.rpc = true) :
    (s.startTalk w r).Settles (SameServer s) := by
  cases htalking : s.isTalking with
  | true =>
    rw [startTalk, if_pos htalking]
    exact (Outcome.settles_ok ..).mpr (.refl s)
  | false =>
    cases hdevice : s.talkDevice w with
    | none =>
      simp only [startTalk, htalking, hdevice, Bool.false_eq_true, if_false]
      exact (Outcome.settles_ok ..).mpr (.refl s)
    | some device =>
      have hrpc := h (by simp [usesRpc, htalking, hdevice])
      rcases startTalk_paths r htalking hdevice with
        ⟨hno, _⟩ | ⟨_, hpath | ⟨f, hpath⟩ | ⟨url, hpath⟩⟩
      · rw [hrpc] at hno
        cases hno
      · rw [hpath]
        exact (Outcome.settles_ok ..).mpr ⟨rfl, rfl, rfl, rfl⟩
      · rw [hpath]
        exact (Outcome.settles_raised ..).mpr ⟨rfl, rfl, rfl, rfl⟩
      · rw [hpath]
        exact (Outcome.settles_ok ..).mpr ⟨rfl, rfl, rfl, rfl⟩

theorem stopTalk_settles {s : MainCtrl} {w : Int} {r : Reply}
    (h : s.usesRpc (.stopTalk w r) = true → s.rpc = true) :
    (s.stopTalk w r).Settles (SameServer s) := by
  unfold stopTalk
  split
  · exact (Outcome.settles_ok ..).mpr (.refl s)
  next htalking =>
  split
  · exact (Outcome.settles_ok ..).mpr (.refl s)
  next device hdevice =>
  have hrpc := h (by simp [usesRpc, hdevice, htalking])
  exact call_bind_settles hrpc ⟨rfl, rfl, rfl, rfl⟩ fun _ _ =>
    (Outcome.settles_ok ..).mpr ⟨rfl, rfl, rfl, rfl⟩

/-- What `login_user` does behind its request, by the token it reads. -/
theorem loginUser_paths {s : MainCtrl} (username password : String) {r : Reply}
    (hrpc : s.rpc = true) :
    (grantsToken r = false ∧ (s.loginUser username password r).Settles (SameServer s)) ∨
    grantsToken r = true ∧
      ((s.msgCbThread = true ∧ s.loginUser username password r = .crashed) ∨
        s.msgCbThread = false ∧ (s.loginUser username password r).Settles
          (SameServer { s with msgCbThread := true })) := by
  unfold loginUser grantsToken
  rw [call, if_pos hrpc]
  cases IPCClient.call r with
  | error f => exact .inl ⟨rfl, (Outcome.settles_raised ..).mpr ⟨rfl, rfl, rfl, rfl⟩⟩
  | ok p =>
    obtain ⟨reply, ret⟩ := p
    simp only [Outcome.ofExcept_ok, Outcome.ok_bind]
    cases saysSuccess reply ret with
    | error f => exact .inl ⟨rfl, (Outcome.settles_raised ..).mpr ⟨rfl, rfl, rfl, rfl⟩⟩
    | ok success =>
      cases success with
      | false => exact .inl ⟨rfl, (Outcome.settles_ok ..).mpr ⟨rfl, rfl, rfl, rfl⟩⟩
      | true =>
        simp only [Outcome.ofExcept_ok, Outcome.ok_bind, Bool.true_eq_false, if_false]
        cases reply.valueText "token" "" with
        | error f => exact .inl ⟨rfl, (Outcome.settles_raised ..).mpr ⟨rfl, rfl, rfl, rfl⟩⟩
        | ok token =>
          simp only [Outcome.ofExcept_ok, Outcome.ok_bind, decide_eq_true_eq,
            decide_eq_false_iff_not, not_not]
          by_cases htoken : token = ""
          · rw [if_pos htoken]
            exact .inl ⟨htoken, (Outcome.settles_ok ..).mpr ⟨rfl, rfl, rfl, rfl⟩⟩
          · rw [if_neg htoken, startMessageCallBack]
            refine .inr ⟨htoken, ?_⟩
            cases hthread : s.msgCbThread with
            | true => exact .inl ⟨rfl, rfl⟩
            | false =>
              refine .inr ⟨rfl, ?_⟩
              exact Outcome.settles_bind_ofExcept ⟨rfl, rfl, rfl, rfl⟩ fun list _ =>
                (Outcome.settles_ok ..).mpr ⟨rfl, rfl, rfl, rfl⟩

/-! ## One step -/

def address (s : MainCtrl) : String × String := (s.serverIp, s.serverPort)

/-- What a call leaves of the connection and the message thread. -/
def serverAfter (s : MainCtrl) (e : Event) : MainCtrl :=
  { s with
    serverIp := (setAddress s.address e).1
    serverPort := (setAddress s.address e).2
    rpc := s.rpc || makesClient s.address e
    msgCbThread := s.msgCbThread || startsThread e }

theorem SameServer.trans {s t u : MainCtrl} (h : SameServer s t) (h' : SameServer t u) :
    SameServer s u :=
  ⟨h'.serverIp.trans h.serverIp, h'.serverPort.trans h.serverPort, h'.rpc.trans h.rpc,
    h'.msgCbThread.trans h.msgCbThread⟩

/-- A call that sets nothing of the server keeps it. -/
theorem sameServer_serverAfter {s : MainCtrl} {e : Event}
    (haddress : setAddress s.address e = s.address) (hclient : makesClient s.address e = false)
    (hthread : startsThread e = false) : SameServer (s.serverAfter e) s := by
  constructor
  · rw [serverAfter, haddress, address]
  · rw [serverAfter, haddress, address]
  · rw [serverAfter, hclient, Bool.or_false]
  · rw [serverAfter, hthread, Bool.or_false]

theorem connect_server (s : MainCtrl) :
    SameServer { s with rpc := s.rpc || complete s.address } s.connect := by
  unfold connect
  split
  · next h => exact ⟨rfl, rfl, by rw [complete_iff.mpr h, Bool.or_true], rfl⟩
  · next h =>
    have hincomplete : complete s.address = false :=
      Bool.eq_false_iff.mpr (mt complete_iff.mp h)
    exact ⟨rfl, rfl, by rw [hincomplete, Bool.or_false], rfl⟩

theorem TablesOnly.sameServer {s t : MainCtrl} (h : TablesOnly s t) : SameServer s t := by
  obtain ⟨_, _, _, rfl⟩ := h
  exact ⟨rfl, rfl, rfl, rfl⟩

/-- A call for the server goes through when it finds `rpc` set, and starts no second
message thread. -/
theorem step_settles {s : MainCtrl} {e : Event} (hserver : staysHere e = false)
    (hrpc : s.usesRpc e = true → s.rpc = true)
    (hthread : startsThread e = true → s.msgCbThread = false) :
    ∃ t, step s e = some t ∧ SameServer (s.serverAfter e) t := by
  have hkeeps {o : Option MainCtrl} (hafter : SameServer (s.serverAfter e) s)
      (h : ∃ t, o = some t ∧ SameServer s t) :
      ∃ t, o = some t ∧ SameServer (s.serverAfter e) t := by
    obtain ⟨t, ht, hsame⟩ := h
    exact ⟨t, ht, hafter.trans hsame⟩
  cases e with
  | setServerIp ip =>
    refine ⟨_, rfl, SameServer.trans ?_ (connect_server { s with serverIp := ip })⟩
    exact ⟨rfl, rfl, rfl, (Bool.or_false _).symm⟩
  | setServerPort port =>
    refine ⟨_, rfl, SameServer.trans ?_ (connect_server { s with serverPort := port })⟩
    exact ⟨rfl, rfl, rfl, (Bool.or_false _).symm⟩
  | addDevice key r =>
    exact hkeeps (sameServer_serverAfter rfl rfl rfl) (addDevice_settles (hrpc rfl) key r)
  | startTalk w r =>
    exact hkeeps (sameServer_serverAfter rfl rfl rfl) (startTalk_settles hrpc)
  | stopTalk w r =>
    exact hkeeps (sameServer_serverAfter rfl rfl rfl) (stopTalk_settles hrpc)
  | registerUser username password r =>
    exact hkeeps (sameServer_serverAfter rfl rfl rfl)
      (registerUser_settles (hrpc rfl) username password r)
  | loginUser username password r =>
    rcases loginUser_paths username password (r := r) (hrpc rfl) with
      ⟨hno, hsettles⟩ | ⟨hgrants, ⟨hjoinable, _⟩ | ⟨_, t, ht, hsame⟩⟩
    · exact hkeeps (sameServer_serverAfter rfl rfl hno) hsettles
    · rw [hthread hgrants] at hjoinable
      cases hjoinable
    · refine ⟨t, ht, SameServer.trans ?_ hsame⟩
      exact ⟨rfl, rfl, (Bool.or_false _).symm, by simp [serverAfter, startsThread, hgrants]⟩
  | _ => cases hserver

/-! ## Crashes -/

/-- A call that gets to a null `rpc` crashes. -/
theorem step_of_null {s : MainCtrl} {e : Event} (hrpc : s.rpc = false)
    (huses : s.usesRpc e = true) : step s e = none := by
  cases e with
  | addDevice key r => exact congrArg Outcome.after (call_bind_crashed hrpc)
  | registerUser username password r => exact congrArg Outcome.after (call_bind_crashed hrpc)
  | loginUser username password r => exact congrArg Outcome.after (call_bind_crashed hrpc)
  | startTalk w r =>
    simp only [usesRpc, Bool.and_eq_true, Bool.not_eq_true', Option.isSome_iff_exists] at huses
    obtain ⟨htalking, device, hdevice⟩ := huses
    simp only [step, startTalk, htalking, hdevice, Bool.false_eq_true, if_false]
    exact congrArg Outcome.after (call_bind_crashed hrpc)
  | stopTalk w r =>
    simp only [usesRpc, Bool.and_eq_true, Option.isSome_iff_exists] at huses
    obtain ⟨htalking, device, hdevice⟩ := huses
    simp only [step, stopTalk, htalking, hdevice, Bool.true_eq_false, if_false]
    exact congrArg Outcome.after (call_bind_crashed hrpc)
  | _ => cases huses

/-- A login that is given a token crashes over a message thread that is still to be
joined. -/
theorem step_of_joinable {s : MainCtrl} {e : Event} (hthread : s.msgCbThread = true)
    (hstarts : startsThread e = true) : step s e = none := by
  cases e with
  | loginUser username password r =>
    cases hrpc : s.rpc with
    | false => exact step_of_null hrpc rfl
    | true =>
      rcases loginUser_paths username password (r := r) hrpc with
        ⟨hno, _⟩ | ⟨_, ⟨_, hcrashed⟩ | ⟨hnone, _⟩⟩
      · rw [startsThread, hno] at hstarts
        cases hstarts
      · exact congrArg Outcome.after hcrashed
      · rw [hthread] at hnone
        cases hnone
  | _ => cases hstarts

/-- The calls for the server crash through a null `rpc` or over a message thread that is
still to be joined, and for no other reason. -/
theorem crashes_iff {s : MainCtrl} {e : Event} (hserver : staysHere e = false) :
    step s e = none ↔ (s.usesRpc e = true ∧ s.rpc = false) ∨
      (startsThread e = true ∧ s.msgCbThread = true) := by
  constructor
  · intro hnone
    by_contra hneither
    rw [not_or, not_and, not_and] at hneither
    obtain ⟨t, ht, _⟩ := step_settles hserver
      (fun huses => by simpa using hneither.1 huses)
      (fun hstarts => by simpa using hneither.2 hstarts)
    rw [hnone] at ht
    cases ht
  · rintro (⟨huses, hrpc⟩ | ⟨hstarts, hthread⟩)
    · exact step_of_null hrpc huses
    · exact step_of_joinable hthread hstarts

/-- A call that goes through had the connection it uses, and no message thread where it
starts one. -/
theorem goesThrough {s t : MainCtrl} {e : Event} (h : step s e = some t) :
    (s.usesRpc e = true → s.rpc = true) ∧ (startsThread e = true → s.msgCbThread = false) := by
  constructor
  · intro huses
    by_contra hrpc
    rw [step_of_null (by simpa using hrpc) huses] at h
    cases h
  · intro hstarts
    by_contra hthread
    rw [step_of_joinable (by simpa using hthread) hstarts] at h
    cases h

/-- What every step does to the connection and the message thread. -/
theorem step_server {s t : MainCtrl} {e : Event} (h : step s e = some t) :
    SameServer (s.serverAfter e) t := by
  cases hserver : staysHere e with
  | false =>
    obtain ⟨hrpc, hthread⟩ := goesThrough h
    obtain ⟨u, hu, hsame⟩ := step_settles hserver hrpc hthread
    obtain rfl := Option.some.inj (h.symm.trans hu)
    exact hsame
  | true =>
    refine SameServer.trans ?_ (step_tablesOnly h hserver).sameServer
    cases e with
    | setServerIp ip => cases hserver
    | setServerPort port => cases hserver
    | loginUser username password r => cases hserver
    | _ => exact sameServer_serverAfter rfl rfl rfl

/-- Devices come over the connection only. -/
theorem devices_of_step {s t : MainCtrl} {e : Event} (h : step s e = some t)
    (hdevices : t.devices ≠ []) : s.devices ≠ [] ∨ s.rpc = true := by
  have hmap (hsame : t.devices.map (fun _ => ()) = s.devices.map fun _ => ()) :
      s.devices ≠ [] := by
    intro hnil
    rw [hnil, List.map_nil, List.map_eq_nil_iff] at hsame
    exact hdevices hsame
  by_cases hadd : ∃ key r, e = .addDevice key r
  · obtain ⟨key, r, rfl⟩ := hadd
    exact .inr ((goesThrough h).1 rfl)
  by_cases hmessage : ∃ msg, e = .message msg
  · obtain ⟨msg, rfl⟩ := hmessage
    simp only [step] at h
    split at h
    · rcases messageHandle_cases h with ⟨_, rfl⟩ | ⟨k, status, _, ⟨_, _, rfl⟩ | ⟨_, rfl⟩⟩
      · exact .inl hdevices
      · exact .inl (hmap (markDevice_map _ _ _ (fun _ => rfl) _))
      · exact .inl hdevices
    · cases h
  · refine .inl (hmap (step_map (f := fun _ => ()) (fun _ _ _ _ => rfl) h ?_ ?_))
    · exact fun key r heq => hadd ⟨key, r, heq⟩
    · exact fun msg heq => hmessage ⟨msg, heq⟩

end MiniSurveillance.MainCtrl
