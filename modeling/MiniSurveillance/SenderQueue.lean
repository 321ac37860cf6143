import MiniSurveillance.Base.Threads
import MiniSurveillance.SafeQueue

/-!
# The packets of the push thread

The push thread of `VideoSender` waits in `packets.pop` for as long as it takes, and
`stop` waits in a join for the push thread. What wakes the thread up is the
`setWork(0)` of `stop`, between its `is_pushing = false` and its join; the thread may
set `work_flag` back to 1 behind it. Camera and audio push packets from threads of
their own, at any time.

Here each critical section of the queue is a step of its own, and a thread that waits
goes on when it was notified or woken for no reason.

* `stop_never_deadlocks`: `stop` never joins a push thread that waits unnotified.
* `packets_of_sessions`: no packet is lost or doubled, the queue is empty whenever a
  push thread starts it, and no session sends a packet of another.
-/

namespace MiniSurveillance.SenderQueue
open Threads SafeQueue

/-- A packet, with the session it was pushed in: the number of push threads started
so far. -/
structure Queued where
  session : Nat
  packet : Nat
deriving DecidableEq

/-- Where a push thread is in the lambda of `push`. -/
inductive Pc
  /-- Allocating, setting up, connecting, and setting `push_start_time`. -/
  | connect
  /-- Before `packets.setWork(1)`. -/
  | setWork
  /-- At the test of the loop. -/
  | test
  /-- Before `packets.pop`. -/
  | pop
  /-- In the condition wait of `pop`, notified or not. -/
  | waiting (notified : Bool)
  /-- Before `RTMP_SendPacket`. -/
  | send (packet : Queued)
  /-- Behind the loop: closing the connection. -/
  | close
  /-- Before `packets.setWork(0)`. -/
  | setWorkOff
  /-- Before `packets.clear()`. -/
  | clear
  /-- Before `is_pushing = false`. -/
  | clearPushing
  | done
deriving DecidableEq

/-- Where the GUI thread is. What it does between its calls of `push` and `stop` is
`idle`: producing packets is an event of its own. -/
inductive GuiPc
  | idle
  /-- `push`: before `is_pushing = true`. -/
  | pushSet
  /-- `push`: before the new thread. -/
  | pushSpawn
  /-- `push`: before the assignment of its handle. -/
  | pushAssign
  /-- `stop`: stopping audio. -/
  | stopAudio
  /-- `stop`: before `is_pushing = false`. -/
  | stopClear
  /-- `stop`: before `packets.setWork(0)`. -/
  | stopWork
  /-- `stop`: before `packets.clear()`. -/
  | stopQueue
  /-- `stop`: in the join. -/
  | stopJoin
deriving DecidableEq

structure State where
  packets : History Queued := {}
  isPushing : Bool := false
  /-- The push threads, in the order of their sessions. -/
  threads : List Pc := []
  /-- `rtmp_push_thread`, when it joins a thread. -/
  handle : Option Nat := none
  gui : GuiPc := .idle
  /-- Each packet sent, with the session that sent it. -/
  sent : List (Nat × Queued) := []
  /-- `std::terminate` was called, or a null handle was joined. -/
  terminated : Bool := false
deriving DecidableEq

/-- A call of the GUI, up to its first test, a step of the GUI thread inside a call, a
step of a push thread, one that wakes up for no reason, or a call of
`RTMPPacketCallBack` by any thread. `fails` says that connecting or sending fails. -/
inductive Event
  | push
  | stop
  | gui
  | thread (i : Nat) (fails : Bool)
  | spurious (i : Nat)
  | produce (packet : Option Nat)

/-- `notify_one`. -/
def notifyOne : List Pc → List Pc
  | [] => []
  | .waiting false :: threads => .waiting true :: threads
  | pc :: threads => pc :: notifyOne threads

/-- `packets.setWork(flag)`. -/
def setWork (s : State) (flag : Int) : State :=
  { s with packets := s.packets.setWork flag, threads := notifyOne s.threads }

/-- `RTMPPacketCallBack(packet)`, without the time it stamps on the packet. -/
def rtmpPacketCallBack (s : State) : Option Nat → State
  | none => s
  | some packet => { s with
      packets := s.packets.push ⟨s.threads.length, packet⟩
      -- only a queue that works notifies
      threads := if s.packets.queue.workFlag ≠ 0 then notifyOne s.threads else s.threads }

/-- A turn of the loop in `pop`. -/
def popStep (s : State) (i : Nat) : State :=
  match s.packets.pop with
  | none => { s with threads := s.threads.set i (.waiting false) }
  | some (packets, none) => { s with packets, threads := s.threads.set i .test }
  | some (packets, some packet) => { s with packets, threads := s.threads.set i (.send packet) }

/-- A step of a push thread. -/
def threadStep (s : State) (i : Nat) (fails : Bool) : Option State :=
  match s.threads[i]? with
  | none | some .done | some (.waiting false) => none
  | some .connect =>
    some { s with threads := s.threads.set i (if fails then .close else .setWork) }
  | some .setWork => some (setWork { s with threads := s.threads.set i .test } 1)
  | some .test =>
    some { s with threads := s.threads.set i (if s.isPushing then .pop else .close) }
  | some .pop | some (.waiting true) => some (popStep s i)
  | some (.send packet) => some { s with
      threads := s.threads.set i (if fails then .close else .test)
      sent := s.sent ++ [(i + 1, packet)] }
  | some .close => some { s with threads := s.threads.set i .setWorkOff }
  | some .setWorkOff => some (setWork { s with threads := s.threads.set i .clear } 0)
  | some .clear => some { s with
      packets := s.packets.clear, threads := s.threads.set i .clearPushing }
  | some .clearPushing => some { s with isPushing := false, threads := s.threads.set i .done }

def guiStep (s : State) : Option State :=
  match s.gui with
  | .idle => none
  | .pushSet => some { s with gui := .pushSpawn, isPushing := true }
  | .pushSpawn => some { s with gui := .pushAssign, threads := s.threads ++ [.connect] }
  | .pushAssign => some { s with
      gui := .idle
      handle := some (s.threads.length - 1)
      -- the old thread is destroyed
      terminated := s.handle.isSome }
  | .stopAudio => some { s with gui := .stopClear }
  | .stopClear => some { s with gui := .stopWork, isPushing := false }
  | .stopWork => some (setWork { s with gui := .stopQueue } 0)
  | .stopQueue => some { s with gui := .stopJoin, packets := s.packets.clear }
  | .stopJoin =>
    match s.handle with
    -- `stop` joins without a test for null
    | none => some { s with terminated := true }
    | some i =>
      if s.threads[i]? = some .done then some { s with gui := .idle, handle := none } else none

/-- The first test of a call. -/
def callStep (s : State) (gui : GuiPc) : Option State :=
  if s.gui = .idle then some { s with gui } else none

/-- A step; none from a process that is gone, and none that has to wait. -/
def step (s : State) (e : Event) : Option State :=
  if s.terminated then none
  else match e with
    | .push => callStep s (if s.isPushing then .idle else .pushSet)
    | .stop => callStep s (if s.isPushing then .stopAudio else .idle)
    | .gui => guiStep s
    | .thread i fails => threadStep s i fails
    | .spurious i =>
      if s.threads[i]? = some (.waiting false) then
        some { s with threads := s.threads.set i (.waiting true) }
      else none
    | .produce packet => some (rtmpPacketCallBack s packet)

def init : State := {}

/-! ## Notifications -/

/-- `notify_one` wakes one thread that waits, if there is one. -/
theorem notifyOne_cases (threads : List Pc) :
    ((∀ i : Nat, threads[i]? ≠ some (.waiting false)) ∧ notifyOne threads = threads) ∨
    ∃ i : Nat, threads[i]? = some (.waiting false) ∧
      notifyOne threads = threads.set i (.waiting true) := by
  fun_induction notifyOne threads with
  | case1 => exact .inl ⟨fun i => by simp, rfl⟩
  | case2 threads => exact .inr ⟨0, rfl, rfl⟩
  | case3 pc threads hpc ih =>
    rcases ih with ⟨hnone, heq⟩ | ⟨i, hi, heq⟩
    · refine .inl ⟨fun i => ?_, congrArg _ heq⟩
      cases i with
      | zero => exact fun h => hpc (Option.some.inj h)
      | succ i => exact hnone i
    · exact .inr ⟨i + 1, hi, congrArg _ heq⟩

/-- Nobody waits beside a running thread. -/
theorem notifyOne_of_running {owner : Option Nat} {threads : List Pc}
    (h : Owned .done owner threads) {i : Nat} {pc : Pc} (hi : threads[i]? = some pc)
    (hpc : pc ≠ .done) (hwait : pc ≠ .waiting false) : notifyOne threads = threads := by
  rcases notifyOne_cases threads with ⟨_, heq⟩ | ⟨j, hj, _⟩
  · exact heq
  · obtain rfl := h.unique hi hpc hj (by decide)
    exact absurd (Option.some.inj (hi.symm.trans hj)) hwait

/-! ## The invariant -/

/-- The GUI thread is behind the `setWork(0)` of `stop`. -/
def WorkOff : GuiPc → Prop
  | .stopQueue | .stopJoin => True
  | _ => False

/-- What a push thread at `pc` finds. In `pop` it passed the test of its loop, so
`stop` has yet to end the work, or has done so. -/
def ThreadOk (q : SafeQueue Queued) (gui : GuiPc) (session : Nat) : Pc → Prop
  | .connect | .setWork | .clearPushing => q.workFlag = 0 ∧ q.que = []
  | .pop | .waiting true => WorkOff gui → q.workFlag = 0
  | .waiting false => q.workFlag ≠ 0 ∧ q.que = [] ∧ ¬ WorkOff gui
  | .send packet => packet.session = session
  | .clear => q.workFlag = 0
  | .test | .close | .setWorkOff | .done => True

/-- What the GUI thread finds. -/
def GuiOk (isPushing : Bool) (allDone : Prop) : GuiPc → Prop
  | .idle | .pushAssign => isPushing = false → allDone
  | .pushSet => allDone
  | .pushSpawn => isPushing = true ∧ allDone
  | .stopAudio | .stopClear => True
  | .stopWork | .stopQueue | .stopJoin => isPushing = false

/-- The only push thread that may be running. -/
def State.owner (s : State) : Option Nat :=
  if s.gui = .pushAssign then some (s.threads.length - 1) else s.handle

structure Inv (s : State) : Prop where
  accounts : s.packets.Accounts
  owned : Owned .done s.owner s.threads
  owner_last : ∀ i, s.owner = some i → i + 1 = s.threads.length
  rest : AllDone .done s.threads → s.packets.queue.workFlag = 0 ∧ s.packets.queue.que = []
  session : ∀ q ∈ s.packets.queue.que, q.session = s.threads.length
  thread : ∀ (i : Nat) (pc : Pc), s.threads[i]? = some pc →
    ThreadOk s.packets.queue s.gui s.threads.length pc
  gui : GuiOk s.isPushing (AllDone .done s.threads) s.gui
  sent : ∀ e ∈ s.sent, e.2.session = e.1

theorem inv_init : Inv init where
  accounts := .init
  owned := allDone_nil.owned _
  owner_last _ h := nomatch h
  rest _ := ⟨rfl, rfl⟩
  session _ h := nomatch h
  thread _ _ h := nomatch h
  gui _ := allDone_nil
  sent _ h := nomatch h

/-- A running thread is the last one. -/
theorem Inv.last {s : State} (hs : Inv s) {i : Nat} {pc : Pc} (hi : s.threads[i]? = some pc)
    (hpc : pc ≠ .done) : i + 1 = s.threads.length := hs.owner_last i (hs.owned i pc hi hpc)

/-- While a thread is running the GUI thread is not about to start one. -/
theorem Inv.gui_running {s : State} (hs : Inv s) {i : Nat} {pc : Pc}
    (hi : s.threads[i]? = some pc) (hpc : pc ≠ .done) (allDone : Prop) :
    GuiOk s.isPushing allDone s.gui := by
  have hgui := hs.gui
  have hnot : ¬ AllDone .done s.threads := fun hall => hall.absurd hi hpc
  revert hgui
  cases s.gui with
  | idle => exact fun hgui hoff => absurd (hgui hoff) hnot
  | pushAssign => exact fun hgui hoff => absurd (hgui hoff) hnot
  | pushSet => exact fun hgui => absurd hgui hnot
  | pushSpawn => exact fun hgui => absurd hgui.2 hnot
  | stopAudio => exact id
  | stopClear => exact id
  | stopWork => exact id
  | stopQueue => exact id
  | stopJoin => exact id

/-- A running thread moves on, and maybe the queue with it. -/
theorem Inv.move {s : State} (hs : Inv s) {i : Nat} {pc : Pc} (hi : s.threads[i]? = some pc)
    (hpc : pc ≠ .done) (pc' : Pc) (hpc' : pc' ≠ .done) {packets : History Queued}
    (haccounts : packets.Accounts)
    (hsession : ∀ q ∈ packets.queue.que, q.session = s.threads.length)
    (hok : ThreadOk packets.queue s.gui s.threads.length pc') :
    Inv { s with packets, threads := s.threads.set i pc' } where
  accounts := haccounts
  owned := by simpa [State.owner] using hs.owned.set hi hpc pc'
  owner_last j hj := by
    rw [List.length_set]
    exact hs.owner_last j (by simpa [State.owner] using hj)
  rest hall := absurd (hall.of_set hi) hpc'
  session q hq := by
    rw [List.length_set]
    exact hsession q hq
  thread := by
    rw [List.length_set]
    exact hs.owned.forall_set hi hpc (fun _ => trivial) hok
  gui := hs.gui_running hi hpc _
  sent := hs.sent

/-- The queue alone is changed, which no thread has to notice. -/
theorem Inv.queue {s : State} (hs : Inv s) {packets : History Queued}
    (haccounts : packets.Accounts)
    (hrest : AllDone .done s.threads →
      packets.queue.workFlag = 0 ∧ packets.queue.que = [])
    (hsession : ∀ q ∈ packets.queue.que, q.session = s.threads.length)
    (hok : ∀ (i : Nat) (pc : Pc), s.threads[i]? = some pc →
      ThreadOk packets.queue s.gui s.threads.length pc) :
    Inv { s with packets } :=
  ⟨haccounts, hs.owned, hs.owner_last, hrest, hsession, hok, hs.gui, hs.sent⟩

theorem ThreadOk.workOff {q : SafeQueue Queued} {gui : GuiPc} {session : Nat} {pc : Pc}
    (h : ThreadOk q gui session pc) (hpc : pc ≠ .waiting false) :
    ThreadOk (q.setWork 0) gui session pc := by
  cases pc with
  | connect => exact ⟨rfl, h.2⟩
  | setWork => exact ⟨rfl, h.2⟩
  | clearPushing => exact ⟨rfl, h.2⟩
  | pop => exact fun _ => rfl
  | waiting notified =>
    cases notified with
    | true => exact fun _ => rfl
    | false => exact absurd rfl hpc
  | send packet => exact h
  | clear => exact rfl
  | test => trivial
  | close => trivial
  | setWorkOff => trivial
  | done => trivial

/-- `packets.setWork(0)` lets whoever waits go on. -/
theorem Inv.setWork_zero {s : State} (hs : Inv s) : Inv (setWork s 0) := by
  unfold setWork
  rcases notifyOne_cases s.threads with ⟨hnone, heq⟩ | ⟨i, hi, heq⟩
  · rw [heq]
    exact hs.queue (hs.accounts.setWork 0) (fun hall => ⟨rfl, (hs.rest hall).2⟩) hs.session
      fun i pc hi => (hs.thread i pc hi).workOff fun hwait => hnone i (hwait ▸ hi)
  · rw [heq]
    exact hs.move hi (by decide) _ (by decide) (hs.accounts.setWork 0) hs.session fun _ => rfl

theorem ThreadOk.clear {q : SafeQueue Queued} {gui : GuiPc} {session : Nat} {pc : Pc}
    (h : ThreadOk q gui session pc) : ThreadOk ⟨[], q.workFlag⟩ gui session pc := by
  cases pc with
  | connect => exact ⟨h.1, rfl⟩
  | setWork => exact ⟨h.1, rfl⟩
  | clearPushing => exact ⟨h.1, rfl⟩
  | pop => exact h
  | waiting notified =>
    cases notified with
    | true => exact h
    | false => exact ⟨h.1, rfl, h.2.2⟩
  | send packet => exact h
  | clear => exact h
  | test => trivial
  | close => trivial
  | setWorkOff => trivial
  | done => trivial

theorem clear_queue (h : History Queued) : h.clear.queue = ⟨[], h.queue.workFlag⟩ := by
  simp [History.clear, clear_eq]

theorem Inv.clear {s : State} (hs : Inv s) : Inv { s with packets := s.packets.clear } := by
  refine hs.queue hs.accounts.clear ?_ ?_ ?_
  · rw [clear_queue]
    exact fun hall => ⟨(hs.rest hall).1, rfl⟩
  · rw [clear_queue]
    exact fun _ h => nomatch h
  · rw [clear_queue]
    exact fun i pc hi => (hs.thread i pc hi).clear

/-- A queue that works may take one more packet. -/
theorem ThreadOk.push {q : SafeQueue Queued} {gui : GuiPc} {session : Nat} {pc : Pc}
    (h : ThreadOk q gui session pc) (hwork : q.workFlag ≠ 0) (hpc : pc ≠ .waiting false)
    (que : List Queued) : ThreadOk ⟨que, q.workFlag⟩ gui session pc := by
  cases pc with
  | connect => exact absurd h.1 hwork
  | setWork => exact absurd h.1 hwork
  | clearPushing => exact absurd h.1 hwork
  | pop => exact h
  | waiting notified =>
    cases notified with
    | true => exact h
    | false => exact absurd rfl hpc
  | send packet => exact h
  | clear => exact absurd h hwork
  | test => trivial
  | close => trivial
  | setWorkOff => trivial
  | done => trivial

theorem Inv.produce {s : State} (hs : Inv s) (packet : Option Nat) :
    Inv (rtmpPacketCallBack s packet) := by
  cases packet with
  | none => exact hs
  | some packet =>
    have haccounts := hs.accounts.push ⟨s.threads.length, packet⟩
    by_cases hwork : s.packets.queue.workFlag = 0
    · have hqueue : (s.packets.push ⟨s.threads.length, packet⟩).queue = s.packets.queue := by
        simp [History.push, push_of_idle hwork]
      simp only [rtmpPacketCallBack, hwork, ne_eq, not_true_eq_false, if_false]
      exact hs.queue haccounts (hqueue ▸ hs.rest) (hqueue ▸ hs.session) (hqueue ▸ hs.thread)
    · have hqueue : (s.packets.push ⟨s.threads.length, packet⟩).queue =
          ⟨s.packets.queue.que ++ [⟨s.threads.length, packet⟩], s.packets.queue.workFlag⟩ := by
        simp [History.push, push_of_work hwork]
      have hsession : ∀ q ∈ (s.packets.push ⟨s.threads.length, packet⟩).queue.que,
          q.session = s.threads.length := by
        rw [hqueue]
        intro q hq
        rcases List.mem_append.mp hq with hq | hq
        · exact hs.session q hq
        · rw [List.mem_singleton.mp hq]
      simp only [rtmpPacketCallBack, ne_eq, hwork, not_false_eq_true, if_true]
      rcases notifyOne_cases s.threads with ⟨hnone, heq⟩ | ⟨i, hi, heq⟩
      · rw [heq]
        refine hs.queue haccounts (fun hall => absurd (hs.rest hall).1 hwork) hsession ?_
        rw [hqueue]
        exact fun i pc hi => (hs.thread i pc hi).push hwork (fun hwait => hnone i (hwait ▸ hi)) _
      · rw [heq]
        obtain ⟨_, _, hon⟩ := hs.thread i _ hi
        exact hs.move hi (by decide) _ (by decide) haccounts hsession fun hoff => absurd hoff hon

/-! ## Steps -/

/-- Both ways into the loop of `pop`. -/
theorem Inv.pop {s : State} (hs : Inv s) {i : Nat} {pc : Pc} (hi : s.threads[i]? = some pc)
    (hpc : pc ≠ .done) (hoff : WorkOff s.gui → s.packets.queue.workFlag = 0) :
    Inv (popStep s i) := by
  unfold popStep
  rcases History.pop_queue s.packets with ⟨hwork, hque, hpop⟩ | ⟨t, value, hpop, hque⟩
  · rw [hpop]
    exact hs.move hi hpc _ (by decide) hs.accounts hs.session
      ⟨hwork, hque, fun hgui => hwork (hoff hgui)⟩
  · have hsession : ∀ q ∈ t.queue.que, q.session = s.threads.length := fun q hq =>
      hs.session q (hque ▸ List.mem_append_right _ hq)
    rw [hpop]
    cases value with
    | none => exact hs.move hi hpc _ (by decide) (hs.accounts.pop hpop) hsession trivial
    | some packet =>
      have hpacket : packet.session = s.threads.length :=
        hs.session packet (hque ▸ List.mem_append_left _ (by simp))
      exact hs.move hi hpc (.send packet) nofun (hs.accounts.pop hpop) hsession hpacket

/-- The last statement of a push thread. -/
theorem Inv.finish {s : State} (hs : Inv s) {i : Nat} (hi : s.threads[i]? = some .clearPushing) :
    Inv { s with isPushing := false, threads := s.threads.set i .done } where
  accounts := hs.accounts
  owned := by simpa [State.owner] using hs.owned.set hi (by decide) .done
  owner_last j hj := by
    rw [List.length_set]
    exact hs.owner_last j (by simpa [State.owner] using hj)
  rest _ := hs.thread i _ hi
  session q hq := by
    rw [List.length_set]
    exact hs.session q hq
  thread := by
    rw [List.length_set]
    exact hs.owned.forall_set hi (by decide) (fun _ => trivial) trivial
  gui := by
    have hall := hs.owned.set_done hi (by decide)
    have hgui := hs.gui_running hi (by decide) False
    revert hgui
    dsimp only
    cases s.gui with
    | idle => exact fun _ _ => hall
    | pushAssign => exact fun _ _ => hall
    | pushSet => exact False.elim
    | pushSpawn => exact fun hgui => hgui.2.elim
    | stopAudio => exact id
    | stopClear => exact id
    | stopWork => exact fun _ => rfl
    | stopQueue => exact fun _ => rfl
    | stopJoin => exact fun _ => rfl
  sent := hs.sent

/-- A push thread sets `work_flag`, which nobody waits for. -/
theorem Inv.moveWork {s : State} (hs : Inv s) {i : Nat} {pc pc' : Pc}
    (hi : s.threads[i]? = some pc) (hpc : pc ≠ .done) (hpc' : pc' ≠ .done)
    (hwait : pc' ≠ .waiting false) {flag : Int}
    (hok : ThreadOk (s.packets.queue.setWork flag) s.gui s.threads.length pc') :
    Inv (setWork { s with threads := s.threads.set i pc' } flag) := by
  have hmoved : (s.threads.set i pc')[i]? = some pc' :=
    List.getElem?_set_self (List.getElem?_eq_some_iff.mp hi).1
  unfold setWork
  rw [notifyOne_of_running (hs.owned.set hi hpc pc') hmoved hpc' hwait]
  exact hs.move hi hpc pc' hpc' (hs.accounts.setWork flag) hs.session hok

theorem Inv.threadStep {s t : State} {i : Nat} {fails : Bool} (hs : Inv s)
    (h : threadStep s i fails = some t) : Inv t := by
  unfold SenderQueue.threadStep at h
  split at h
  · cases h
  · cases h
  · cases h
  · next hi =>
    cases h
    have hempty : s.packets.queue.workFlag = 0 ∧ s.packets.queue.que = [] := hs.thread i _ hi
    have hnext : ThreadOk s.packets.queue s.gui s.threads.length
        (if fails then .close else .setWork) := by
      cases fails with
      | true => trivial
      | false => exact hempty
    exact hs.move hi (by decide) _ (by cases fails <;> decide) hs.accounts hs.session hnext
  · next hi =>
    cases h
    exact hs.moveWork hi (by decide) (by decide) (by decide) trivial
  · next hi =>
    cases h
    have hnext : ThreadOk s.packets.queue s.gui s.threads.length
        (if s.isPushing then .pop else .close) := by
      split
      · next hon =>
        -- `stop` clears `is_pushing` before it ends the work
        intro hoff
        have hgui := hs.gui
        revert hoff hgui
        cases s.gui with
        | stopQueue => exact fun _ hgui => absurd (hon.symm.trans hgui) (by decide)
        | stopJoin => exact fun _ hgui => absurd (hon.symm.trans hgui) (by decide)
        | idle => exact fun hoff => hoff.elim
        | pushSet => exact fun hoff => hoff.elim
        | pushSpawn => exact fun hoff => hoff.elim
        | pushAssign => exact fun hoff => hoff.elim
        | stopAudio => exact fun hoff => hoff.elim
        | stopClear => exact fun hoff => hoff.elim
        | stopWork => exact fun hoff => hoff.elim
      · trivial
    exact hs.move hi (by decide) _ (by split <;> decide) hs.accounts hs.session hnext
  · next hi =>
    cases h
    exact hs.pop hi (by decide) (hs.thread i _ hi)
  · next hi =>
    cases h
    exact hs.pop hi (by decide) (hs.thread i _ hi)
  · next packet hi =>
    cases h
    have hpacket : packet.session = s.threads.length := hs.thread i _ hi
    have hnext : ThreadOk s.packets.queue s.gui s.threads.length
        (if fails then .close else .test) := by cases fails <;> trivial
    have ht := hs.move hi nofun _ (by cases fails <;> decide) hs.accounts hs.session hnext
    refine { ht with sent := fun e he => ?_ }
    rcases List.mem_append.mp he with he | he
    · exact hs.sent e he
    · rw [List.mem_singleton.mp he, hpacket, hs.last hi nofun]
  · next hi =>
    cases h
    exact hs.move hi (by decide) _ (by decide) hs.accounts hs.session trivial
  · next hi =>
    cases h
    exact hs.moveWork hi (by decide) (by decide) (by decide) rfl
  · next hi =>
    cases h
    refine hs.move hi (by decide) _ (by decide) hs.accounts.clear ?_ ?_
    · rw [clear_queue]
      exact fun _ hq => nomatch hq
    · rw [clear_queue]
      exact ⟨hs.thread i _ hi, rfl⟩
  · next hi =>
    cases h
    exact hs.finish hi

/-- The GUI thread goes on to `gui`, where the running thread may be the same one. -/
theorem Inv.goTo {s : State} (hs : Inv s) (gui : GuiPc) (isPushing : Bool)
    (howner : s.gui ≠ .pushAssign) (hassign : gui ≠ .pushAssign)
    (hgui : GuiOk isPushing (AllDone .done s.threads) gui)
    (hoff : WorkOff gui → WorkOff s.gui ∨ s.packets.queue.workFlag = 0) :
    Inv { s with gui, isPushing } where
  accounts := hs.accounts
  owned := by simpa [State.owner, howner, hassign] using hs.owned
  owner_last := by simpa [State.owner, howner, hassign] using hs.owner_last
  rest := hs.rest
  session := hs.session
  thread i pc hi := by
    have hold := hs.thread i pc hi
    cases pc with
    | pop => exact fun hnow => (hoff hnow).elim hold id
    | waiting notified =>
      cases notified with
      | true => exact fun hnow => (hoff hnow).elim hold id
      | false =>
        obtain ⟨hwork, hque, hon⟩ := hold
        exact ⟨hwork, hque, fun hnow => (hoff hnow).elim hon hwork⟩
    | connect => exact hold
    | setWork => exact hold
    | clearPushing => exact hold
    | send packet => exact hold
    | clear => exact hold
    | test => trivial
    | close => trivial
    | setWorkOff => trivial
    | done => trivial
  gui := hgui
  sent := hs.sent

/-- The GUI thread starts a push thread. -/
theorem Inv.spawn {s : State} (hs : Inv s) (hon : s.isPushing = true)
    (hall : AllDone .done s.threads) :
    Inv { s with gui := .pushAssign, threads := s.threads ++ [.connect] } := by
  obtain ⟨hwork, hque⟩ := hs.rest hall
  have howned := hall.spawn .connect
  have hnew : (s.threads ++ [Pc.connect])[s.threads.length]? = some .connect := by simp
  have hnot : ¬ AllDone .done (s.threads ++ [.connect]) := fun h => h.absurd hnew (by decide)
  refine ⟨hs.accounts, ?_, ?_, fun h => absurd h hnot, ?_, ?_, ?_, hs.sent⟩
  · simpa [State.owner] using howned
  · simp [State.owner]
  · dsimp only
    rw [hque]
    exact fun _ hq => nomatch hq
  · intro i pc hi
    by_cases hpc : pc = .done
    · exact hpc ▸ trivial
    · obtain rfl := Option.some.inj (howned i pc hi hpc)
      obtain rfl := Option.some.inj (hnew.symm.trans hi)
      exact ⟨hwork, hque⟩
  · exact fun hoff => absurd (hon.symm.trans hoff) (by decide)

/-- The handle of the new thread is assigned. -/
theorem Inv.assign {s : State} (hs : Inv s) (hgui : s.gui = .pushAssign) (terminated : Bool) :
    Inv { s with gui := .idle, handle := some (s.threads.length - 1), terminated } where
  accounts := hs.accounts
  owned := by simpa [State.owner, hgui] using hs.owned
  owner_last := by simpa [State.owner, hgui] using hs.owner_last
  rest := hs.rest
  session := hs.session
  thread i pc hi := by
    have hold := hs.thread i pc hi
    rw [hgui] at hold
    exact hold
  gui := by
    have hold := hs.gui
    rw [hgui] at hold
    exact hold
  sent := hs.sent

/-- `stop` has joined its thread. -/
theorem Inv.joined {s : State} (hs : Inv s) (hgui : s.gui = .stopJoin) {i : Nat}
    (hhandle : s.handle = some i) (hdone : s.threads[i]? = some .done) :
    Inv { s with gui := .idle, handle := none } := by
  have howned : Owned .done (some i) s.threads := by
    simpa [State.owner, hgui, hhandle] using hs.owned
  have hall := howned.allDone_of_done hdone
  refine ⟨hs.accounts, hall.owned _, ?_, hs.rest, hs.session, ?_, fun _ => hall, hs.sent⟩
  · simp [State.owner]
  · intro j pc hj
    exact hall j pc hj ▸ trivial

theorem Inv.guiStep {s t : State} (hs : Inv s) (h : guiStep s = some t) : Inv t := by
  have hgui := hs.gui
  unfold SenderQueue.guiStep at h
  split at h
  · cases h
  · next hpc =>
    cases h
    rw [hpc] at hgui
    exact hs.goTo .pushSpawn true (by simp [hpc]) nofun ⟨rfl, hgui⟩ False.elim
  · next hpc =>
    cases h
    rw [hpc] at hgui
    exact hs.spawn hgui.1 hgui.2
  · next hpc =>
    cases h
    exact hs.assign hpc _
  · next hpc =>
    cases h
    exact hs.goTo .stopClear _ (by simp [hpc]) nofun trivial False.elim
  · next hpc =>
    cases h
    exact hs.goTo .stopWork false (by simp [hpc]) nofun rfl False.elim
  · next hpc =>
    cases h
    rw [hpc] at hgui
    exact hs.setWork_zero.goTo .stopQueue _ (by simp [setWork, hpc]) nofun hgui fun _ => .inr rfl
  · next hpc =>
    cases h
    rw [hpc] at hgui
    exact hs.clear.goTo .stopJoin _ (by simp [hpc]) nofun hgui fun _ =>
      .inl (by simp [hpc, WorkOff])
  · next hpc =>
    split at h
    · cases h
      exact ⟨hs.accounts, hs.owned, hs.owner_last, hs.rest, hs.session, hs.thread, hs.gui, hs.sent⟩
    · next i hhandle =>
      split at h
      · next hdone =>
        cases h
        exact hs.joined hpc hhandle hdone
      · cases h

/-- A call of the GUI starts. -/
theorem Inv.call {s t : State} {gui : GuiPc} (hs : Inv s) (h : callStep s gui = some t)
    (hassign : gui ≠ .pushAssign)
    (hgui : (s.isPushing = false → AllDone .done s.threads) →
      GuiOk s.isPushing (AllDone .done s.threads) gui) (hoff : ¬ WorkOff gui) : Inv t := by
  unfold callStep at h
  split at h
  · next hidle =>
    cases h
    have hold := hs.gui
    rw [hidle] at hold
    exact hs.goTo gui _ (by simp [hidle]) hassign (hgui hold) fun hnow => absurd hnow hoff
  · cases h

theorem Inv.step {s t : State} {e : Event} (hs : Inv s) (h : step s e = some t) : Inv t := by
  unfold SenderQueue.step at h
  split at h
  · cases h
  · cases e with
    | push =>
      refine hs.call h ?_ ?_ ?_
      · split <;> decide
      · intro hidle
        split
        · exact hidle
        · next hoff => exact hidle (by simpa using hoff)
      · split <;> exact id
    | stop =>
      refine hs.call h ?_ ?_ ?_
      · split <;> decide
      · intro hidle
        split
        · trivial
        · exact hidle
      · split <;> exact id
    | gui => exact hs.guiStep h
    | thread i fails => exact hs.threadStep h
    | spurious i =>
      dsimp only at h
      split at h
      · next hi =>
        cases h
        obtain ⟨_, _, hon⟩ := hs.thread i _ hi
        exact hs.move hi (by decide) _ (by decide) hs.accounts hs.session
          fun hoff => absurd hoff hon
      · cases h
    | produce packet =>
      cases h
      exact hs.produce packet

theorem inv_of_reach {s : State} (h : Runs.Reachable step init s) : Inv s :=
  h.invariant inv_init fun _ _ _ hs _ hstep => hs.step hstep

/-! ## Stopping -/

/-- While `stop` joins, no push thread waits for a notification that is not coming. -/
theorem stop_never_deadlocks {s : State} (h : Runs.Reachable step init s)
    (hjoin : s.gui = .stopJoin) (i : Nat) : s.threads[i]? ≠ some (.waiting false) := by
  intro hi
  obtain ⟨_, _, hon⟩ := (inv_of_reach h).thread i _ hi
  exact hon (by simp [hjoin, WorkOff])

/-- The push thread waits in `pop`, and `stop` goes on to its join. -/
def stopWhileWaiting : List Event :=
  [.push, .gui, .gui, .gui, .thread 0 false, .thread 0 false, .thread 0 false, .thread 0 false,
    .stop, .gui, .gui, .gui, .gui]

/-- The thread that waited is notified. -/
theorem stop_never_deadlocks_whileWaiting :
    ∃ s, Runs.exec step init stopWhileWaiting = some s ∧ s.gui = .stopJoin ∧
      s.threads = [.waiting true] ∧ s.threads[0]? ≠ some (.waiting false) := by
  have hrun : ∃ s, Runs.exec step init stopWhileWaiting = some s ∧ s.gui = .stopJoin ∧
      s.threads = [.waiting true] := ⟨_, rfl, rfl, rfl⟩
  obtain ⟨s, hexec, hgui, hthreads⟩ := hrun
  exact ⟨s, hexec, hgui, hthreads,
    stop_never_deadlocks (Runs.reachable_of_exec hexec) hgui 0⟩

/-- A push thread that is not done goes on, unless it waits. -/
theorem threadStep_enabled {s : State} {i : Nat} {pc : Pc} (hi : s.threads[i]? = some pc)
    (hpc : pc ≠ .done) (hwait : pc ≠ .waiting false) (fails : Bool) :
    ∃ t, threadStep s i fails = some t := by
  unfold threadStep
  rw [hi]
  cases pc with
  | waiting notified =>
    cases notified with
    | true => exact ⟨_, rfl⟩
    | false => exact absurd rfl hwait
  | done => exact absurd rfl hpc
  | connect => exact ⟨_, rfl⟩
  | setWork => exact ⟨_, rfl⟩
  | test => exact ⟨_, rfl⟩
  | pop => exact ⟨_, rfl⟩
  | send packet => exact ⟨_, rfl⟩
  | close => exact ⟨_, rfl⟩
  | setWorkOff => exact ⟨_, rfl⟩
  | clear => exact ⟨_, rfl⟩
  | clearPushing => exact ⟨_, rfl⟩

/-- While `stop` joins, it returns or the push thread goes on. -/
theorem stop_goes_on {s : State} (h : Runs.Reachable step init s) (hjoin : s.gui = .stopJoin)
    (hterminated : s.terminated = false) (fails : Bool) :
    (∃ t, step s .gui = some t) ∨ ∃ i t, step s (.thread i fails) = some t := by
  have hstep : ∀ e, step s e = _ := fun e => if_neg (by simp [hterminated])
  cases hhandle : s.handle with
  | none =>
    exact .inl ⟨{ s with terminated := true },
      (hstep .gui).trans (by simp [guiStep, hjoin, hhandle])⟩
  | some i =>
    have hlast : i + 1 = s.threads.length :=
      (inv_of_reach h).owner_last i (by simp [State.owner, hjoin, hhandle])
    have hi : s.threads[i]? = some s.threads[i] := List.getElem?_eq_getElem (by omega)
    by_cases hdone : s.threads[i] = .done
    · exact .inl ⟨{ s with gui := .idle, handle := none }, (hstep .gui).trans
        (by simp [guiStep, hjoin, hhandle, hi, hdone])⟩
    · have hwait : s.threads[i] ≠ .waiting false := fun hwait =>
        stop_never_deadlocks h hjoin i (hwait ▸ hi)
      obtain ⟨t, ht⟩ := threadStep_enabled hi hdone hwait fails
      exact .inr ⟨i, t, (hstep _).trans ht⟩

/-! ## Sessions -/

/-- In any order of critical sections no element is lost or doubled, and over all runs
of the sender no session finds or sends a packet of another one. -/
theorem packets_of_sessions {α : Type} {es : List (Section α)} {t : History α}
    (ht : Runs.exec act {} es = some t) {s : State} (hs : Runs.Reachable step init s) :
    t.Accounts ∧ s.packets.Accounts ∧
    (∀ i : Nat, s.threads[i]? = some .setWork → s.packets.queue.que = []) ∧
    ∀ e ∈ s.sent, e.2.session = e.1 := by
  have hinv := inv_of_reach hs
  refine ⟨accounts_of_exec ht, hinv.accounts, fun i hi => ?_, hinv.sent⟩
  have hempty : s.packets.queue.workFlag = 0 ∧ s.packets.queue.que = [] := hinv.thread i _ hi
  exact hempty.2

/-- A push to a queue that does not work, two to one that does, one of them popped. -/
def sections : List (Section Nat) :=
  [.push 1, .setWork 1, .push 2, .push 3, .pop, .setWork 0, .clear]

/-- A packet comes while `stop` ends the first session, whose thread is past its loop;
the second session sends one of its own. -/
def twoSessions : List Event :=
  [.push, .gui, .gui, .gui, .thread 0 false, .thread 0 false, .stop, .gui, .gui, .thread 0 false,
    .produce (some 7), .gui, .gui, .thread 0 false, .thread 0 false, .thread 0 false,
    .thread 0 false, .gui, .push, .gui, .gui, .gui, .thread 1 false, .thread 1 false,
    .produce (some 8), .thread 1 false, .thread 1 false, .thread 1 false]

theorem packets_of_sessions_twoSessions :
    ∃ t s, Runs.exec act {} sections = some t ∧ Runs.exec step init twoSessions = some s ∧
      t.popped = [2] ∧ t.released = [1, 3] ∧ s.packets.released = [⟨1, 7⟩] ∧
      s.sent = [(2, ⟨2, 8⟩)] ∧ t.Accounts ∧ s.packets.Accounts ∧
      (∀ i : Nat, s.threads[i]? = some .setWork → s.packets.queue.que = []) ∧
      ∀ e ∈ s.sent, e.2.session = e.1 := by
  have hrun : ∃ t s, Runs.exec act {} sections = some t ∧
      Runs.exec step init twoSessions = some s ∧ t.popped = [2] ∧ t.released = [1, 3] ∧
      s.packets.released = [⟨1, 7⟩] ∧ s.sent = [(2, ⟨2, 8⟩)] :=
    ⟨_, _, rfl, rfl, rfl, rfl, rfl, rfl⟩
  obtain ⟨t, s, ht, hs, hpopped, hreleased, hfirst, hsent⟩ := hrun
  exact ⟨t, s, ht, hs, hpopped, hreleased, hfirst, hsent,
    packets_of_sessions ht (Runs.reachable_of_exec hs)⟩

end MiniSurveillance.SenderQueue
