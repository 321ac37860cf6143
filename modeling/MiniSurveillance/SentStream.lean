import MiniSurveillance.SenderSteps
import MiniSurveillance.DecoderStream

/-!
# What a session sends of the encoders' packets

Camera and audio push packets at any time. Those that come before the queue is opened or behind
its end are dropped, and `stop` and the end of the push thread clear it.

* `sent_contiguous`: what a session sends is a run of what was pushed, with nothing left
  out in between.
* `units_of_push`: so is what the decoder of a player is fed, of the units of the encoder.
-/

namespace MiniSurveillance.SenderQueue
open Threads SafeQueue Runs

/-- The packets of a session given to `RTMP_SendPacket`. -/
def State.sentBy (s : State) (session : Nat) : List Queued :=
  (s.sent.filter fun e => e.1 = session).map Prod.snd

/-- The packets of the current session that were sent or are on their way. -/
def State.line (s : State) : List Queued := s.sentBy s.threads.length ++ s.transit

def State.workFlag (s : State) : Int := s.packets.queue.workFlag

variable {s t : State} {e : Event}

theorem Pc.Starting.hand {pc : Pc} (h : pc.Starting) : pc.hand = [] := by
  cases pc <;> first | rfl | cases h

/-! ## What a step does to the line -/

/-- What every step does that starts no thread and brings no packet. -/
structure Keeps (s t : State) : Prop where
  length : t.threads.length = s.threads.length
  pushed : t.packets.pushed = s.packets.pushed
  starting : t.current.Starting → s.current.Starting
  gui : WorkOff t.gui → WorkOff s.gui ∨ t.workFlag = 0

inductive Flows (s t : State) : Prop
  | spawn : t.threads.length = s.threads.length + 1 → t.packets.pushed = s.packets.pushed →
      t.sent = s.sent → t.transit = [] → ¬ WorkOff t.gui → Flows s t
  | move : Keeps s t → t.sent = s.sent → t.transit = s.transit →
      (t.workFlag ≠ 0 → s.workFlag ≠ 0) →
      (t.current.hand = s.current.hand ∨ (WorkOff s.gui → s.workFlag = 0)) → Flows s t
  | workOn : Keeps s t → t.sent = s.sent → t.transit = [] → s.current.Starting → Flows s t
  | send (packet : Queued) : Keeps s t → t.sent = s.sent ++ [(s.threads.length, packet)] →
      s.current.hand = [packet] → s.transit = packet :: t.transit → t.workFlag = s.workFlag →
      Flows s t
  | clear (dropped : List Queued) : Keeps s t → t.sent = s.sent →
      s.transit = t.transit ++ dropped → t.transit = s.current.hand →
      t.current.hand = s.current.hand → t.workFlag = s.workFlag →
      (WorkOff s.gui ∨ s.workFlag = 0) → Flows s t

theorem transit_eq (hhand : t.current.hand = s.current.hand)
    (hque : t.packets.queue.que = s.packets.queue.que) : t.transit = s.transit := by
  rw [State.transit, State.transit, hhand, hque]

/-- The current thread is where it was, or it was notified. -/
theorem notified (hs : Inv s) (ht : t.threads = s.threads ∨ t.threads = notifyOne s.threads) :
    t.threads.length = s.threads.length ∧ t.current.hand = s.current.hand ∧
      (t.current.Starting → s.current.Starting) := by
  have hcurrent : t.threads.length = s.threads.length ∧
      (t.current = s.current ∨ (s.current = .waiting false ∧ t.current = .waiting true)) := by
    rcases ht with ht | ht
    · exact ⟨by rw [ht], .inl (by rw [State.current, ht]; rfl)⟩
    · exact notifyOne_current hs ht
  obtain ⟨hlength, hsame | ⟨hbefore, hafter⟩⟩ := hcurrent
  · exact ⟨hlength, by rw [hsame], fun h => hsame ▸ h⟩
  · refine ⟨hlength, by rw [hbefore, hafter]; rfl, fun h => ?_⟩
    rw [hafter] at h
    exact h.elim

theorem guiStep_flows (hs : Inv s) (h : guiStep s = some t) : Flows s t := by
  have hmove (hthreads : t.threads = s.threads ∨ t.threads = notifyOne s.threads)
      (hpackets : t.packets.queue.que = s.packets.queue.que)
      (hpushed : t.packets.pushed = s.packets.pushed) (hsent : t.sent = s.sent)
      (hflag : t.workFlag ≠ 0 → s.workFlag ≠ 0)
      (hgui : WorkOff t.gui → WorkOff s.gui ∨ t.workFlag = 0) : Flows s t := by
    obtain ⟨hlength, hhand, hstarting⟩ := notified hs hthreads
    exact .move ⟨hlength, hpushed, hstarting, hgui⟩ hsent (transit_eq hhand hpackets) hflag
      (.inl hhand)
  unfold guiStep at h
  split at h
  · cases h
  · cases h
    exact hmove (.inl rfl) rfl rfl rfl id False.elim
  · next hgui =>
    cases h
    have hall : AllDone .done s.threads := by
      have hok := hs.gui
      rw [hgui] at hok
      exact hok.2
    refine .spawn (by simp) rfl rfl ?_ id
    simp [State.transit, State.current, Pc.hand, (hs.rest hall).2]
  · cases h
    exact hmove (.inl rfl) rfl rfl rfl id False.elim
  · cases h
    exact hmove (.inl rfl) rfl rfl rfl id False.elim
  · cases h
    exact hmove (.inl rfl) rfl rfl rfl id False.elim
  · cases h
    exact hmove (.inr rfl) rfl rfl rfl (fun hoff => absurd rfl hoff) fun _ => .inr rfl
  · next hgui =>
    cases h
    have hoff : WorkOff s.gui := by simp [hgui, WorkOff]
    refine .clear s.packets.queue.que ⟨rfl, rfl, id, fun _ => .inl hoff⟩ rfl ?_ ?_ rfl ?_ (.inl hoff)
    · simp [State.transit, State.current, clear_queue]
    · simp [State.transit, State.current, clear_queue]
    · simp [State.workFlag, clear_queue]
  · next hgui =>
    have hoff : WorkOff s.gui := by simp [hgui, WorkOff]
    split at h
    · cases h
      exact hmove (.inl rfl) rfl rfl rfl id fun _ => .inl hoff
    · split at h
      · cases h
        exact hmove (.inl rfl) rfl rfl rfl id False.elim
      · cases h

/-- The running thread moves on. -/
theorem Keeps.of_set {i : Nat} {pc pc' : Pc} (hs : Inv s) (hi : s.threads[i]? = some pc)
    (hpc : pc ≠ .done) (ht : t.threads = s.threads.set i pc')
    (hpushed : t.packets.pushed = s.packets.pushed) (hstarting : pc'.Starting → pc.Starting)
    (hgui : t.gui = s.gui) :
    Keeps s t ∧ s.current = pc ∧ t.current = pc' := by
  have hbefore := hs.current hi hpc
  have hafter := current_set (hs.last hi hpc) ht
  refine ⟨⟨by rw [ht, List.length_set], hpushed, ?_, fun h => .inl (hgui ▸ h)⟩, hbefore, hafter⟩
  rw [hbefore, hafter]
  exact hstarting

theorem Flows.of_move {i : Nat} {pc pc' : Pc} (hs : Inv s) (hi : s.threads[i]? = some pc)
    (hpc : pc ≠ .done) (ht : t.threads = s.threads.set i pc')
    (hstarting : pc'.Starting → pc.Starting) (hgui : t.gui = s.gui) (hsent : t.sent = s.sent)
    (hpackets : t.packets.pushed = s.packets.pushed)
    (htransit : pc'.hand ++ t.packets.queue.que = pc.hand ++ s.packets.queue.que)
    (hflag : t.workFlag ≠ 0 → s.workFlag ≠ 0)
    (hhand : pc'.hand = pc.hand ∨ (WorkOff s.gui → s.workFlag = 0)) : Flows s t := by
  obtain ⟨hkeeps, hbefore, hafter⟩ := Keeps.of_set hs hi hpc ht hpackets hstarting hgui
  refine .move hkeeps hsent ?_ hflag (by rwa [hbefore, hafter])
  rw [State.transit, State.transit, hbefore, hafter]
  exact htransit

theorem pop_workFlag {α : Type} {h u : History α} {value : Option α}
    (hpop : h.pop = some (u, value)) : u.queue.workFlag = h.queue.workFlag := by
  obtain ⟨⟨queue, front⟩, hqueue, heq⟩ := Option.map_eq_some_iff.mp hpop
  obtain ⟨rfl, rfl⟩ := Prod.mk.inj heq
  rcases pop_cases h.queue with ⟨_, _, hnone⟩ | ⟨_, _, hsome⟩ | ⟨_, _, _, hsome⟩
  · rw [hnone] at hqueue
    cases hqueue
  · rw [hsome] at hqueue
    cases hqueue
    rfl
  · rw [hsome] at hqueue
    cases hqueue
    rfl

/-- A turn of the loop in `pop` takes the front of the queue in hand, and while `stop` is at work
only from a queue that does not work. -/
theorem popStep_flows {i : Nat} {pc : Pc} (hs : Inv s) (hi : s.threads[i]? = some pc)
    (hpc : pc ≠ .done) (hhand : pc.hand = []) (hoff : WorkOff s.gui → s.workFlag = 0) :
    Flows s (popStep s i) := by
  unfold popStep
  rcases History.pop_queue s.packets with ⟨_, _, hpop⟩ | ⟨u, value, hpop, hque⟩
  · rw [hpop]
    exact .of_move hs hi hpc rfl False.elim rfl rfl rfl (by rw [hhand]; rfl) id (.inr hoff)
  · obtain ⟨hpushed, -, -⟩ := History.pop_found hpop
    have hflag := pop_workFlag hpop
    rw [hpop]
    cases value with
    | none =>
      exact .of_move hs hi hpc rfl False.elim rfl rfl hpushed (by rw [hhand, hque]; rfl)
        (fun hwork hoff => hwork (hflag.trans hoff)) (.inr hoff)
    | some packet =>
      exact .of_move hs hi hpc rfl False.elim rfl rfl hpushed (by rw [hhand, hque]; rfl)
        (fun hwork hoff => hwork (hflag.trans hoff)) (.inr hoff)

theorem threadStep_flows {i : Nat} {fails : Bool} (hs : Inv s)
    (h : threadStep s i fails = some t) : Flows s t := by
  unfold threadStep at h
  split at h
  · cases h
  · cases h
  · cases h
  · next hi =>
    cases h
    refine .of_move hs hi (by decide) rfl (fun _ => trivial) rfl rfl rfl ?_ id (.inl ?_)
    · cases fails <;> rfl
    · cases fails <;> rfl
  · next hi =>
    cases h
    have hempty : s.packets.queue.workFlag = 0 ∧ s.packets.queue.que = [] := hs.thread i _ hi
    have hthreads : notifyOne (s.threads.set i .test) = s.threads.set i .test :=
      notifyOne_of_running (hs.owned.set hi (by decide) .test)
        (List.getElem?_set_self (List.getElem?_eq_some_iff.mp hi).1) (by decide) (by decide)
    obtain ⟨hkeeps, hbefore, hafter⟩ :=
      Keeps.of_set (t := setWork { s with threads := s.threads.set i .test } 1) hs hi (by decide)
        hthreads rfl False.elim rfl
    refine .workOn hkeeps rfl ?_ (by rw [hbefore]; trivial)
    rw [State.transit, hafter]
    exact hempty.2
  · next hi =>
    cases h
    refine .of_move hs hi (by decide) rfl ?_ rfl rfl rfl ?_ id (.inl ?_)
    · split <;> exact False.elim
    · split <;> rfl
    · split <;> rfl
  · next hi =>
    cases h
    exact popStep_flows hs hi (by decide) rfl (hs.thread i _ hi)
  · next hi =>
    cases h
    exact popStep_flows hs hi (by decide) rfl (hs.thread i _ hi)
  · next packet hi =>
    cases h
    obtain ⟨hkeeps, hbefore, hafter⟩ := Keeps.of_set
      (t := { s with
        threads := s.threads.set i (if fails then .close else .test)
        sent := s.sent ++ [(i + 1, packet)] }) hs hi (by simp) rfl rfl
      (by cases fails <;> exact False.elim) rfl
    refine .send packet hkeeps (by rw [hs.last hi (by simp)]) (by rw [hbefore]; rfl) ?_ rfl
    rw [State.transit, State.transit, hbefore, hafter]
    cases fails <;> rfl
  · next hi =>
    cases h
    exact .of_move hs hi (by decide) rfl False.elim rfl rfl rfl rfl id (.inl rfl)
  · next hi =>
    cases h
    have hthreads : notifyOne (s.threads.set i .clear) = s.threads.set i .clear :=
      notifyOne_of_running (hs.owned.set hi (by decide) .clear)
        (List.getElem?_set_self (List.getElem?_eq_some_iff.mp hi).1) (by decide) (by decide)
    exact .of_move hs hi (by decide) hthreads False.elim rfl rfl rfl rfl (fun hoff => absurd rfl hoff)
      (.inl rfl)
  · next hi =>
    cases h
    have hoff : s.workFlag = 0 := hs.thread i _ hi
    obtain ⟨hkeeps, hbefore, hafter⟩ := Keeps.of_set
      (t := { s with packets := s.packets.clear, threads := s.threads.set i .clearPushing })
      hs hi (by decide) rfl rfl False.elim rfl
    have htransit : State.transit { s with
        packets := s.packets.clear, threads := s.threads.set i .clearPushing } = [] := by
      rw [State.transit, hafter, clear_queue]
      rfl
    refine .clear s.packets.queue.que hkeeps rfl ?_ ?_ ?_ ?_ (.inr hoff)
    · rw [htransit, State.transit, hbefore]
      rfl
    · rw [htransit, hbefore]
      rfl
    · rw [hbefore, hafter]
      rfl
    · simp [State.workFlag, clear_queue]
  · next hi =>
    cases h
    exact .of_move hs hi (by decide) rfl False.elim rfl rfl rfl rfl id (.inl rfl)

theorem step_flows (hs : Inv s) (h : step s e = some t) (hproduce : ∀ packet, e ≠ .produce packet) :
    Flows s t := by
  have hcall {gui : GuiPc} (hgui : ¬ WorkOff gui) (h : callStep s gui = some t) : Flows s t := by
    obtain ⟨_, heq⟩ := Option.ite_none_right_eq_some.mp h
    obtain rfl := Option.some.inj heq
    exact .move ⟨rfl, rfl, id, fun hoff => absurd hoff hgui⟩ rfl rfl id (.inl rfl)
  unfold step at h
  split at h
  · cases h
  · cases e with
    | push => exact hcall (by split <;> exact id) h
    | stop => exact hcall (by split <;> exact id) h
    | gui => exact guiStep_flows hs h
    | thread i fails => exact threadStep_flows hs h
    | spurious i =>
      obtain ⟨hi, heq⟩ := Option.ite_none_right_eq_some.mp h
      obtain rfl := Option.some.inj heq
      exact .of_move hs hi (by decide) rfl False.elim rfl rfl rfl rfl id (.inl rfl)
    | produce packet => exact absurd rfl (hproduce packet)

/-! ## The line of a session -/

/-- The line stands in what was pushed, at its end while the queue works. -/
def Placed (s : State) : Prop :=
  ∃ before after, s.packets.pushed = before ++ s.line ++ after ∧ (s.workFlag ≠ 0 → after = [])

structure Stream (s : State) : Prop where
  bound : ∀ sent ∈ s.sent, sent.1 ≤ s.threads.length
  /-- A thread that has not opened the queue has sent nothing. -/
  start : s.current.Starting → s.sentBy s.threads.length = []
  /-- A queue that is opened behind the `setWork(0)` of `stop` gives nothing out. -/
  off : WorkOff s.gui → s.workFlag ≠ 0 →
    s.sentBy s.threads.length = [] ∧ s.current.hand = []
  placed : Placed s
  past : ∀ session, s.sentBy session <:+: s.packets.pushed

theorem placed_of_nil (h : s.line = []) : Placed s :=
  ⟨s.packets.pushed, [], by rw [h, List.append_nil, List.append_nil], fun _ => rfl⟩

theorem sentBy_congr (h : t.sent = s.sent) (session : Nat) :
    t.sentBy session = s.sentBy session := by rw [State.sentBy, State.sentBy, h]

theorem sentBy_spawn (h : ∀ sent ∈ s.sent, sent.1 ≤ s.threads.length) :
    s.sentBy (s.threads.length + 1) = [] := by
  rw [State.sentBy, List.filter_eq_nil_iff.mpr, List.map_nil]
  intro sent hsent hnow
  have := h sent hsent
  have : sent.1 = s.threads.length + 1 := by simpa using hnow
  omega

theorem stream_init : Stream init where
  bound := nofun
  start := nofun
  off := nofun
  placed := placed_of_nil rfl
  past _ := List.nil_infix

theorem Stream.flows (h : Stream s) (hflows : Flows s t) : Stream t := by
  cases hflows with
  | spawn hlength hpushed hsent htransit hgui =>
    have hnone : t.sentBy t.threads.length = [] := by
      rw [sentBy_congr hsent, hlength, sentBy_spawn h.bound]
    refine ⟨fun sent hmem => ?_, fun _ => hnone, fun hoff => absurd hoff hgui,
      placed_of_nil ?_, fun session => ?_⟩
    · rw [hlength]
      exact Nat.le_succ_of_le (h.bound sent (hsent ▸ hmem))
    · rw [State.line, hnone, htransit]
      rfl
    · rw [sentBy_congr hsent, hpushed]
      exact h.past session
  | move hkeeps hsent htransit hflag hhand =>
    have hby := sentBy_congr hsent
    refine ⟨fun sent hmem => ?_, fun hstarting => ?_, fun hoff hwork => ?_, ?_, fun session => ?_⟩
    · rw [hkeeps.length]
      exact h.bound sent (hsent ▸ hmem)
    · rw [hby, hkeeps.length]
      exact h.start (hkeeps.starting hstarting)
    · have hstop := (hkeeps.gui hoff).resolve_right hwork
      obtain ⟨hnone, hempty⟩ := h.off hstop (hflag hwork)
      have hsame := hhand.resolve_right fun hzero => hflag hwork (hzero hstop)
      rw [hby, hkeeps.length, hsame]
      exact ⟨hnone, hempty⟩
    · obtain ⟨before, after, heq, hlast⟩ := h.placed
      refine ⟨before, after, ?_, fun hwork => hlast (hflag hwork)⟩
      rw [hkeeps.pushed, heq, State.line, State.line, hby, hkeeps.length, htransit]
    · rw [hby, hkeeps.pushed]
      exact h.past session
  | workOn hkeeps hsent htransit hstarting =>
    have hby := sentBy_congr hsent
    have hnone : t.sentBy t.threads.length = [] := by
      rw [hby, hkeeps.length, h.start hstarting]
    refine ⟨fun sent hmem => ?_, fun _ => hnone, fun _ _ => ⟨hnone, ?_⟩, placed_of_nil ?_,
      fun session => ?_⟩
    · rw [hkeeps.length]
      exact h.bound sent (hsent ▸ hmem)
    · exact (List.append_eq_nil_iff.mp htransit).1
    · rw [State.line, hnone, htransit]
      rfl
    · rw [hby, hkeeps.pushed]
      exact h.past session
  | send packet hkeeps hsent hhand htransit hflag =>
    have hby (session : Nat) : t.sentBy session =
        s.sentBy session ++ if session = s.threads.length then [packet] else [] := by
      rw [State.sentBy, hsent, List.filter_append, List.map_append]
      by_cases hnow : session = s.threads.length
      · simp [hnow, State.sentBy]
      · simp [hnow, Ne.symm hnow, State.sentBy]
    have hline : t.line = s.line := by
      rw [State.line, hkeeps.length, hby, if_pos rfl, List.append_assoc, State.line, htransit]
      rfl
    have hplaced : Placed t := by
      obtain ⟨before, after, heq, hlast⟩ := h.placed
      exact ⟨before, after, by rw [hkeeps.pushed, heq, hline], fun hwork => hlast (hflag ▸ hwork)⟩
    refine ⟨fun sent hmem => ?_, fun hstarting => ?_, fun hoff hwork => ?_, hplaced,
      fun session => ?_⟩
    · rw [hkeeps.length]
      rw [hsent] at hmem
      rcases List.mem_append.mp hmem with hmem | hmem
      · exact h.bound sent hmem
      · rw [List.mem_singleton.mp hmem]
    · rw [(hkeeps.starting hstarting).hand] at hhand
      cases hhand
    · have hstop := (hkeeps.gui hoff).resolve_right hwork
      rw [(h.off hstop (hflag ▸ hwork)).2] at hhand
      cases hhand
    · by_cases hnow : session = t.threads.length
      · obtain ⟨before, after, heq, -⟩ := hplaced
        refine ⟨before, t.transit ++ after, ?_⟩
        rw [heq, hnow, State.line, List.append_assoc, List.append_assoc, List.append_assoc]
      · rw [hby, if_neg (hkeeps.length ▸ hnow), List.append_nil, hkeeps.pushed]
        exact h.past session
  | clear dropped hkeeps hsent hcut htransit hhand hflag hoff =>
    have hby := sentBy_congr hsent
    have hstopped (hwork : s.workFlag ≠ 0) := h.off (hoff.resolve_right hwork) hwork
    refine ⟨fun sent hmem => ?_, fun hstarting => ?_, fun _ hwork => ?_, ?_, fun session => ?_⟩
    · rw [hkeeps.length]
      exact h.bound sent (hsent ▸ hmem)
    · rw [hby, hkeeps.length]
      exact h.start (hkeeps.starting hstarting)
    · rw [hby, hkeeps.length, hhand]
      exact hstopped (hflag ▸ hwork)
    · by_cases hwork : s.workFlag = 0
      · obtain ⟨before, after, heq, -⟩ := h.placed
        refine ⟨before, dropped ++ after, ?_, fun hopen => absurd (hflag.trans hwork) hopen⟩
        rw [hkeeps.pushed, heq, State.line, State.line, hby, hkeeps.length, hcut]
        simp only [List.append_assoc]
      · obtain ⟨hnone, hempty⟩ := hstopped hwork
        refine placed_of_nil ?_
        rw [State.line, hby, hkeeps.length, hnone, htransit, hempty]
        rfl
    · rw [hby, hkeeps.pushed]
      exact h.past session

theorem Stream.produce (hs : Inv s) (h : Stream s) (packet : Nat) :
    Stream (rtmpPacketCallBack s (some packet)) := by
  obtain ⟨hlength, hcurrent, htransit⟩ := produce_transit hs packet
  change _ = s.transit ++ if s.workFlag ≠ 0 then [_] else [] at htransit
  have hby := sentBy_congr (s := s) (t := rtmpPacketCallBack s (some packet)) rfl
  have hpushed : (rtmpPacketCallBack s (some packet)).packets.pushed =
      s.packets.pushed ++ [⟨s.threads.length, packet⟩] := rfl
  have hflag : (rtmpPacketCallBack s (some packet)).workFlag = s.workFlag := by
    show (s.packets.queue.push _).1.workFlag = _
    unfold SafeQueue.push
    split <;> rfl
  have hsame : (rtmpPacketCallBack s (some packet)).current.hand = s.current.hand ∧
      ((rtmpPacketCallBack s (some packet)).current.Starting → s.current.Starting) := by
    rcases hcurrent with hsame | ⟨hbefore, hafter⟩
    · rw [hsame]
      exact ⟨rfl, id⟩
    · rw [hbefore, hafter]
      exact ⟨rfl, id⟩
  refine ⟨fun sent hmem => ?_, fun hstarting => ?_, fun hoff hwork => ?_, ?_, fun session => ?_⟩
  · rw [hlength]
    exact h.bound sent hmem
  · rw [hby, hlength]
    exact h.start (hsame.2 hstarting)
  · rw [hby, hlength, hsame.1]
    exact h.off hoff (hflag ▸ hwork)
  · obtain ⟨before, after, heq, hlast⟩ := h.placed
    by_cases hwork : s.workFlag = 0
    · refine ⟨before, after ++ [⟨s.threads.length, packet⟩], ?_,
        fun hopen => absurd (hflag.trans hwork) hopen⟩
      rw [hpushed, heq, State.line, State.line, hby, hlength, htransit,
        if_neg (not_not.mpr hwork), List.append_nil, List.append_assoc]
    · refine ⟨before, [], ?_, fun _ => rfl⟩
      rw [hpushed, heq, hlast hwork, State.line, State.line, hby, hlength, htransit,
        if_pos hwork, List.append_nil, List.append_nil, List.append_assoc, List.append_assoc]
  · rw [hby, hpushed]
    exact (h.past session).trans (List.infix_append' [] _ _)

theorem Stream.step (hs : Inv s) (h : Stream s) (ht : step s e = some t) : Stream t := by
  by_cases hproduce : ∃ packet, e = .produce packet
  · obtain ⟨packet, rfl⟩ := hproduce
    obtain ⟨_, heq⟩ := Option.ite_none_left_eq_some.mp ht
    obtain rfl := Option.some.inj heq
    cases packet with
    | none => exact h
    | some packet => exact h.produce hs packet
  · exact h.flows (step_flows hs ht fun packet he => hproduce ⟨packet, he⟩)

theorem stream_of_reach (h : Reachable step init s) : Inv s ∧ Stream s :=
  h.invariant (I := fun s => Inv s ∧ Stream s) ⟨inv_init, stream_init⟩
    fun _ _ _ h _ hstep => ⟨h.1.step hstep, h.2.step h.1 hstep⟩

/-- In any interleaving the packets that a session has sent are a run of those that were pushed:
none is left out between two of them, and none is doubled or overtaken. While the queue works the
run goes on, through the packets on their way, to the last packet pushed. -/
theorem sent_contiguous (h : Reachable step init s) :
    (∀ session, s.sentBy session <:+: s.packets.pushed) ∧
      (s.workFlag ≠ 0 → s.sentBy s.threads.length ++ s.transit <:+ s.packets.pushed) := by
  obtain ⟨-, hstream⟩ := stream_of_reach h
  refine ⟨hstream.past, fun hwork => ?_⟩
  obtain ⟨before, after, heq, hlast⟩ := hstream.placed
  exact ⟨before, by rw [heq, hlast hwork, List.append_nil]; rfl⟩

/-- The first of two packets is sent, and the second is on its way. -/
def oneSent : List Event :=
  [.push, .gui, .gui, .gui, .thread 0 false, .thread 0 false, .produce (some 0),
    .produce (some 1), .thread 0 false, .thread 0 false, .thread 0 false]

theorem sent_contiguous_oneSent :
    ∃ s, exec step init oneSent = some s ∧ s.sentBy 1 = [⟨1, 0⟩] ∧ s.transit = [⟨1, 1⟩] ∧
      s.sentBy 1 ++ s.transit <:+ s.packets.pushed := by
  have hrun : exec step init oneSent = some _ := rfl
  exact ⟨_, hrun, rfl, rfl, (sent_contiguous (reachable_of_exec hrun)).2 (by decide)⟩

theorem Flows.pushed (h : Flows s t) : t.packets.pushed = s.packets.pushed := by
  cases h with
  | spawn _ hpushed => exact hpushed
  | move hkeeps | workOn hkeeps | send _ hkeeps | clear _ hkeeps => exact hkeeps.pushed

/-- The packets that the encoders give to `RTMPPacketCallBack`. -/
def made (es : List Event) : List Nat :=
  es.filterMap fun e => match e with
    | .produce packet => packet
    | _ => none

theorem pushed_of_exec {es : List Event} (hrun : exec step init es = some s) :
    s.packets.pushed.map Queued.packet = made es := by
  have hboth : Inv s ∧ s.packets.pushed.map Queued.packet = made es :=
    exec_invariant (I := fun es s => Inv s ∧ s.packets.pushed.map Queued.packet = made es)
      ⟨inv_init, rfl⟩ (fun es s e t h ht => ⟨h.1.step ht, ?_⟩) hrun
  · exact hboth.2
  rw [made, List.filterMap_append, ← made, ← h.2]
  by_cases hproduce : ∃ packet, e = .produce packet
  · obtain ⟨packet, rfl⟩ := hproduce
    obtain ⟨_, heq⟩ := Option.ite_none_left_eq_some.mp ht
    obtain rfl := Option.some.inj heq
    cases packet with
    | none => exact (List.append_nil _).symm
    | some packet => exact List.map_append
  · have hnone : List.filterMap (fun e => match e with
        | Event.produce packet => packet
        | _ => none) [e] = [] := by
      cases e <;> first | rfl | exact absurd ⟨_, rfl⟩ hproduce
    rw [hnone, List.append_nil,
      (step_flows h.1 ht fun packet he => hproduce ⟨packet, he⟩).pushed]

end MiniSurveillance.SenderQueue

namespace MiniSurveillance
open Runs SenderQueue

def RTMPPacket.isVideo (p : RTMPPacket) : Bool := p.packetType = packetTypeVideo

/-- From the encoder to the decoder of a player, in any interleaving of the sender's threads: the
units that a decoder is fed of what a session sent are a run of the encoder's units. -/
theorem units_of_push {alloc : Nat → Bool} (halloc : AllocSucceeds alloc)
    (encryption : List UInt8)
    {calls : List (VideoChannel.Locals × List VideoChannel.X264Nal)}
    (hcalls : ∀ c ∈ calls, EncoderOutput (inputBufferSize + 1) c.2)
    (hplain : ∀ c ∈ calls, ∀ nal ∈ c.2, AnnexB.Plain (stripStartCode nal.payload))
    {packets : List RTMPPacket} (hpackets : sessionPackets alloc calls = some packets)
    {es : List Event} {s : State} (hrun : exec step init es = some s) {content : Nat → RTMPPacket}
    (hmade : ((made es).map content).filter RTMPPacket.isVideo <+: packets) (session : Nat) :
    let sent := ((s.sentBy session).map fun q => content q.packet).filter RTMPPacket.isVideo
    (∃ received, Arrived encryption sent received) ∧
      ∀ received, Arrived encryption sent received →
        (∃! stream, StreamFed encryption (received.map RTMPPacket.walk) stream) ∧
        ∀ stream, StreamFed encryption (received.map RTMPPacket.walk) stream →
          AnnexB.units stream <:+:
            (calls.flatMap Prod.snd).map fun nal => stripStartCode nal.payload := by
  intro sent
  obtain ⟨packets', hpackets', hnalus⟩ := sessionPackets_nalus halloc fun c hc =>
    (hcalls c hc).mono (show inputBufferSize + 1 ≤ 2147483639 by decide)
  obtain rfl := Option.some.inj (hpackets.symm.trans hpackets')
  have hinfix : sent <:+: packets := by
    have hpast := (stream_of_reach (reachable_of_exec hrun)).2.past session
    have hmap := (hpast.map Queued.packet).map content
    rw [pushed_of_exec hrun, List.map_map] at hmap
    exact (hmap.filter _).trans hmade.isInfix
  have hunits := hinfix.flatMap VideoCapture.nalus
  refine ⟨exists_arrived encryption sent, fun received harrived => ?_⟩
  have hlast := idrLast_packets received
  refine ⟨existsUnique_streamFed hlast, fun stream hstream => ?_⟩
  rw [(streamFed_iff hlast).mp hstream, harrived.units, annexB_units]
  · have hpayloads := hunits.map Prod.snd
    rw [hnalus, List.map_map] at hpayloads
    exact hpayloads
  · intro unit hunit
    have hmem := hunits.subset hunit
    rw [hnalus] at hmem
    obtain ⟨nal, hnal, rfl⟩ := List.mem_map.mp hmem
    obtain ⟨c, hc, hmem⟩ := List.mem_flatMap.mp hnal
    exact hplain c hc nal hmem

/-- The sets of a key frame are sent, and its slice is on its way. -/
theorem units_of_push_oneSent :
    let sets := setsPacket
      (withSets ⟨0, fun _ => 0, 0, fun _ => 0⟩ [0x67, 0x42, 0x00, 0x1E] [0x68, 0xCE])
    ∃ s, exec step init oneSent = some s ∧ (s.sentBy 1).map Queued.packet = [0] ∧
      ∀ received, Arrived [0x10] [sets] received →
        ∀ stream, StreamFed [0x10] (received.map RTMPPacket.walk) stream →
          AnnexB.units stream <:+: [[0x67, 0x42, 0x00, 0x1E], [0x68, 0xCE], [0x65, 0x88]] := by
  intro sets
  refine ⟨_, rfl, rfl, ?_⟩
  let stack : VideoChannel.Locals := ⟨0, fun _ => 0, 0, fun _ => 0⟩
  have hcalls : ∀ c ∈ [(stack, keyFrameNals)], EncoderOutput (inputBufferSize + 1) c.2 :=
    List.forall_mem_singleton.mpr (.sets rfl rfl rfl rfl (by decide) (by decide) (by decide)
      (.frame (by decide) (by decide) (.inl rfl) rfl (by decide) .nil))
  have hplain : ∀ nal ∈ keyFrameNals, AnnexB.Plain (stripStartCode nal.payload) := by decide
  have hpackets : sessionPackets (fun _ => true) [(stack, keyFrameNals)] =
      some [sets, framePacket 5 [0x65, 0x88]] := rfl
  have hmade : ((made oneSent).map fun n => if n = 0 then sets else
      framePacket 5 [0x65, 0x88]).filter RTMPPacket.isVideo <+: [sets, framePacket 5 [0x65, 0x88]] :=
    List.prefix_refl _
  have hunits := units_of_push (fun _ _ => rfl) [0x10] hcalls (List.forall_mem_singleton.mpr hplain)
    hpackets (show exec step init oneSent = some _ from rfl) hmade 1
  exact fun received harrived => (hunits.2 received harrived).2

end MiniSurveillance
