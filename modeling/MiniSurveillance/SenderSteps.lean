import MiniSurveillance.SenderQueue

/-!
# What a step does to the packets on their way

Beside the running push thread, which is the last one, no other has a packet. The packets of
its session that were not sent are the one it has in hand and those queued.

* `step_cases`: a step starts a thread, opens the queue, sends a packet, or only moves on or
  drops packets on their way.
-/

namespace MiniSurveillance.SenderQueue
open Threads SafeQueue

/-- The last push thread is the only one that may be running. -/
def State.current (s : State) : Pc := s.threads.getLast?.getD .done

/-- The packet a thread has popped and not sent. -/
def Pc.hand : Pc → List Queued
  | .send packet => [packet]
  | _ => []

/-- The packets on their way, first in front. -/
def State.transit (s : State) : List Queued := s.current.hand ++ s.packets.queue.que

/-- In the loop. -/
def Pc.Live : Pc → Prop
  | .test | .pop | .waiting _ | .send _ => True
  | _ => False

/-- Before the queue is opened. -/
def Pc.Starting : Pc → Prop
  | .connect | .setWork => True
  | _ => False

variable {s t : State}

theorem current_of_last {i : Nat} {pc : Pc} (hi : s.threads[i]? = some pc)
    (hlast : i + 1 = s.threads.length) : s.current = pc := by
  rw [State.current, List.getLast?_eq_getElem?, ← hlast, Nat.add_sub_cancel, hi]
  rfl

/-- A running thread is the current one. -/
theorem Inv.current (hs : Inv s) {i : Nat} {pc : Pc} (hi : s.threads[i]? = some pc)
    (hpc : pc ≠ .done) : s.current = pc := current_of_last hi (hs.last hi hpc)

theorem current_set {i : Nat} {pc : Pc} (hlast : i + 1 = s.threads.length)
    (ht : t.threads = s.threads.set i pc) : t.current = pc := by
  refine current_of_last (i := i) ?_ ?_
  · rw [ht]
    exact List.getElem?_set_self (by omega)
  · rw [ht, List.length_set, hlast]

/-- Some packets on their way may be gone, and a thread outside of the loop stays outside. -/
structure Quiet (s t : State) : Prop where
  length : t.threads.length = s.threads.length
  transit : t.transit.Sublist s.transit
  live : t.current.Live → s.current.Live
  starting : t.current.Starting → t.current = s.current
  sent : t.sent = s.sent
  pushed : t.packets.pushed = s.packets.pushed
  popped : ∃ more, t.packets.popped = s.packets.popped ++ more ∧
    t.current.hand = s.current.hand ++ more

/-- What a step other than a `produce` does. -/
inductive Moves (s t : State) : Event → Prop
  | spawn (e : Event) : s.current = .done → t.threads = s.threads ++ [.connect] →
      t.packets = s.packets → t.sent = s.sent → Moves s t e
  | quiet (e : Event) : Quiet s t → Moves s t e
  | connect (i : Nat) : s.threads[i]? = some .connect → t.threads = s.threads.set i .setWork →
      t.packets = s.packets → t.sent = s.sent → Moves s t (.thread i false)
  | setWork (i : Nat) (fails : Bool) : s.threads[i]? = some .setWork →
      t.threads = s.threads.set i .test → t.packets = s.packets.setWork 1 →
      t.packets.queue.que = [] → t.sent = s.sent → Moves s t (.thread i fails)
  | send (i : Nat) (fails : Bool) (packet : Queued) : s.threads[i]? = some (.send packet) →
      t.threads = s.threads.set i (if fails then .close else .test) → t.packets = s.packets →
      t.sent = s.sent ++ [(i + 1, packet)] → Moves s t (.thread i fails)

/-- A notification moves nothing but a thread that waits. -/
theorem notifyOne_current (hs : Inv s) (ht : t.threads = notifyOne s.threads) :
    t.threads.length = s.threads.length ∧
      (t.current = s.current ∨ (s.current = .waiting false ∧ t.current = .waiting true)) := by
  rcases notifyOne_cases s.threads with ⟨_, heq⟩ | ⟨i, hi, heq⟩
  · rw [heq] at ht
    exact ⟨by rw [ht], .inl (by rw [State.current, ht]; rfl)⟩
  · rw [heq] at ht
    refine ⟨by rw [ht, List.length_set], .inr ⟨hs.current hi (by decide), ?_⟩⟩
    exact current_set (hs.last hi (by decide)) ht

/-- The threads are as they were, or notified; the queue may be empty now. -/
theorem Quiet.of_notify (hs : Inv s) (ht : t.threads = s.threads ∨ t.threads = notifyOne s.threads)
    (hque : t.packets.queue.que.Sublist s.packets.queue.que) (hsent : t.sent = s.sent)
    (hpushed : t.packets.pushed = s.packets.pushed)
    (hpopped : t.packets.popped = s.packets.popped) : Quiet s t := by
  have hcurrent : t.threads.length = s.threads.length ∧
      (t.current = s.current ∨ (s.current = .waiting false ∧ t.current = .waiting true)) := by
    rcases ht with ht | ht
    · exact ⟨by rw [ht], .inl (by rw [State.current, ht]; rfl)⟩
    · exact notifyOne_current hs ht
  obtain ⟨hlength, hsame | ⟨hbefore, hafter⟩⟩ := hcurrent
  · refine ⟨hlength, ?_, fun h => hsame ▸ h, fun _ => hsame, hsent, hpushed, [], ?_, ?_⟩
    · rw [State.transit, State.transit, hsame]
      exact hque.append_left _
    · rw [hpopped, List.append_nil]
    · rw [hsame, List.append_nil]
  · refine ⟨hlength, ?_, fun _ => hbefore ▸ trivial, fun h => ?_, hsent, hpushed, [], ?_, ?_⟩
    · rw [State.transit, State.transit, hbefore, hafter]
      exact hque
    · rw [hafter] at h
      exact h.elim
    · rw [hpopped, List.append_nil]
    · rw [hbefore, hafter]
      rfl

/-- The running thread moves on within or out of the loop. -/
theorem Quiet.of_move {i : Nat} {pc pc' : Pc} (hs : Inv s) (hi : s.threads[i]? = some pc)
    (hpc : pc ≠ .done) (ht : t.threads = s.threads.set i pc')
    (htransit : (pc'.hand ++ t.packets.queue.que).Sublist (pc.hand ++ s.packets.queue.que))
    (hlive : pc'.Live → pc.Live) (hstarting : ¬ pc'.Starting) (hsent : t.sent = s.sent)
    (hpushed : t.packets.pushed = s.packets.pushed) (more : List Queued)
    (hpopped : t.packets.popped = s.packets.popped ++ more) (hhand : pc'.hand = pc.hand ++ more) :
    Quiet s t := by
  have hbefore := hs.current hi hpc
  have hafter := current_set (hs.last hi hpc) ht
  refine ⟨by rw [ht, List.length_set], ?_, ?_, fun h => ?_, hsent, hpushed, more, hpopped, ?_⟩
  · rw [State.transit, State.transit, hbefore, hafter]
    exact htransit
  · rw [hbefore, hafter]
    exact hlive
  · rw [hafter] at h
    exact absurd h hstarting
  · rw [hbefore, hafter]
    exact hhand

theorem guiStep_moves (hs : Inv s) (h : guiStep s = some t) : Moves s t .gui := by
  have hquiet (ht : t.threads = s.threads ∨ t.threads = notifyOne s.threads)
      (hque : t.packets.queue.que.Sublist s.packets.queue.que) (hsent : t.sent = s.sent)
      (hpushed : t.packets.pushed = s.packets.pushed)
      (hpopped : t.packets.popped = s.packets.popped) : Moves s t .gui :=
    .quiet _ (.of_notify hs ht hque hsent hpushed hpopped)
  unfold guiStep at h
  split at h
  · cases h
  · cases h
    exact hquiet (.inl rfl) (.refl _) rfl rfl rfl
  · next hgui =>
    cases h
    have hall : AllDone .done s.threads := by
      have hok := hs.gui
      rw [hgui] at hok
      exact hok.2
    have hdone : s.current = .done := by
      rw [State.current, List.getLast?_eq_getElem?]
      cases hlast : s.threads[s.threads.length - 1]? with
      | none => rfl
      | some pc => exact hall _ pc hlast
    exact .spawn _ hdone rfl rfl rfl
  · cases h
    exact hquiet (.inl rfl) (.refl _) rfl rfl rfl
  · cases h
    exact hquiet (.inl rfl) (.refl _) rfl rfl rfl
  · cases h
    exact hquiet (.inl rfl) (.refl _) rfl rfl rfl
  · cases h
    exact hquiet (.inr rfl) (.refl _) rfl rfl rfl
  · cases h
    refine hquiet (.inl rfl) ?_ rfl rfl rfl
    rw [clear_queue]
    exact List.nil_sublist _
  · split at h
    · cases h
      exact hquiet (.inl rfl) (.refl _) rfl rfl rfl
    · split at h
      · cases h
        exact hquiet (.inl rfl) (.refl _) rfl rfl rfl
      · cases h

/-- A turn of the loop in `pop` takes the front of the queue in hand, or nothing. -/
theorem popStep_quiet {i : Nat} {pc : Pc} (hs : Inv s) (hi : s.threads[i]? = some pc)
    (hlive : pc.Live) (hpc : pc ≠ .done) (hhand : pc.hand = []) : Quiet s (popStep s i) := by
  unfold popStep
  rcases History.pop_queue s.packets with ⟨_, _, hpop⟩ | ⟨u, value, hpop, hque⟩
  · rw [hpop]
    refine .of_move hs hi hpc rfl ?_ (fun _ => hlive) nofun rfl rfl [] (List.append_nil _).symm ?_
    · rw [hhand]
      exact .refl _
    · rw [hhand]
      rfl
  · obtain ⟨hpushed, hpopped, _⟩ := History.pop_found hpop
    rw [hpop]
    cases value with
    | none =>
      refine .of_move hs hi hpc rfl ?_ (fun _ => hlive) nofun rfl hpushed [] hpopped ?_
      · rw [hhand, hque]
        exact .refl _
      · rw [hhand]
        rfl
    | some packet =>
      refine .of_move hs hi hpc rfl ?_ (fun _ => hlive) nofun rfl hpushed [packet] hpopped ?_
      · rw [hhand, hque]
        exact .refl _
      · rw [hhand]
        rfl

theorem threadStep_moves {i : Nat} {fails : Bool} (hs : Inv s) (h : threadStep s i fails = some t) :
    Moves s t (.thread i fails) := by
  unfold threadStep at h
  split at h
  · cases h
  · cases h
  · cases h
  · next hi =>
    cases h
    cases fails with
    | true => exact .quiet _ (.of_move hs hi (by decide) rfl (.refl _) nofun nofun rfl rfl []
      (List.append_nil _).symm rfl)
    | false => exact .connect i hi rfl rfl rfl
  · next hi =>
    cases h
    refine .setWork i fails hi ?_ rfl (hs.thread i _ hi).2 rfl
    exact notifyOne_of_running (hs.owned.set hi (by decide) .test)
      (List.getElem?_set_self (List.getElem?_eq_some_iff.mp hi).1) (by decide) (by decide)
  · next hi =>
    cases h
    refine .quiet _ (.of_move hs hi (by decide) rfl ?_ (fun _ => trivial) ?_ rfl rfl []
      (List.append_nil _).symm ?_)
    · split
      · exact .refl _
      · exact .refl _
    · split
      · exact nofun
      · exact nofun
    · split
      · rfl
      · rfl
  · next hi =>
    cases h
    exact .quiet _ (popStep_quiet hs hi trivial (by decide) rfl)
  · next hi =>
    cases h
    exact .quiet _ (popStep_quiet hs hi trivial (by decide) rfl)
  · next packet hi =>
    cases h
    exact .send i fails packet hi rfl rfl rfl
  · next hi =>
    cases h
    exact .quiet _ (.of_move hs hi (by decide) rfl (.refl _) nofun nofun rfl rfl []
      (List.append_nil _).symm rfl)
  · next hi =>
    cases h
    have hthreads : notifyOne (s.threads.set i .clear) = s.threads.set i .clear :=
      notifyOne_of_running (hs.owned.set hi (by decide) .clear)
        (List.getElem?_set_self (List.getElem?_eq_some_iff.mp hi).1) (by decide) (by decide)
    exact .quiet _ (.of_move hs hi (by decide) hthreads (.refl _) nofun nofun rfl rfl []
      (List.append_nil _).symm rfl)
  · next hi =>
    cases h
    refine .quiet _ (.of_move hs hi (by decide) rfl ?_ nofun nofun rfl rfl []
      (List.append_nil _).symm rfl)
    rw [clear_queue]
    exact List.nil_sublist _
  · next hi =>
    cases h
    exact .quiet _ (.of_move hs hi (by decide) rfl (.refl _) nofun nofun rfl rfl []
      (List.append_nil _).symm rfl)

/-- What a step does to the packets on their way. -/
theorem step_moves {e : Event} (hs : Inv s) (h : step s e = some t)
    (hproduce : ∀ packet, e ≠ .produce packet) : Moves s t e := by
  unfold step at h
  split at h
  · cases h
  · cases e with
    | push =>
      simp only [callStep, Option.ite_none_right_eq_some, Option.some.injEq] at h
      obtain ⟨_, rfl⟩ := h
      exact .quiet _ (.of_notify hs (.inl rfl) (.refl _) rfl rfl rfl)
    | stop =>
      simp only [callStep, Option.ite_none_right_eq_some, Option.some.injEq] at h
      obtain ⟨_, rfl⟩ := h
      exact .quiet _ (.of_notify hs (.inl rfl) (.refl _) rfl rfl rfl)
    | gui => exact guiStep_moves hs h
    | thread i fails => exact threadStep_moves hs h
    | spurious i =>
      simp only [Option.ite_none_right_eq_some, Option.some.injEq] at h
      obtain ⟨hi, rfl⟩ := h
      exact .quiet _ (.of_move hs hi (by decide) rfl (.refl _) (fun _ => trivial) nofun rfl rfl []
        (List.append_nil _).symm rfl)
    | produce packet => exact absurd rfl (hproduce packet)

/-- A packet joins those on their way if the queue works. -/
theorem produce_transit (hs : Inv s) (packet : Nat) :
    (rtmpPacketCallBack s (some packet)).threads.length = s.threads.length ∧
    ((rtmpPacketCallBack s (some packet)).current = s.current ∨
      (s.current = .waiting false ∧
        (rtmpPacketCallBack s (some packet)).current = .waiting true)) ∧
    (rtmpPacketCallBack s (some packet)).transit = s.transit ++
      if s.packets.queue.workFlag ≠ 0 then [⟨s.threads.length, packet⟩] else [] := by
  by_cases hwork : s.packets.queue.workFlag = 0
  · have hqueue : (s.packets.push ⟨s.threads.length, packet⟩).queue = s.packets.queue := by
      simp [History.push, push_of_idle hwork]
    have hthreads : (rtmpPacketCallBack s (some packet)).threads = s.threads :=
      if_neg (not_not.mpr hwork)
    have hcurrent : (rtmpPacketCallBack s (some packet)).current = s.current := by
      rw [State.current, hthreads]
      rfl
    refine ⟨by rw [hthreads], .inl hcurrent, ?_⟩
    rw [State.transit, hcurrent, if_neg (not_not.mpr hwork), List.append_nil]
    exact congrArg (fun q => s.current.hand ++ q.que) hqueue
  · have hqueue : (s.packets.push ⟨s.threads.length, packet⟩).queue =
        ⟨s.packets.queue.que ++ [⟨s.threads.length, packet⟩], s.packets.queue.workFlag⟩ := by
      simp [History.push, push_of_work hwork]
    have hthreads : (rtmpPacketCallBack s (some packet)).threads = notifyOne s.threads :=
      if_pos hwork
    obtain ⟨hlength, hcurrent⟩ := notifyOne_current hs hthreads
    refine ⟨hlength, hcurrent, ?_⟩
    have hhand : (rtmpPacketCallBack s (some packet)).current.hand = s.current.hand := by
      rcases hcurrent with hsame | ⟨hbefore, hafter⟩
      · rw [hsame]
      · rw [hbefore, hafter]
        rfl
    rw [State.transit, hhand, if_pos hwork, State.transit, List.append_assoc]
    exact congrArg (fun q => s.current.hand ++ q.que) hqueue

/-! ## The release handle -/

/-- What a step passes to the release handle: a packet for a queue that does not work, and what
`clear` finds. -/
def State.releases (s : State) : Event → List Queued
  | .produce (some packet) =>
    if s.packets.queue.workFlag ≠ 0 then [] else [⟨s.threads.length, packet⟩]
  | .gui => if s.gui = .stopQueue then s.packets.queue.que else []
  | .thread i _ => if s.threads[i]? = some .clear then s.packets.queue.que else []
  | _ => []

theorem clear_released (h : History Queued) :
    h.clear.released = h.released ++ h.queue.que := by
  rw [History.clear, clear_eq]

theorem guiStep_released (h : guiStep s = some t) :
    t.packets.released = s.packets.released ++ s.releases .gui := by
  have hquiet (hpc : s.gui ≠ .stopQueue) (hpackets : t.packets.released = s.packets.released) :
      t.packets.released = s.packets.released ++ s.releases .gui := by
    rw [State.releases, if_neg hpc, List.append_nil, hpackets]
  unfold guiStep at h
  split at h
  · cases h
  · next hpc =>
    cases h
    exact hquiet (by simp [hpc]) rfl
  · next hpc =>
    cases h
    exact hquiet (by simp [hpc]) rfl
  · next hpc =>
    cases h
    exact hquiet (by simp [hpc]) rfl
  · next hpc =>
    cases h
    exact hquiet (by simp [hpc]) rfl
  · next hpc =>
    cases h
    exact hquiet (by simp [hpc]) rfl
  · next hpc =>
    cases h
    exact hquiet (by simp [hpc]) rfl
  · next hpc =>
    cases h
    rw [State.releases, if_pos hpc]
    exact clear_released s.packets
  · next hpc =>
    refine hquiet (by simp [hpc]) ?_
    split at h
    · cases h
      rfl
    · split at h
      · cases h
        rfl
      · cases h

theorem popStep_released (s : State) (i : Nat) :
    (popStep s i).packets.released = s.packets.released := by
  unfold popStep
  split
  · rfl
  · next packets hpop => exact (History.pop_found hpop).2.2
  · next packets packet hpop => exact (History.pop_found hpop).2.2

theorem threadStep_released {i : Nat} {fails : Bool} (h : threadStep s i fails = some t) :
    t.packets.released = s.packets.released ++ s.releases (.thread i fails) := by
  have hquiet (hpc : s.threads[i]? ≠ some .clear)
      (hpackets : t.packets.released = s.packets.released) :
      t.packets.released = s.packets.released ++ s.releases (.thread i fails) := by
    rw [State.releases, if_neg hpc, List.append_nil, hpackets]
  unfold threadStep at h
  split at h
  · cases h
  · cases h
  · cases h
  · next hi =>
    cases h
    exact hquiet (by simp [hi]) rfl
  · next hi =>
    cases h
    exact hquiet (by simp [hi]) rfl
  · next hi =>
    cases h
    exact hquiet (by simp [hi]) rfl
  · next hi =>
    cases h
    exact hquiet (by simp [hi]) (popStep_released s i)
  · next hi =>
    cases h
    exact hquiet (by simp [hi]) (popStep_released s i)
  · next hi =>
    cases h
    exact hquiet (by simp [hi]) rfl
  · next hi =>
    cases h
    exact hquiet (by simp [hi]) rfl
  · next hi =>
    cases h
    exact hquiet (by simp [hi]) rfl
  · next hi =>
    cases h
    rw [State.releases, if_pos hi]
    exact clear_released s.packets
  · next hi =>
    cases h
    exact hquiet (by simp [hi]) rfl

theorem step_released {e : Event} (h : step s e = some t) :
    t.packets.released = s.packets.released ++ s.releases e := by
  unfold step at h
  split at h
  · cases h
  · cases e with
    | push =>
      simp only [callStep, Option.ite_none_right_eq_some, Option.some.injEq] at h
      obtain ⟨_, rfl⟩ := h
      exact (List.append_nil _).symm
    | stop =>
      simp only [callStep, Option.ite_none_right_eq_some, Option.some.injEq] at h
      obtain ⟨_, rfl⟩ := h
      exact (List.append_nil _).symm
    | gui => exact guiStep_released h
    | thread i fails => exact threadStep_released h
    | spurious i =>
      simp only [Option.ite_none_right_eq_some, Option.some.injEq] at h
      obtain ⟨_, rfl⟩ := h
      exact (List.append_nil _).symm
    | produce packet =>
      cases h
      cases packet with
      | none => exact (List.append_nil _).symm
      | some packet =>
        rw [State.releases]
        show (s.packets.push _).released = _
        unfold History.push
        split
        · next hwork => rw [push_of_work hwork]
        · next hidle => rw [push_of_idle (not_not.mp hidle)]

end MiniSurveillance.SenderQueue
