import MiniSurveillance.SenderSteps

/-!
# The bodies of the packets

A body belongs to its packet from `RTMPPacket_Alloc`, or from the read that completes the packet,
until `RTMPPacket_Free`. The push thread frees the body of each packet it has sent; the
release handle of the queue only deletes the packet, and the pull thread zeroes its packet
before each read.

* `givenBack_iff`: bodies that are all held, freed or lost are given back if none is lost.
* `exec_bodies`: the account of the sender's bodies.
* `bodies_along_iff`: when every body is given back.
-/

namespace MiniSurveillance.PacketBodies
open Threads SafeQueue SenderQueue Runs

/-! ## Accounts -/

/-- The bodies are numbered in the order of their allocation. -/
structure Ledger where
  allocated : Nat
  /-- Those passed to `RTMPPacket_Free`. -/
  freed : List Nat
  /-- Those whose packet was deleted or overwritten. -/
  gone : List Nat
deriving DecidableEq, Repr

/-- Every body is freed at most once, and once before its packet is gone, and no more live
bodies are left than packets are held. -/
structure Ledger.GivenBack (l : Ledger) (held : Nat) : Prop where
  once : l.freed.Nodup
  before : ∀ body ∈ l.gone, body ∈ l.freed
  live : l.allocated - l.freed.length ≤ held

theorem Ledger.givenBack_iff {l : Ledger} {held lost : List Nat}
    (hall : (List.range l.allocated).Perm (held ++ l.freed ++ lost))
    (hgone : ∀ body, body ∈ l.gone ↔ body ∈ l.freed ∨ body ∈ lost) :
    l.GivenBack held.length ↔ lost = [] := by
  have hnodup := hall.nodup_iff.mp List.nodup_range
  obtain ⟨hkept, _, hapart⟩ := List.nodup_append.mp hnodup
  constructor
  · intro h
    refine List.eq_nil_iff_forall_not_mem.mpr fun body hbody => ?_
    have hfreed := h.before body ((hgone body).mpr (.inr hbody))
    exact hapart body (List.mem_append_right _ hfreed) body hbody rfl
  · rintro rfl
    refine ⟨(List.nodup_append.mp hkept).2.1, fun body hbody => ?_, ?_⟩
    · exact ((hgone body).mp hbody).elim id nofun
    · have hlength := hall.length_eq
      rw [List.length_range, List.append_nil, List.length_append] at hlength
      omega

/-! ## The sender -/

/-- The sender with the bodies of its packets: a packet has the number of its body. `making` are
those that an encoder has allocated and not yet passed to `RTMPPacketCallBack`. -/
structure State where
  sender : SenderQueue.State := {}
  allocated : Nat := 0
  making : List Nat := []

inductive Event
  | alloc
  | push (body : Nat)
  | sender (e : SenderQueue.Event)

def step (s : State) : Event → Option State
  | .alloc => some { s with allocated := s.allocated + 1, making := s.making ++ [s.allocated] }
  | .push body =>
    if body ∈ s.making then
      (SenderQueue.step s.sender (.produce (some body))).map fun sender =>
        { s with sender, making := s.making.erase body }
    else none
  | .sender (.produce _) => none
  | .sender e => (SenderQueue.step s.sender e).map fun sender => { s with sender }

/-- The push thread frees and deletes each packet behind `RTMP_SendPacket`; the release handle
deletes. -/
def State.ledger (s : State) : Ledger where
  allocated := s.allocated
  freed := s.sender.sent.map fun e => e.2.packet
  gone := (s.sender.sent.map fun e => e.2.packet) ++ s.sender.packets.released.map Queued.packet

/-- The bodies of the packets in the hands of the encoders and of the push thread, and of those
queued. -/
def State.held (s : State) : List Nat := s.making ++ s.sender.transit.map Queued.packet

/-- A step releases no packet: the queue works where a packet is pushed, and is empty where it
is cleared. -/
def ReleasesNone (s : State) : Event → Prop
  | .push _ => s.sender.packets.queue.workFlag ≠ 0
  | .sender .gui => s.sender.gui = .stopQueue → s.sender.packets.queue.que = []
  | .sender (.thread i _) =>
    s.sender.threads[i]? = some .clear → s.sender.packets.queue.que = []
  | _ => True

structure Inv (s : State) : Prop where
  sender : SenderQueue.Inv s.sender
  /-- What was popped was sent, but for the packet in hand. -/
  popped : s.sender.packets.popped = s.sender.sent.map Prod.snd ++ s.sender.current.hand
  allocated : (List.range s.allocated).Perm
    (s.making ++ s.sender.packets.pushed.map Queued.packet)

theorem inv_init : Inv {} := ⟨SenderQueue.inv_init, rfl, .refl _⟩

variable {s t : State}

theorem Inv.alloc (hs : Inv s) :
    Inv { s with allocated := s.allocated + 1, making := s.making ++ [s.allocated] } where
  sender := hs.sender
  popped := hs.popped
  allocated := by
    rw [List.range_succ, List.append_assoc]
    refine (hs.allocated.append_right _).trans ?_
    rw [List.append_assoc]
    exact .append_left _ List.perm_append_comm

theorem Inv.push {body : Nat} {sender : SenderQueue.State} (hs : Inv s) (hbody : body ∈ s.making)
    (h : SenderQueue.step s.sender (.produce (some body)) = some sender) :
    Inv { s with sender, making := s.making.erase body } := by
  have hsender := hs.sender.step h
  obtain rfl : sender = rtmpPacketCallBack s.sender (some body) := by
    simp only [SenderQueue.step] at h
    split at h
    · cases h
    · exact (Option.some.inj h).symm
  obtain ⟨_, hcurrent, _⟩ := produce_transit hs.sender body
  have hhand : (rtmpPacketCallBack s.sender (some body)).current.hand = s.sender.current.hand := by
    rcases hcurrent with hsame | ⟨hbefore, hafter⟩
    · rw [hsame]
    · rw [hbefore, hafter]
      rfl
  refine ⟨hsender, hhand ▸ hs.popped, ?_⟩
  show (List.range s.allocated).Perm (s.making.erase body ++
    (s.sender.packets.pushed ++ [(⟨s.sender.threads.length, body⟩ : Queued)]).map Queued.packet)
  refine hs.allocated.trans (((List.perm_cons_erase hbody).append_right _).trans ?_)
  rw [List.map_append, ← List.append_assoc]
  exact (List.perm_append_singleton body _).symm

theorem Inv.senderStep {e : SenderQueue.Event} {sender : SenderQueue.State} (hs : Inv s)
    (h : SenderQueue.step s.sender e = some sender) (hproduce : ∀ packet, e ≠ .produce packet) :
    Inv { s with sender } := by
  have hsender := hs.sender.step h
  cases step_moves hs.sender h hproduce with
  | spawn e hdone hthreads hpackets hsent =>
    have hcurrent : sender.current = .connect := by
      rw [SenderQueue.State.current, hthreads, List.getLast?_concat]
      rfl
    have hpopped := hs.popped
    rw [hdone] at hpopped
    refine ⟨hsender, ?_, hpackets ▸ hs.allocated⟩
    rw [hcurrent, hpackets, hsent]
    exact hpopped
  | quiet e hquiet =>
    obtain ⟨more, hpopped, hhand⟩ := hquiet.popped
    refine ⟨hsender, ?_, hquiet.pushed ▸ hs.allocated⟩
    rw [hpopped, hhand, hquiet.sent, hs.popped, List.append_assoc]
  | connect i hi hthreads hpackets hsent =>
    have hbefore := hs.sender.current hi (by decide)
    have hafter := current_set (hs.sender.last hi (by decide)) hthreads
    have hpopped := hs.popped
    rw [hbefore] at hpopped
    refine ⟨hsender, ?_, hpackets ▸ hs.allocated⟩
    rw [hafter, hpackets, hsent]
    exact hpopped
  | setWork i fails hi hthreads hpackets _ hsent =>
    have hbefore := hs.sender.current hi (by decide)
    have hafter := current_set (hs.sender.last hi (by decide)) hthreads
    have hpopped := hs.popped
    rw [hbefore] at hpopped
    refine ⟨hsender, ?_, hpackets ▸ hs.allocated⟩
    rw [hafter, hpackets, hsent]
    exact hpopped
  | send i fails packet hi hthreads hpackets hsent =>
    have hlive : Pc.send packet ≠ .done := by simp
    have hbefore := hs.sender.current hi hlive
    have hafter := current_set (hs.sender.last hi hlive) hthreads
    have hpopped := hs.popped
    rw [hbefore] at hpopped
    refine ⟨hsender, ?_, hpackets ▸ hs.allocated⟩
    rw [hafter, hpackets, hsent, List.map_append, hpopped]
    cases fails with
    | true => exact (List.append_nil _).symm
    | false => exact (List.append_nil _).symm

theorem senderStep_of_step {e : SenderQueue.Event} (h : step s (.sender e) = some t) :
    (∀ packet, e ≠ .produce packet) ∧
      ∃ sender, SenderQueue.step s.sender e = some sender ∧ { s with sender } = t := by
  cases e with
  | produce packet => cases h
  | push => exact ⟨nofun, Option.map_eq_some_iff.mp h⟩
  | stop => exact ⟨nofun, Option.map_eq_some_iff.mp h⟩
  | gui => exact ⟨nofun, Option.map_eq_some_iff.mp h⟩
  | thread i fails => exact ⟨nofun, Option.map_eq_some_iff.mp h⟩
  | spurious i => exact ⟨nofun, Option.map_eq_some_iff.mp h⟩

theorem Inv.step {e : Event} (hs : Inv s) (h : step s e = some t) : Inv t := by
  cases e with
  | alloc =>
    obtain rfl := Option.some.inj h
    exact hs.alloc
  | push body =>
    simp only [PacketBodies.step, Option.ite_none_right_eq_some, Option.map_eq_some_iff] at h
    obtain ⟨hbody, sender, hstep, rfl⟩ := h
    exact hs.push hbody hstep
  | sender e =>
    obtain ⟨hproduce, sender, hstep, rfl⟩ := senderStep_of_step h
    exact hs.senderStep hstep hproduce

/-- Every body is in some hand, queued, freed or lost with its packet. -/
theorem Inv.account (hs : Inv s) : (List.range s.allocated).Perm
    (s.held ++ s.ledger.freed ++ s.sender.packets.released.map Queued.packet) := by
  have hpushed := hs.sender.accounts.pushed
  rw [hs.popped] at hpushed
  -- the packet in hand comes to the front of those queued
  have hfront : (s.sender.packets.queue.que ++ (s.sender.sent.map Prod.snd ++
      s.sender.current.hand) ++ s.sender.packets.released).Perm
      (s.sender.transit ++ s.sender.sent.map Prod.snd ++ s.sender.packets.released) := by
    rw [← List.append_assoc, SenderQueue.State.transit, List.append_assoc s.sender.current.hand]
    exact List.perm_append_comm.append_right _
  refine hs.allocated.trans ((((hpushed.trans hfront).map Queued.packet).append_left _).trans ?_)
  simp only [State.held, State.ledger, List.map_append, List.map_map, List.append_assoc]
  exact .refl _

/-- The account of a run's bodies. -/
theorem exec_bodies {es : List Event} (hrun : exec step {} es = some s) : Inv s :=
  exec_invariant (I := fun _ s => Inv s) inv_init (fun _ _ _ _ hs h => hs.step h) hrun

theorem Inv.givenBack_iff (hs : Inv s) :
    s.ledger.GivenBack s.held.length ↔ s.sender.packets.released = [] := by
  have hgone (body : Nat) : body ∈ s.ledger.gone ↔ body ∈ s.ledger.freed ∨
      body ∈ s.sender.packets.released.map Queued.packet := List.mem_append
  rw [Ledger.givenBack_iff hs.account hgone, List.map_eq_nil_iff]

theorem step_released_iff {e : Event} (hs : s.sender.packets.released = [])
    (h : step s e = some t) : t.sender.packets.released = [] ↔ ReleasesNone s e := by
  have hreleases {e : SenderQueue.Event} {sender : SenderQueue.State}
      (hstep : SenderQueue.step s.sender e = some sender) :
      sender.packets.released = [] ↔ s.sender.releases e = [] := by
    rw [step_released hstep, hs, List.nil_append]
  cases e with
  | alloc =>
    obtain rfl := Option.some.inj h
    exact iff_of_true hs trivial
  | push body =>
    simp only [step, Option.ite_none_right_eq_some, Option.map_eq_some_iff] at h
    obtain ⟨_, sender, hstep, rfl⟩ := h
    rw [hreleases hstep, SenderQueue.State.releases, ReleasesNone]
    split
    · next hwork => exact iff_of_true rfl hwork
    · next hidle => exact iff_of_false (List.cons_ne_nil _ _) hidle
  | sender e =>
    obtain ⟨hproduce, sender, hstep, rfl⟩ := senderStep_of_step h
    rw [hreleases hstep]
    cases e with
    | produce packet => exact absurd rfl (hproduce packet)
    | push => exact iff_of_true rfl trivial
    | stop => exact iff_of_true rfl trivial
    | spurious i => exact iff_of_true rfl trivial
    | gui =>
      rw [SenderQueue.State.releases, ite_eq_right_iff]
      exact Iff.rfl
    | thread i fails =>
      rw [SenderQueue.State.releases, ite_eq_right_iff]
      exact Iff.rfl

/-! ## The receiver -/

/-- A read of `RTMP_ReadPacket`. A chunk that completes its packet hands its body over, if it
has one. -/
inductive ReadResult
  | nothing
  | failed
  | chunk
  | packet (hasBody : Bool)
deriving DecidableEq, Repr

/-- The pull thread: the bodies handed over so far, the one its packet has, and those whose
packet was zeroed or deleted. It frees none. -/
structure Pull where
  allocated : Nat := 0
  body : Option Nat := none
  gone : List Nat := []
deriving DecidableEq, Repr

/-- `memset(packet, 0, ..)`, and `delete packet`. -/
def Pull.drop (p : Pull) : Pull := { p with body := none, gone := p.gone ++ p.body.toList }

/-- A round of the loop in `pull`; after it the packet is handled, which frees nothing. -/
def Pull.round (p : Pull) : ReadResult → Pull
  | .packet true =>
    { p.drop with allocated := p.allocated + 1, body := some p.allocated }
  | _ => p.drop

/-- The reads of `pull`: the loop ends with the first that fails, or where `is_pulling` is off. -/
def readsOf (results : List ReadResult) : List ReadResult :=
  results.takeWhile fun r => r != .failed

/-- The loop of `pull` behind some reads. -/
def pullLoop (reads : List ReadResult) : Pull := reads.foldl Pull.round {}

/-- `pull`, where a failed read still zeroes the packet, and `unInit`. -/
def pull (results : List ReadResult) : Pull := (pullLoop (readsOf results)).drop

def Pull.ledger (p : Pull) : Ledger := ⟨p.allocated, [], p.gone⟩

/-- Before each read and behind the end of the thread no body is lost. -/
def PullGivesBack (results : List ReadResult) : Prop :=
  (∀ n, let p := pullLoop ((readsOf results).take n)
    p.ledger.GivenBack p.body.toList.length) ∧
  (pull results).ledger.GivenBack 0

theorem pullLoop_snoc (reads : List ReadResult) (r : ReadResult) :
    pullLoop (reads ++ [r]) = (pullLoop reads).round r := by
  rw [pullLoop, List.foldl_append]
  rfl

/-- The bodies that were handed over are those gone and the one in the packet. -/
theorem pullLoop_account (reads : List ReadResult) :
    List.range (pullLoop reads).allocated = (pullLoop reads).gone ++ (pullLoop reads).body.toList ∧
      ((pullLoop reads).allocated = 0 ↔ ReadResult.packet true ∉ reads) := by
  induction reads using List.reverseRecOn with
  | nil => exact ⟨rfl, iff_of_true rfl nofun⟩
  | append_singleton reads r ih =>
    obtain ⟨haccount, hnone⟩ := ih
    rw [pullLoop_snoc, List.mem_append, List.mem_singleton]
    have hother (h : (pullLoop reads).round r = (pullLoop reads).drop) (hr : .packet true ≠ r) :
        List.range ((pullLoop reads).round r).allocated =
          ((pullLoop reads).round r).gone ++ ((pullLoop reads).round r).body.toList ∧
        (((pullLoop reads).round r).allocated = 0 ↔
          ¬ (ReadResult.packet true ∈ reads ∨ .packet true = r)) := by
      rw [h]
      refine ⟨haccount.trans (List.append_nil _).symm, ?_⟩
      rw [or_iff_left hr]
      exact hnone
    cases r with
    | nothing => exact hother rfl nofun
    | failed => exact hother rfl nofun
    | chunk => exact hother rfl nofun
    | packet hasBody =>
      cases hasBody with
      | false => exact hother rfl nofun
      | true =>
        refine ⟨?_, iff_of_false (Nat.succ_ne_zero _) fun h => h (.inr rfl)⟩
        show List.range ((pullLoop reads).allocated + 1) = _
        rw [List.range_succ, haccount]
        rfl

/-- `pull` gives its bodies back exactly if it is handed none. -/
theorem pullGivesBack_iff (results : List ReadResult) :
    PullGivesBack results ↔ ReadResult.packet true ∉ readsOf results := by
  have hloop (reads : List ReadResult) :
      (pullLoop reads).ledger.GivenBack (pullLoop reads).body.toList.length ↔
        (pullLoop reads).gone = [] := by
    refine Ledger.givenBack_iff ?_ fun body => (or_iff_right nofun).symm
    show (List.range (pullLoop reads).allocated).Perm
      ((pullLoop reads).body.toList ++ [] ++ (pullLoop reads).gone)
    rw [List.append_nil, (pullLoop_account reads).1]
    exact List.perm_append_comm
  have hend : (pull results).ledger.GivenBack 0 ↔ (pull results).gone = [] := by
    refine @Ledger.givenBack_iff _ [] _ ?_ fun body => (or_iff_right nofun).symm
    exact .of_eq (pullLoop_account (readsOf results)).1
  have hgone : (pull results).gone = [] ↔ ReadResult.packet true ∉ readsOf results := by
    obtain ⟨haccount, hnone⟩ := pullLoop_account (readsOf results)
    rw [← hnone, ← List.range_eq_nil, haccount]
    rfl
  constructor
  · exact fun h => hgone.mp (hend.mp h.2)
  · refine fun h => ⟨fun n => (hloop _).mpr ?_, hend.mpr (hgone.mpr h)⟩
    obtain ⟨haccount, hnone⟩ := pullLoop_account ((readsOf results).take n)
    have hzero := hnone.mpr fun hmem => h (List.mem_of_mem_take hmem)
    rw [hzero, List.range_zero] at haccount
    exact (List.append_eq_nil_iff.mp haccount.symm).1

/-- Along a run of the sender every body is given back exactly as long as no packet is passed to
the release handle, and along one of `pull` exactly if no packet with a body is completed. -/
theorem bodies_along_iff (es : List Event) (results : List ReadResult) :
    ((∀ fs (t : State), fs <+: es → exec step {} fs = some t →
        t.ledger.GivenBack t.held.length) ↔
      AtEvents step {} es fun _ s e => ReleasesNone s e) ∧
    (PullGivesBack results ↔ ReadResult.packet true ∉ readsOf results) := by
  refine ⟨?_, pullGivesBack_iff results⟩
  refine holds_along_iff_atEvents
    (I := fun _ (t : State) => t.ledger.GivenBack t.held.length) ?_ ?_ es
  · exact inv_init.givenBack_iff.mpr rfl
  · intro fs s e t hrun hback ht
    have hs := exec_bodies hrun
    rw [(hs.step ht).givenBack_iff]
    exact step_released_iff (hs.givenBack_iff.mp hback) ht

/-- A picture is encoded before the queue is open; and a packet is pulled. -/
theorem released_packet_keeps_body :
    (¬ ∀ fs t, fs <+: [.sender .push, .sender .gui, .sender .gui, .sender .gui, .alloc, .push 0] →
      exec step {} fs = some t → t.ledger.GivenBack t.held.length) ∧
    ¬ PullGivesBack [.packet true] := by
  constructor
  · intro h
    have hback := h _ _ (List.prefix_refl _) rfl
    exact absurd (hback.before 0 (by decide)) (by decide)
  · intro h
    exact absurd (h.2.before 0 (by decide)) (by decide)

end MiniSurveillance.PacketBodies
