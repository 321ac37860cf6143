import MiniSurveillance.SenderSteps

/-!
# The timestamps of the packets

`RTMPPacketCallBack` stamps a packet with the time since `push_start_time` before it pushes it,
and the push thread sets `push_start_time` before it opens the queue. A producer that has read an
older time or start when the queue opens gets its packet into the queue all the same.

Here each read and write of the shared fields is a step of its own, between the critical
sections of the queue.

* `Inv.step`: what holds between the opening of the queue and the end of the loop.
* `ordered_of_upToDate`: the packets of a channel are sent in the order of their timestamps.
-/

namespace MiniSurveillance.SenderStamps
open Threads SafeQueue SenderQueue Runs

/-- The RTMP channels: 10 for the camera, 0x11 for audio. -/
inductive Channel
  | video
  | audio
deriving DecidableEq, Repr

structure Stamped where
  channel : Channel
  stamp : UInt32
deriving DecidableEq, Repr

/-- What a producer has read for `RTMP_GetTime() - push_start_time`, in either order. -/
structure Reads where
  time : Option UInt32 := none
  start : Option UInt32 := none
deriving DecidableEq, Repr

/-- A packet that was sent, with its session and the time that had elapsed of it. -/
structure Sent where
  session : Nat
  packet : Stamped
  elapsed : UInt32
deriving DecidableEq, Repr

/-- The sender with its clock. `push_start_time` is not initialized. -/
structure State where
  sender : SenderQueue.State := {}
  pushStartTime : UInt32
  clock : UInt32
  /-- What the push thread has read for `push_start_time` and not yet written. -/
  startRead : Option UInt32 := none
  reads : Channel → Reads := fun _ => {}
  /-- The packets in the order of their pushes; the sender's packets are indices here. -/
  made : List Stamped := []
  log : List Sent := []

/-- Time goes by, a producer reads the time or the start and pushes its packet, a push thread
reads the time it is going to write, or the sender takes a step. -/
inductive Event
  | tick (now : UInt32)
  | readTime (channel : Channel)
  | readStart (channel : Channel)
  | push (channel : Channel)
  | readPushTime (i : Nat)
  | sender (e : SenderQueue.Event)

def setReads (s : State) (channel : Channel) (reads : Reads) : State :=
  { s with reads := fun other => if other = channel then reads else s.reads other }

/-- `packets.push` of a packet with its timestamp. -/
def pushStamped (s : State) (channel : Channel) : Option State :=
  match (s.reads channel).time, (s.reads channel).start with
  | some time, some start =>
    (SenderQueue.step s.sender (.produce (some s.made.length))).map fun sender =>
      { setReads s channel {} with sender, made := s.made ++ [⟨channel, time - start⟩] }
  | _, _ => none

/-- The entry of a packet that is sent. -/
def entry (s : State) (i : Nat) (packet : Queued) : List Sent :=
  s.made[packet.packet]?.toList.map fun stamped =>
    ⟨i + 1, stamped, s.clock - s.pushStartTime⟩

/-- A step of the sender: a push thread that connects writes `push_start_time`, and one that
sends a packet is recorded. -/
def senderStep (s : State) (e : SenderQueue.Event) : Option State :=
  match e with
  | .produce _ => none
  | .thread i fails =>
    match s.sender.threads[i]?, s.startRead with
    | some .connect, none =>
      if fails then (SenderQueue.step s.sender e).map fun sender => { s with sender } else none
    | some .connect, some time =>
      if fails then none
      else (SenderQueue.step s.sender e).map fun sender =>
        { s with sender, pushStartTime := time, startRead := none }
    | some (.send packet), _ => (SenderQueue.step s.sender e).map fun sender =>
        { s with sender, log := s.log ++ entry s i packet }
    | _, _ => (SenderQueue.step s.sender e).map fun sender => { s with sender }
  | e => (SenderQueue.step s.sender e).map fun sender => { s with sender }

def step (s : State) : Event → Option State
  | .tick now => if s.clock ≤ now then some { s with clock := now } else none
  | .readTime channel =>
    if (s.reads channel).time = none then
      some (setReads s channel { s.reads channel with time := some s.clock })
    else none
  | .readStart channel =>
    if (s.reads channel).start = none then
      some (setReads s channel { s.reads channel with start := some s.pushStartTime })
    else none
  | .push channel => pushStamped s channel
  | .readPushTime i =>
    if s.sender.threads[i]? = some .connect ∧ s.startRead = none then
      some { s with startRead := some s.clock }
    else none
  | .sender e => senderStep s e

/-- The packets of a session and a channel are sent in the order of their timestamps, and no
timestamp is later than the session. -/
structure Ordered (s : State) : Prop where
  sorted : s.log.Pairwise fun a b => a.session = b.session →
    a.packet.channel = b.packet.channel → a.packet.stamp ≤ b.packet.stamp
  elapsed : ∀ a ∈ s.log, a.packet.stamp ≤ a.elapsed

/-- What was read belongs to a `push_start_time`. -/
def Reads.UpToDate (reads : Reads) (pushStartTime : UInt32) : Prop :=
  (∀ time ∈ reads.time, pushStartTime ≤ time) ∧ ∀ start ∈ reads.start, start = pushStartTime

instance (reads : Reads) (pushStartTime : UInt32) : Decidable (reads.UpToDate pushStartTime) :=
  @instDecidableAnd _ _ (Option.decidableForallMem reads.time)
    (Option.decidableForallMem reads.start)

/-- What the producers have read belongs to the present `push_start_time`. -/
def UpToDate (s : State) : Prop := ∀ channel, (s.reads channel).UpToDate s.pushStartTime

instance (s : State) : Decidable (UpToDate s) :=
  decidable_of_iff ((s.reads .video).UpToDate s.pushStartTime ∧
    (s.reads .audio).UpToDate s.pushStartTime)
    ⟨fun h channel => match channel with | .video => h.1 | .audio => h.2,
      fun h => ⟨h .video, h .audio⟩⟩

/-- The push thread whose step an event is. -/
def Event.thread : Event → Option Nat
  | .sender (.thread i _) => some i
  | _ => none

/-- Where a step opens the queue, no producer has read anything older. -/
def OpensUpToDate (s : State) (e : Event) : Prop :=
  ∀ i ∈ e.thread, s.sender.threads[i]? = some .setWork → UpToDate s

instance (s : State) (e : Event) : Decidable (OpensUpToDate s e) :=
  inferInstanceAs (Decidable (∀ i ∈ e.thread, _))

/-! ## The invariant -/

/-- The packets of the session in their order: those sent, and those on their way. -/
def State.flow (s : State) : List Stamped :=
  (s.log.filter fun a => a.session = s.sender.threads.length).map Sent.packet ++
    s.sender.transit.filterMap fun packet => s.made[packet.packet]?

/-- What holds while the push thread is in its loop. -/
structure Fresh (s : State) : Prop where
  start_le : s.pushStartTime ≤ s.clock
  reads : UpToDate s
  sorted : s.flow.Pairwise fun a b => a.channel = b.channel → a.stamp ≤ b.stamp
  now : ∀ a ∈ s.flow, a.stamp ≤ s.clock - s.pushStartTime
  held : ∀ a ∈ s.flow, ∀ time, (s.reads a.channel).time = some time →
    a.stamp ≤ time - s.pushStartTime

structure Inv (s : State) : Prop where
  sender : SenderQueue.Inv s.sender
  time_le : ∀ channel time, (s.reads channel).time = some time → time ≤ s.clock
  startRead_le : ∀ time, s.startRead = some time → time ≤ s.clock
  started : s.sender.current = .setWork → s.pushStartTime ≤ s.clock
  made : ∀ packet ∈ s.sender.transit, packet.packet < s.made.length
  unsent : s.sender.current.Starting → ∀ a ∈ s.log, a.session ≠ s.sender.threads.length
  sessions : ∀ a ∈ s.log, a.session ≤ s.sender.threads.length
  fresh : s.sender.current.Live → Fresh s
  ordered : Ordered s

theorem inv_init (pushStartTime clock : UInt32) : Inv { pushStartTime, clock } where
  sender := SenderQueue.inv_init
  time_le _ _ h := nomatch h
  startRead_le _ h := nomatch h
  started h := nomatch h
  made _ h := nomatch h
  unsent h := h.elim
  sessions _ h := nomatch h
  fresh h := h.elim
  ordered := ⟨.nil, fun _ h => nomatch h⟩

theorem sub_le_sub_right {start a b : UInt32} (ha : start ≤ a) (hab : a ≤ b) :
    a - start ≤ b - start := by
  rw [UInt32.le_iff_toNat_le] at *
  rw [UInt32.toNat_sub_of_le _ _ (UInt32.le_iff_toNat_le.mpr ha),
    UInt32.toNat_sub_of_le _ _ (UInt32.le_iff_toNat_le.mpr (Nat.le_trans ha hab))]
  exact Nat.sub_le_sub_right hab _

variable {s t : State}

/-- Time goes by and packets are dropped. -/
theorem Fresh.of_sublist (h : Fresh s) (hflow : t.flow.Sublist s.flow)
    (hstart : t.pushStartTime = s.pushStartTime) (hclock : s.clock ≤ t.clock)
    (hreads : t.reads = s.reads) : Fresh t where
  start_le := hstart ▸ UInt32.le_trans h.start_le hclock
  reads := by
    rw [UpToDate, hstart, hreads]
    exact h.reads
  sorted := h.sorted.sublist hflow
  now a ha := by
    rw [hstart]
    exact UInt32.le_trans (h.now a (hflow.subset ha)) (sub_le_sub_right h.start_le hclock)
  held a ha := by
    rw [hstart, hreads]
    exact h.held a (hflow.subset ha)

/-! ## The producers -/

theorem Inv.tick {now : UInt32} (hs : Inv s) (hnow : s.clock ≤ now) :
    Inv { s with clock := now } where
  sender := hs.sender
  time_le channel time h := UInt32.le_trans (hs.time_le channel time h) hnow
  startRead_le time h := UInt32.le_trans (hs.startRead_le time h) hnow
  started h := UInt32.le_trans (hs.started h) hnow
  made := hs.made
  unsent := hs.unsent
  sessions := hs.sessions
  fresh h := (hs.fresh h).of_sublist (.refl _) rfl hnow rfl
  ordered := ⟨hs.ordered.sorted, hs.ordered.elapsed⟩

/-- A producer reads something that is up to date. -/
theorem Inv.setReads {channel : Channel} {reads : Reads} (hs : Inv s)
    (htime : ∀ time, reads.time = some time → time ≤ s.clock)
    (hfresh : Fresh s → (∀ time, reads.time = some time → s.pushStartTime ≤ time) ∧
      (∀ start, reads.start = some start → start = s.pushStartTime) ∧
      ∀ a ∈ s.flow, a.channel = channel → ∀ time, reads.time = some time →
        a.stamp ≤ time - s.pushStartTime) :
    Inv (setReads s channel reads) where
  sender := hs.sender
  time_le other time h := by
    simp only [SenderStamps.setReads] at h
    split at h
    · exact htime time h
    · exact hs.time_le other time h
  startRead_le := hs.startRead_le
  started := hs.started
  made := hs.made
  unsent := hs.unsent
  sessions := hs.sessions
  fresh hlive := by
    have h := hs.fresh hlive
    obtain ⟨hstart, hsame, hheld⟩ := hfresh h
    refine ⟨h.start_le, fun other => ?_, h.sorted, h.now, fun a ha time hread => ?_⟩
    · simp only [SenderStamps.setReads]
      split
      · exact ⟨hstart, hsame⟩
      · exact h.reads other
    · simp only [SenderStamps.setReads] at hread
      split at hread
      · next hchannel => exact hheld a ha hchannel time hread
      · exact h.held a ha time hread
  ordered := ⟨hs.ordered.sorted, hs.ordered.elapsed⟩

theorem Inv.readTime (hs : Inv s) (channel : Channel) :
    Inv (SenderStamps.setReads s channel { s.reads channel with time := some s.clock }) := by
  refine hs.setReads (fun time h => ?_) fun h => ⟨fun time ht => ?_, ?_, fun a ha _ time ht => ?_⟩
  · obtain rfl := Option.some.inj h
    exact UInt32.le_refl _
  · obtain rfl := Option.some.inj ht
    exact h.start_le
  · exact (h.reads channel).2
  · obtain rfl := Option.some.inj ht
    exact h.now a ha

theorem Inv.readStart (hs : Inv s) (channel : Channel) :
    Inv (SenderStamps.setReads s channel
      { s.reads channel with start := some s.pushStartTime }) := by
  refine hs.setReads (hs.time_le channel) fun h => ⟨(h.reads channel).1, fun start hstart => ?_,
    fun a ha hchannel => ?_⟩
  · exact (Option.some.inj hstart).symm
  · subst hchannel
    exact h.held a ha

/-- The packets that were made before are the same behind another one. -/
theorem filterMap_made {made : List Stamped} {transit : List Queued}
    (h : ∀ packet ∈ transit, packet.packet < made.length) (more : List Stamped) :
    transit.filterMap (fun packet => (made ++ more)[packet.packet]?) =
      transit.filterMap fun packet => made[packet.packet]? :=
  List.filterMap_congr fun packet hpacket => List.getElem?_append_left (h packet hpacket)

/-- A producer that has pushed its packet has read no time. -/
theorem time_setReads {channel other : Channel} {time : UInt32}
    (h : ((SenderStamps.setReads s channel {}).reads other).time = some time) :
    other ≠ channel ∧ (s.reads other).time = some time := by
  simp only [SenderStamps.setReads] at h
  split at h
  · cases h
  · next hne => exact ⟨hne, h⟩

/-- Behind the packets of the session comes the new one, if the queue takes it. -/
theorem flow_push {sender : SenderQueue.State} {packet : Stamped} {reads : Channel → Reads}
    (hs : Inv s) (hlength : sender.threads.length = s.sender.threads.length)
    (htransit : sender.transit = s.sender.transit ++
      if s.sender.packets.queue.workFlag ≠ 0 then [⟨s.sender.threads.length, s.made.length⟩]
      else []) :
    State.flow { s with sender, reads, made := s.made ++ [packet] } = s.flow ∨
      State.flow { s with sender, reads, made := s.made ++ [packet] } = s.flow ++ [packet] := by
  simp only [State.flow, hlength, htransit, List.filterMap_append, filterMap_made hs.made]
  split
  · exact .inr (by simp)
  · exact .inl (by simp)

/-- A packet with the time that its producer has read comes last. -/
theorem Fresh.push {channel : Channel} {time : UInt32} (h : Fresh s)
    (htime : (s.reads channel).time = some time) (hle : time ≤ s.clock)
    (hstart : t.pushStartTime = s.pushStartTime) (hclock : t.clock = s.clock)
    (hreads : t.reads = (SenderStamps.setReads s channel {}).reads)
    (hflow : t.flow = s.flow ∨ t.flow = s.flow ++ [⟨channel, time - s.pushStartTime⟩]) :
    Fresh t := by
  have hmem : ∀ a ∈ t.flow, a ∈ s.flow ∨ a = ⟨channel, time - s.pushStartTime⟩ := by
    intro a ha
    rcases hflow with hflow | hflow
    · exact .inl (hflow ▸ ha)
    · rw [hflow] at ha
      exact (List.mem_append.mp ha).imp_right List.mem_singleton.mp
  refine ⟨by rw [hstart, hclock]; exact h.start_le, fun other => ?_, ?_, fun a ha => ?_,
    fun a ha time' hread => ?_⟩
  · rw [hreads, hstart]
    simp only [SenderStamps.setReads]
    split
    · exact ⟨nofun, nofun⟩
    · exact h.reads other
  · rcases hflow with hflow | hflow
    · exact hflow ▸ h.sorted
    · rw [hflow]
      refine List.pairwise_append.mpr
        ⟨h.sorted, List.pairwise_singleton _ _, fun a ha b hb hchannel => ?_⟩
      obtain rfl := List.mem_singleton.mp hb
      exact h.held a ha time (hchannel ▸ htime)
  · rw [hstart, hclock]
    rcases hmem a ha with ha | rfl
    · exact h.now a ha
    · exact sub_le_sub_right ((h.reads channel).1 time htime) hle
  · rw [hreads] at hread
    obtain ⟨hne, hread⟩ := time_setReads hread
    rw [hstart]
    rcases hmem a ha with ha | rfl
    · exact h.held a ha time' hread
    · exact absurd rfl hne

/-- A packet gets its timestamp and is pushed. -/
theorem Inv.pushStamped {channel : Channel} (hs : Inv s) (h : pushStamped s channel = some t) :
    Inv t := by
  unfold SenderStamps.pushStamped at h
  split at h
  · next time start htime hstart =>
    obtain ⟨sender, hstep, rfl⟩ := Option.map_eq_some_iff.mp h
    have hsender := hs.sender.step hstep
    obtain rfl : sender = rtmpPacketCallBack s.sender (some s.made.length) := by
      simp only [SenderQueue.step] at hstep
      split at hstep
      · cases hstep
      · exact (Option.some.inj hstep).symm
    obtain ⟨hlength, hcurrent, htransit⟩ := produce_transit hs.sender s.made.length
    generalize rtmpPacketCallBack s.sender (some s.made.length) = sender at *
    refine ⟨hsender, fun other time' hread => hs.time_le other time' (time_setReads hread).2,
      hs.startRead_le, fun hnow => ?_, fun packet hpacket => ?_, fun hnow => ?_, ?_,
      fun hlive => ?_, ⟨hs.ordered.sorted, hs.ordered.elapsed⟩⟩
    · rcases hcurrent with hsame | ⟨_, hafter⟩
      · exact hs.started (hsame ▸ hnow)
      · rw [hafter] at hnow
        cases hnow
    · rw [List.length_append, List.length_singleton]
      rw [htransit] at hpacket
      rcases List.mem_append.mp hpacket with hpacket | hpacket
      · exact Nat.lt_succ_of_lt (hs.made packet hpacket)
      · split at hpacket
        · rw [List.mem_singleton.mp hpacket]
          exact Nat.lt_succ_self _
        · cases hpacket
    · rw [hlength]
      rcases hcurrent with hsame | ⟨_, hafter⟩
      · exact hs.unsent (hsame ▸ hnow)
      · rw [hafter] at hnow
        exact hnow.elim
    · rw [hlength]
      exact hs.sessions
    · have hbefore : s.sender.current.Live := by
        rcases hcurrent with hsame | ⟨hwait, _⟩
        · exact hsame ▸ hlive
        · exact hwait ▸ trivial
      have hfresh := hs.fresh hbefore
      obtain rfl := (hfresh.reads channel).2 start hstart
      exact hfresh.push htime (hs.time_le channel time htime) rfl rfl rfl
        (flow_push (s := s) hs hlength htransit)
  · cases h

/-! ## The push thread -/

theorem Inv.readPushTime (hs : Inv s) : Inv { s with startRead := some s.clock } where
  sender := hs.sender
  time_le := hs.time_le
  startRead_le time h := by
    obtain rfl := Option.some.inj h
    exact UInt32.le_refl _
  started := hs.started
  made := hs.made
  unsent := hs.unsent
  sessions := hs.sessions
  fresh h := (hs.fresh h).of_sublist (.refl _) rfl (UInt32.le_refl _) rfl
  ordered := ⟨hs.ordered.sorted, hs.ordered.elapsed⟩

/-- The sender moves on, and maybe drops packets. -/
theorem Inv.quiet {sender : SenderQueue.State} (hs : Inv s) (hsender : SenderQueue.Inv sender)
    (hquiet : Quiet s.sender sender) : Inv { s with sender } where
  sender := hsender
  time_le := hs.time_le
  startRead_le := hs.startRead_le
  started hnow := hs.started (hquiet.starting (hnow ▸ trivial) ▸ hnow)
  made packet hpacket := hs.made packet (hquiet.transit.subset hpacket)
  unsent hnow := by
    show ∀ a ∈ s.log, a.session ≠ sender.threads.length
    rw [hquiet.length]
    exact hs.unsent (hquiet.starting hnow ▸ hnow)
  sessions := by
    show ∀ a ∈ s.log, a.session ≤ sender.threads.length
    rw [hquiet.length]
    exact hs.sessions
  fresh hnow := by
    refine (hs.fresh (hquiet.live hnow)).of_sublist ?_ rfl (UInt32.le_refl _) rfl
    simp only [State.flow, hquiet.length]
    exact (hquiet.transit.filterMap _).append_left _
  ordered := ⟨hs.ordered.sorted, hs.ordered.elapsed⟩

/-- A push thread is started, for a session of which nothing was sent. -/
theorem Inv.spawn {sender : SenderQueue.State} (hs : Inv s) (hsender : SenderQueue.Inv sender)
    (hthreads : sender.threads = s.sender.threads ++ [.connect]) : Inv { s with sender } := by
  have hcurrent : sender.current = .connect := by
    rw [State.current, hthreads, List.getLast?_concat]
    rfl
  have hlength : sender.threads.length = s.sender.threads.length + 1 := by
    rw [hthreads, List.length_append, List.length_singleton]
  have hidle := (hsender.thread s.sender.threads.length .connect (by simp [hthreads])).2
  have htransit : sender.transit = [] := by
    rw [State.transit, hcurrent, hidle]
    rfl
  refine ⟨hsender, hs.time_le, hs.startRead_le, fun hnow => ?_, ?_, fun _ a ha => ?_,
    fun a ha => ?_, fun hnow => ?_, ⟨hs.ordered.sorted, hs.ordered.elapsed⟩⟩
  · rw [hcurrent] at hnow
    cases hnow
  · rw [htransit]
    exact List.forall_mem_nil _
  · have hle := hs.sessions a ha
    show a.session ≠ sender.threads.length
    omega
  · have hle := hs.sessions a ha
    show a.session ≤ sender.threads.length
    omega
  · rw [hcurrent] at hnow
    exact hnow.elim

/-- A push thread writes `push_start_time` before its queue is open. -/
theorem Inv.connect {sender : SenderQueue.State} {i : Nat} {time : UInt32} (hs : Inv s)
    (hsender : SenderQueue.Inv sender) (hi : s.sender.threads[i]? = some .connect)
    (hthreads : sender.threads = s.sender.threads.set i .setWork)
    (hpackets : sender.packets = s.sender.packets) (htime : time ≤ s.clock) :
    Inv { s with sender, pushStartTime := time, startRead := none } := by
  have hbefore := hs.sender.current hi (by decide)
  have hcurrent := current_set (hs.sender.last hi (by decide)) hthreads
  have hlength : sender.threads.length = s.sender.threads.length := by
    rw [hthreads, List.length_set]
  have htransit : sender.transit = s.sender.transit := by
    rw [State.transit, State.transit, hcurrent, hbefore, hpackets]
    rfl
  refine ⟨hsender, hs.time_le, by simp, fun _ => htime, ?_, fun _ => ?_, ?_, fun hnow => ?_,
    ⟨hs.ordered.sorted, hs.ordered.elapsed⟩⟩
  · rw [htransit]
    exact hs.made
  · show ∀ a ∈ s.log, a.session ≠ sender.threads.length
    rw [hlength]
    exact hs.unsent (hbefore ▸ trivial)
  · show ∀ a ∈ s.log, a.session ≤ sender.threads.length
    rw [hlength]
    exact hs.sessions
  · rw [hcurrent] at hnow
    exact hnow.elim

/-- The queue is opened while the producers are up to date. -/
theorem Inv.setWork {sender : SenderQueue.State} {i : Nat} (hs : Inv s)
    (hsender : SenderQueue.Inv sender) (hi : s.sender.threads[i]? = some .setWork)
    (hthreads : sender.threads = s.sender.threads.set i .test)
    (hque : sender.packets.queue.que = []) (hreads : UpToDate s) : Inv { s with sender } := by
  have hbefore := hs.sender.current hi (by decide)
  have hcurrent := current_set (hs.sender.last hi (by decide)) hthreads
  have hlength : sender.threads.length = s.sender.threads.length := by
    rw [hthreads, List.length_set]
  have htransit : sender.transit = [] := by
    rw [State.transit, hcurrent, hque]
    rfl
  have hunsent := hs.unsent (hbefore ▸ trivial)
  have hflow : State.flow { s with sender } = [] := by
    simp only [State.flow, htransit, hlength, List.filterMap_nil, List.append_nil,
      List.map_eq_nil_iff, List.filter_eq_nil_iff, decide_eq_true_eq]
    exact hunsent
  refine ⟨hsender, hs.time_le, hs.startRead_le, fun hnow => ?_, ?_, fun hnow => ?_, ?_, fun _ => ?_,
    ⟨hs.ordered.sorted, hs.ordered.elapsed⟩⟩
  · rw [hcurrent] at hnow
    cases hnow
  · rw [htransit]
    exact List.forall_mem_nil _
  · rw [hcurrent] at hnow
    exact hnow.elim
  · show ∀ a ∈ s.log, a.session ≤ sender.threads.length
    rw [hlength]
    exact hs.sessions
  · refine ⟨hs.started hbefore, hreads, ?_, ?_, ?_⟩
    · rw [hflow]
      exact .nil
    · rw [hflow]
      exact List.forall_mem_nil _
    · rw [hflow]
      exact List.forall_mem_nil _

/-- The first packet on its way is sent. -/
theorem Inv.send {sender : SenderQueue.State} {i : Nat} {fails : Bool} {packet : Queued}
    (hs : Inv s) (hsender : SenderQueue.Inv sender)
    (hi : s.sender.threads[i]? = some (.send packet))
    (hthreads : sender.threads = s.sender.threads.set i (if fails then .close else .test))
    (hpackets : sender.packets = s.sender.packets) :
    Inv { s with sender, log := s.log ++ entry s i packet } := by
  have hlast := hs.sender.last hi nofun
  have hbefore := hs.sender.current hi nofun
  have hcurrent := current_set hlast hthreads
  have hlength : sender.threads.length = s.sender.threads.length := by
    rw [hthreads, List.length_set]
  have htransit : s.sender.transit = packet :: sender.transit := by
    rw [State.transit, State.transit, hbefore, hcurrent, hpackets]
    cases fails with
    | true => rfl
    | false => rfl
  obtain ⟨stamped, hstamped⟩ : ∃ stamped, s.made[packet.packet]? = some stamped :=
    ⟨_, List.getElem?_eq_getElem (hs.made packet (by simp [htransit]))⟩
  have hentry : entry s i packet = [⟨i + 1, stamped, s.clock - s.pushStartTime⟩] := by
    rw [entry, hstamped]
    rfl
  have hfresh := hs.fresh (hbefore ▸ trivial)
  have hbehind : s.flow = (s.log.filter fun a => a.session = s.sender.threads.length).map
      Sent.packet ++ stamped :: sender.transit.filterMap fun p => s.made[p.packet]? := by
    rw [State.flow, htransit, List.filterMap_cons, hstamped]
  have hflow : State.flow { s with sender, log := s.log ++ entry s i packet } = s.flow := by
    rw [hbehind]
    simp [State.flow, hentry, hlength, hlast]
  have hsorted := (List.pairwise_append.mp (hbehind ▸ hfresh.sorted)).2.2
  refine ⟨hsender, hs.time_le, hs.startRead_le, fun hnow => ?_, fun p hp => ?_, fun hnow => ?_,
    fun a ha => ?_, fun _ => ?_, ⟨?_, fun a ha => ?_⟩⟩
  · rw [hcurrent] at hnow
    cases fails with
    | true => cases hnow
    | false => cases hnow
  · exact hs.made p (by rw [htransit]; exact List.mem_cons_of_mem _ hp)
  · rw [hcurrent] at hnow
    cases fails with
    | true => exact hnow.elim
    | false => exact hnow.elim
  · show a.session ≤ sender.threads.length
    rw [hlength]
    rw [hentry] at ha
    rcases List.mem_append.mp ha with ha | ha
    · exact hs.sessions a ha
    · obtain rfl := List.mem_singleton.mp ha
      exact Nat.le_of_eq hlast
  · exact hfresh.of_sublist (hflow ▸ .refl _) rfl (UInt32.le_refl _) rfl
  · rw [hentry]
    refine List.pairwise_append.mpr ⟨hs.ordered.sorted, List.pairwise_singleton _ _,
      fun a ha b hb hsession hchannel => ?_⟩
    obtain rfl := List.mem_singleton.mp hb
    refine hsorted a.packet (List.mem_map_of_mem ?_) stamped List.mem_cons_self hchannel
    exact List.mem_filter.mpr ⟨ha, decide_eq_true (hsession.trans hlast)⟩
  · rw [hentry] at ha
    rcases List.mem_append.mp ha with ha | ha
    · exact hs.ordered.elapsed a ha
    · rw [List.mem_singleton.mp ha]
      exact hfresh.now stamped (by rw [hbehind]; simp)

/-! ## Runs -/

theorem threadStep_of_step {q r : SenderQueue.State} {i : Nat} {fails : Bool}
    (h : SenderQueue.step q (.thread i fails) = some r) : threadStep q i fails = some r := by
  unfold SenderQueue.step at h
  split at h
  · cases h
  · exact h

/-- A step of the sender that writes no start and sends nothing. -/
theorem Inv.sender_only {e : SenderQueue.Event} {sender : SenderQueue.State} (hs : Inv s)
    (h : SenderQueue.step s.sender e = some sender) (hproduce : ∀ packet, e ≠ .produce packet)
    (hconnect : ∀ i, e = .thread i false → s.sender.threads[i]? ≠ some .connect)
    (hopen : ∀ i fails, e = .thread i fails → s.sender.threads[i]? = some .setWork → UpToDate s)
    (hsend : ∀ i fails packet, e = .thread i fails →
      s.sender.threads[i]? ≠ some (.send packet)) : Inv { s with sender } := by
  have hsender := hs.sender.step h
  cases step_moves hs.sender h hproduce with
  | spawn e _ hthreads => exact hs.spawn hsender hthreads
  | quiet e hquiet => exact hs.quiet hsender hquiet
  | connect i hi => exact absurd hi (hconnect i rfl)
  | setWork i fails hi hthreads _ hque =>
    exact hs.setWork hsender hi hthreads hque (hopen i fails rfl hi)
  | send i fails packet hi => exact absurd hi (hsend i fails packet rfl)

theorem Inv.senderStep {e : SenderQueue.Event} (hs : Inv s) (hok : OpensUpToDate s (.sender e))
    (h : senderStep s e = some t) : Inv t := by
  unfold SenderStamps.senderStep at h
  split at h
  · cases h
  · next i fails =>
    have hopen (j : Nat) (fails' : Bool) (he : SenderQueue.Event.thread i fails = .thread j fails')
        (hj : s.sender.threads[j]? = some .setWork) : UpToDate s := by
      cases he
      exact hok i rfl hj
    split at h
    · next hi _ =>
      split at h
      · next hfails =>
        obtain ⟨sender, hstep, rfl⟩ := Option.map_eq_some_iff.mp h
        refine hs.sender_only hstep nofun ?_ hopen ?_
        · rintro j ⟨⟩
          cases hfails
        · rintro j fails' packet ⟨⟩
          simp [hi]
      · cases h
    · next time hi hread =>
      split at h
      · cases h
      · next hfails =>
        obtain ⟨sender, hstep, rfl⟩ := Option.map_eq_some_iff.mp h
        have hsender := hs.sender.step hstep
        have hthread := threadStep_of_step hstep
        simp only [threadStep, hi, if_neg hfails, Option.some.injEq] at hthread
        subst hthread
        exact hs.connect hsender hi rfl rfl (hs.startRead_le time hread)
    · next packet hi =>
      obtain ⟨sender, hstep, rfl⟩ := Option.map_eq_some_iff.mp h
      have hsender := hs.sender.step hstep
      have hthread := threadStep_of_step hstep
      simp only [threadStep, hi, Option.some.injEq] at hthread
      subst hthread
      exact hs.send hsender hi rfl rfl
    · next hsend hidle hwrite =>
      obtain ⟨sender, hstep, rfl⟩ := Option.map_eq_some_iff.mp h
      refine hs.sender_only hstep nofun ?_ hopen ?_
      · rintro j ⟨⟩ hj
        cases hread : s.startRead with
        | none => exact hidle hj hread
        | some time => exact hwrite time hj hread
      · rintro j fails' packet ⟨⟩ hj
        exact hsend packet hj
  · next hproduce hthread =>
    obtain ⟨sender, hstep, rfl⟩ := Option.map_eq_some_iff.mp h
    exact hs.sender_only hstep (fun packet he => hproduce packet he)
      (fun i he => absurd he (hthread i false)) (fun i fails he => absurd he (hthread i fails))
      (fun i fails _ he => absurd he (hthread i fails))

theorem Inv.step {e : Event} (hs : Inv s) (hok : OpensUpToDate s e) (h : step s e = some t) :
    Inv t := by
  cases e with
  | tick now =>
    simp only [SenderStamps.step, Option.ite_none_right_eq_some, Option.some.injEq] at h
    obtain ⟨hnow, rfl⟩ := h
    exact hs.tick hnow
  | readTime channel =>
    simp only [SenderStamps.step, Option.ite_none_right_eq_some, Option.some.injEq] at h
    obtain ⟨_, rfl⟩ := h
    exact hs.readTime channel
  | readStart channel =>
    simp only [SenderStamps.step, Option.ite_none_right_eq_some, Option.some.injEq] at h
    obtain ⟨_, rfl⟩ := h
    exact hs.readStart channel
  | push channel => exact hs.pushStamped h
  | readPushTime i =>
    simp only [SenderStamps.step, Option.ite_none_right_eq_some, Option.some.injEq] at h
    obtain ⟨_, rfl⟩ := h
    exact hs.readPushTime
  | sender e => exact hs.senderStep hok h

/-- In every run in which the queue is opened only while no producer has read an older time or
start, the packets of a channel are sent in the order of their timestamps, and none is later
than its session. -/
theorem ordered_of_upToDate {pushStartTime clock : UInt32} {s : State}
    (h : Reach step OpensUpToDate { pushStartTime, clock } s) : Ordered s :=
  (h.invariant (inv_init pushStartTime clock) fun _ _ _ hs hok hstep => hs.step hok hstep).ordered

/-- `push`, up to the start of its thread. -/
def pushed : List Event := [.sender .push, .sender .gui, .sender .gui, .sender .gui]

/-- The thread writes its start and opens the queue. -/
def opened (now : UInt32) : List Event :=
  [.tick now, .readPushTime 0, .sender (.thread 0 false), .sender (.thread 0 false)]

/-- The thread takes a packet out of the queue and sends it. -/
def sendOne : List Event :=
  [.sender (.thread 0 false), .sender (.thread 0 false), .sender (.thread 0 false)]

/-- A picture and, 40 ms later, a block of audio are stamped behind the start. -/
def pictureAndAudio : List Event :=
  pushed ++ opened 1000 ++ [.readTime .video, .readStart .video, .push .video, .tick 1040,
    .readStart .audio, .readTime .audio, .push .audio] ++ sendOne ++ sendOne

theorem ordered_of_upToDate_pictureAndAudio :
    ∃ s, exec step { pushStartTime := 0, clock := 900 } pictureAndAudio = some s ∧
      s.log = [⟨1, ⟨.video, 0⟩, 40⟩, ⟨1, ⟨.audio, 40⟩, 40⟩] ∧ Ordered s := by
  have hrun : ∃ s, exec step { pushStartTime := 0, clock := 900 } pictureAndAudio = some s ∧
      s.log = [⟨1, ⟨.video, 0⟩, 40⟩, ⟨1, ⟨.audio, 40⟩, 40⟩] := ⟨_, rfl, rfl⟩
  obtain ⟨s, hexec, hlog⟩ := hrun
  exact ⟨s, hexec, hlog, ordered_of_upToDate (Reach.exec .start hexec (by decide))⟩

/-- A picture is stamped while the thread connects, and pushed when the queue is open. -/
theorem stale_stamp_sent :
    ¬ ∀ s, Reachable step { pushStartTime := 0, clock := 900 } s → Ordered s := by
  intro h
  have hrun : ∃ s, exec step { pushStartTime := 0, clock := 900 }
      (pushed ++ [.readTime .video, .readStart .video] ++ opened 1000 ++ [.push .video] ++
        sendOne) = some s ∧ s.log = [⟨1, ⟨.video, 900⟩, 0⟩] := ⟨_, rfl, rfl⟩
  obtain ⟨s, hexec, hlog⟩ := hrun
  have hlate := (h s (reachable_of_exec hexec)).elapsed ⟨1, ⟨.video, 900⟩, 0⟩ (by simp [hlog])
  exact absurd hlate (by decide)

end MiniSurveillance.SenderStamps
