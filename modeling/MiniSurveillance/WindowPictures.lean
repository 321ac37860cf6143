import MiniSurveillance.Base.Posts
import MiniSurveillance.FrameProvider

/-!
# The pictures a window shows

The frame callback runs on the pull thread and emits `sendOneFrame`; `FrameProvider` lives
on the GUI thread and takes the frames there, one by one. A `QVideoFrame` is shared by its
copies, so a picture that is copied into the frame of a session is in every frame of that
session that is still under way.

* `exec_shows`: which frames are under way, and what is in them.
* `deliver_newest`: a frame that is taken shows the newest picture of its session.
* `presented_behind_stop`: what a window shows behind `stop`.
-/

namespace MiniSurveillance
open Runs Posts

/-- A provider, the frames on their way to it with what their bytes hold, and how many frames
were made. -/
structure Display (π : Type) where
  provider : FrameProvider π
  box : Box Nat (QVideoFrame × π)
  frames : Nat

namespace Display

variable {π : Type}

def init : Display π := ⟨.init, .empty, 0⟩

/-- The frame callback: a frame may be made, and one may be filled and sent. -/
def receive (made : Bool) (target : Option QVideoFrame) (picture : π) (s : Display π) : Display π :=
  let s := if made then { s with frames := s.frames + 1 } else s
  match target with
  | some frame => { s with box := s.box.post s.frames (frame, picture) }
  | none => s

/-- The GUI thread takes the next frame. -/
def deliver (kind : SurfaceKind) (s : Display π) : Option (Display π) :=
  match s.box.posted with
  | [] => none
  | i :: rest => (s.box.cells i).map fun filled =>
    { s with
      box := { s.box with posted := rest }
      provider := s.provider.onNewFrameReceived kind filled.1 filled.2 }

def flush (kind : SurfaceKind) (s : Display π) : Display π :=
  { s with provider := s.provider.flush kind }

/-- The pictures presented so far, on any surface. -/
def presented (s : Display π) : List π := s.provider.calls.filterMap fun call => call.2.picture

end Display

/-- A `VideoCtrl` with its display; a picture in a frame is known as the decoder's frame that
was copied into it last. -/
structure VideoWindow where
  out : VideoOutput
  display : Display DecodedFrame

namespace VideoWindow

variable {kind : SurfaceKind}

def init (isAutoLocalRecord : Bool) (adtsHeader : AdtsHeader) : VideoWindow :=
  ⟨VideoOutput.init isAutoLocalRecord adtsHeader, .init⟩

inductive Event
  | ctrl (e : VideoOutput.Event)
  | deliver
  | setVideoSurface (surface : Option Nat)

/-- What an event of the controller does to the display: `stop` flushes the provider when
something is playing. -/
def displayed (kind : SurfaceKind) (s : VideoWindow) : VideoOutput.Event → Display DecodedFrame
  | .frame d mapped => s.display.receive s.out.frame.isNone (s.out.copyTarget d mapped) d
  | .stop => if s.out.ctrl.isPlaying then s.display.flush kind else s.display
  | _ => s.display

def step (kind : SurfaceKind) (s : VideoWindow) : Event → Option VideoWindow
  | .ctrl e => (VideoOutput.step s.out e).map fun out => ⟨out, s.displayed kind e⟩
  | .deliver => (s.display.deliver kind).map fun display => { s with display := display }
  | .setVideoSurface surface =>
    some { s with display.provider := s.display.provider.setVideoSurface kind surface }

/-! ## What was sent -/

/-- What the events so far have sent: the first picture since the last `stop`, the number of
sessions that had a picture, each picture sent with its session and the frame it was sent
in, and how many of these were taken. -/
structure Sent where
  first : Option DecodedFrame := none
  sessions : Nat := 0
  posts : List (Nat × QVideoFrame × DecodedFrame) := []
  taken : Nat := 0

/-- The session of the next picture. -/
def Sent.session (s : Sent) : Nat := if s.first.isSome then s.sessions else s.sessions + 1

def Sent.next (s : Sent) : Event → Sent
  | .ctrl (.frame d mapped) =>
    { s with
      first := some (s.first.getD d)
      sessions := s.session
      posts := if mapped then s.posts ++ [(s.session, .ofPicture (s.first.getD d), d)]
        else s.posts }
  | .ctrl .stop => { s with first := none }
  | .deliver => { s with taken := s.taken + 1 }
  | _ => s

def sent (es : List Event) : Sent := es.foldl Sent.next {}

theorem sent_snoc (es : List Event) (e : Event) : sent (es ++ [e]) = (sent es).next e :=
  List.foldl_append ..

/-- What an event is to the controller. -/
def Event.output : Event → Option VideoOutput.Event
  | .ctrl e => some e
  | _ => none

/-- What a window has to do with the events so far. -/
structure Shows (es : List Event) (s : VideoWindow) : Prop where
  brought : VideoOutput.Brought (es.filterMap Event.output) s.out
  first : VideoOutput.firstPicture (es.filterMap Event.output) = (sent es).first
  frames : s.display.frames = (sent es).sessions
  box : Behind (sent es).posts (sent es).taken s.display.box
  exclusive : s.display.provider.Exclusive

theorem shows_init (isAutoLocalRecord : Bool) (adtsHeader : AdtsHeader) :
    Shows [] (init isAutoLocalRecord adtsHeader) where
  brought := VideoOutput.brought_init ..
  first := rfl
  frames := rfl
  box := behind_empty
  exclusive := FrameProvider.exclusive_init

variable {es : List Event} {s t : VideoWindow}

theorem output_ctrl (es : List Event) (e : VideoOutput.Event) :
    (es ++ [Event.ctrl e]).filterMap Event.output = es.filterMap Event.output ++ [e] :=
  List.filterMap_append

theorem output_none {e : Event} (es : List Event) (h : e.output = none) :
    (es ++ [e]).filterMap Event.output = es.filterMap Event.output := by
  rw [List.filterMap_append, List.filterMap_cons_none h, List.filterMap_nil, List.append_nil]

/-! ## What a step shows -/

/-- A step that makes no picture and ends no session. -/
theorem Shows.of_same {e : VideoOutput.Event} {out : VideoOutput} (h : Shows es s)
    (ho : VideoOutput.step s.out e = some out)
    (hfirst : VideoOutput.firstPicture (es.filterMap Event.output ++ [e]) =
      VideoOutput.firstPicture (es.filterMap Event.output))
    (hsent : (sent es).next (.ctrl e) = sent es) :
    Shows (es ++ [.ctrl e]) ⟨out, s.display⟩ where
  brought := by rw [output_ctrl]; exact VideoOutput.step_brought h.brought ho
  first := by rw [output_ctrl, hfirst, sent_snoc, hsent]; exact h.first
  frames := by rw [sent_snoc, hsent]; exact h.frames
  box := by rw [sent_snoc, hsent]; exact h.box
  exclusive := h.exclusive

theorem stop_shows {out : VideoOutput} (h : Shows es s)
    (ho : VideoOutput.step s.out .stop = some out) :
    Shows (es ++ [.ctrl .stop]) ⟨out, s.displayed kind .stop⟩ := by
  have hfirst := VideoOutput.firstPicture_snoc (es.filterMap Event.output) .stop
  have hbrought := VideoOutput.step_brought h.brought ho
  show Shows _ ⟨out, if s.out.ctrl.isPlaying then s.display.flush kind else s.display⟩
  split
  · exact {
      brought := by rw [output_ctrl]; exact hbrought
      first := by rw [output_ctrl, hfirst, sent_snoc]; rfl
      frames := by rw [sent_snoc]; exact h.frames
      box := by rw [sent_snoc]; exact h.box
      exclusive := h.exclusive.flush }
  · exact {
      brought := by rw [output_ctrl]; exact hbrought
      first := by rw [output_ctrl, hfirst, sent_snoc]; rfl
      frames := by rw [sent_snoc]; exact h.frames
      box := by rw [sent_snoc]; exact h.box
      exclusive := h.exclusive }

theorem frame_shows {out : VideoOutput} {d : DecodedFrame} {mapped : Bool} (h : Shows es s)
    (ho : VideoOutput.step s.out (.frame d mapped) = some out) :
    Shows (es ++ [.ctrl (.frame d mapped)]) ⟨out, s.displayed kind (.frame d mapped)⟩ := by
  have hfirst := VideoOutput.firstPicture_snoc (es.filterMap Event.output) (.frame d mapped)
  have hsession : (if s.out.frame.isNone then s.display.frames + 1 else s.display.frames) =
      (sent es).session := by
    rw [h.brought.frame, h.first, Option.isNone_map, h.frames, Sent.session]
    cases (sent es).first with
    | none => rfl
    | some first => rfl
  have htarget : s.out.copyTarget d mapped =
      if mapped then some (.ofPicture ((sent es).first.getD d)) else none := by
    rw [VideoOutput.copyTarget, VideoOutput.withFrame_frame h.brought, h.first]
  have hreceive : s.displayed kind (.frame d mapped) =
      { s.display with
        frames := (sent es).session
        box := if mapped then
            s.display.box.post (sent es).session (.ofPicture ((sent es).first.getD d), d)
          else s.display.box } := by
    show s.display.receive s.out.frame.isNone (s.out.copyTarget d mapped) d = _
    rw [htarget, ← hsession]
    unfold Display.receive
    cases s.out.frame.isNone with
    | false =>
      cases mapped with
      | false => rfl
      | true => rfl
    | true =>
      cases mapped with
      | false => rfl
      | true => rfl
  rw [hreceive]
  refine {
    brought := by rw [output_ctrl]; exact VideoOutput.step_brought h.brought ho
    first := by rw [output_ctrl, hfirst, sent_snoc, h.first]; rfl
    frames := by rw [sent_snoc]; rfl
    box := ?_
    exclusive := h.exclusive }
  rw [sent_snoc]
  cases mapped with
  | false => exact h.box
  | true => exact h.box.post _ _

theorem ctrl_shows {e : VideoOutput.Event} {out : VideoOutput} (h : Shows es s)
    (ho : VideoOutput.step s.out e = some out) :
    Shows (es ++ [.ctrl e]) ⟨out, s.displayed kind e⟩ := by
  cases e with
  | stop => exact stop_shows h ho
  | frame d mapped => exact frame_shows h ho
  | _ => exact h.of_same ho (VideoOutput.firstPicture_snoc ..) rfl

/-- A frame under way was filled, and it can be taken. -/
theorem Shows.filled (h : Shows es s) {session : Nat} {rest : List Nat}
    (hposted : s.display.box.posted = session :: rest) :
    ∃ own j filled, (sent es).posts[(sent es).taken]? = some (session, own) ∧
      (sent es).taken ≤ j ∧ (sent es).posts[j]? = some (session, filled) ∧
      s.display.box.cells session = some filled ∧
      ∀ l later, j < l → (sent es).posts[l]? ≠ some (session, later) := by
  obtain ⟨⟨own, hown⟩, -⟩ := h.box.take hposted
  obtain ⟨j, filled, hle, hj, hnewest, hnone⟩ := newest_spec hown
  exact ⟨own, j, filled, hown, hle, hj, (h.box.cells session).trans hnewest, hnone⟩

theorem deliver_shows (h : Shows es s) (ht : step kind s .deliver = some t) :
    Shows (es ++ [.deliver]) t := by
  have hout := output_none es (e := .deliver) rfl
  obtain ⟨display, hdeliver, rfl⟩ := Option.map_eq_some_iff.mp ht
  unfold Display.deliver at hdeliver
  split at hdeliver
  · cases hdeliver
  · next session rest hposted =>
    obtain ⟨filled, -, rfl⟩ := Option.map_eq_some_iff.mp hdeliver
    exact {
      brought := by rw [hout]; exact h.brought
      first := by rw [hout, sent_snoc]; exact h.first
      frames := by rw [sent_snoc]; exact h.frames
      box := by rw [sent_snoc]; exact (h.box.take hposted).2
      exclusive := h.exclusive.onNewFrameReceived _ _ }

theorem step_shows {e : Event} (h : Shows es s) (ht : step kind s e = some t) :
    Shows (es ++ [e]) t := by
  cases e with
  | ctrl e =>
    obtain ⟨out, ho, rfl⟩ := Option.map_eq_some_iff.mp ht
    exact ctrl_shows h ho
  | deliver => exact deliver_shows h ht
  | setVideoSurface surface =>
    have hout := output_none es (e := .setVideoSurface surface) rfl
    obtain rfl := Option.some.inj ht
    exact {
      brought := by rw [hout]; exact h.brought
      first := by rw [hout, sent_snoc]; exact h.first
      frames := by rw [sent_snoc]; exact h.frames
      box := by rw [sent_snoc]; exact h.box
      exclusive := h.exclusive.setVideoSurface surface }

theorem exec_shows {isAutoLocalRecord : Bool} {adtsHeader : AdtsHeader}
    (hrun : exec (step kind) (init isAutoLocalRecord adtsHeader) es = some s) : Shows es s :=
  exec_invariant (shows_init ..) (fun _ _ _ _ => step_shows) hrun

/-! ## A frame that is taken -/

theorem deliver_eq {i : Nat} {rest : List Nat} {filled : QVideoFrame × DecodedFrame}
    (hposted : s.display.box.posted = i :: rest) (hcell : s.display.box.cells i = some filled) :
    step kind s .deliver = some { s with display := { s.display with
      box := { s.display.box with posted := rest }
      provider := s.display.provider.onNewFrameReceived kind filled.1 filled.2 } } := by
  simp only [step, Display.deliver, hposted, hcell]
  rfl

/-- Each picture sent is taken once, in order. The frame that is taken is presented on the
surface that is set, the only active one, behind a start with the nearest format; what is
in it is the newest picture of the session, its own or one sent later. -/
theorem deliver_newest {isAutoLocalRecord : Bool} {adtsHeader : AdtsHeader}
    (hrun : exec (step kind) (init isAutoLocalRecord adtsHeader) es = some s) :
    ((step kind s .deliver).isSome ↔ (sent es).taken < (sent es).posts.length) ∧
    s.display.provider.Exclusive ∧
    ∀ t, step kind s .deliver = some t → ∃ session own j frame picture,
      (sent es).posts[(sent es).taken]? = some (session, own) ∧ (sent es).taken ≤ j ∧
      (sent es).posts[j]? = some (session, frame, picture) ∧
      (∀ l later, j < l → (sent es).posts[l]? ≠ some (session, later)) ∧
      ∀ i, s.display.provider.surface = some i → t.display.provider.calls =
        s.display.provider.calls ++ (s.display.provider.stopping i ++
          [(i, .start (kind.nearestFormat i (.ofFrame frame))), (i, .present picture)]) := by
  have h := exec_shows hrun
  refine ⟨?_, h.exclusive, fun t ht => ?_⟩
  · have hposted := h.box.posted
    rcases Nat.lt_or_ge (sent es).taken (sent es).posts.length with hlt | hge
    · rw [List.drop_eq_getElem_cons hlt, List.map_cons] at hposted
      obtain ⟨own, j, filled, -, -, -, hcell, -⟩ := h.filled hposted
      rw [deliver_eq hposted hcell]
      simp [hlt]
    · rw [List.drop_eq_nil_of_le hge] at hposted
      simp only [step, Display.deliver, hposted]
      simp [hge]
  · cases hposted : s.display.box.posted with
    | nil =>
      simp only [step, Display.deliver, hposted] at ht
      cases ht
    | cons session rest =>
      obtain ⟨own, j, ⟨frame, picture⟩, hown, hle, hj, hcell, hlast⟩ := h.filled hposted
      rw [deliver_eq hposted hcell] at ht
      obtain rfl := Option.some.inj ht
      exact ⟨session, own, j, frame, picture, hown, hle, hj, hlast, fun i hi =>
        FrameProvider.onNewFrameReceived_calls hi⟩

/-- A surface that takes every format. -/
def anyFormat : SurfaceKind := ⟨fun _ format => format, fun _ _ => true⟩

/-- Two by two pixels in YUV420P, all bytes the same. -/
def plainPicture (b : UInt8) : DecodedFrame := ⟨fun _ => b, 6, 2, 2, 25, .yuv420p⟩

/-- A window that plays, with two pictures sent and none taken. -/
def twoUnderWay : List Event :=
  [.setVideoSurface (some 0), .ctrl (.play "rtmp://host/device" ""),
    .ctrl (.frame (plainPicture 1) true), .ctrl (.frame (plainPicture 2) true)]

/-- In place of the first picture the second one is presented. -/
theorem deliver_newest_twoUnderWay :
    ∃ s t, exec (step anyFormat) (init false ⟨0, 0, 0, 0, 0, 0, 0⟩) twoUnderWay = some s ∧
      step anyFormat s .deliver = some t ∧
      ∃ session own j frame picture,
        (sent twoUnderWay).posts[0]? = some (session, own) ∧ 0 ≤ j ∧
        (sent twoUnderWay).posts[j]? = some (session, frame, picture) ∧
        (∀ l later, j < l → (sent twoUnderWay).posts[l]? ≠ some (session, later)) ∧
        ∀ i, s.display.provider.surface = some i → t.display.provider.calls =
          s.display.provider.calls ++ (s.display.provider.stopping i ++
            [(i, .start (anyFormat.nearestFormat i (.ofFrame frame))), (i, .present picture)]) := by
  obtain ⟨s, hs⟩ : ∃ s, exec (step anyFormat) (init false ⟨0, 0, 0, 0, 0, 0, 0⟩) twoUnderWay =
      some s := ⟨_, rfl⟩
  obtain ⟨hsome, -, hdeliver⟩ := deliver_newest hs
  obtain ⟨t, ht⟩ := Option.isSome_iff_exists.mp (hsome.mpr (by decide))
  exact ⟨s, t, hs, ht, hdeliver t ht⟩

/-! ## Behind `stop` -/

/-- Neither a new session nor another surface. -/
def Event.isQuiet : Event → Bool
  | .ctrl (.play _ _) => false
  | .setVideoSurface _ => false
  | _ => true

def Event.isDelivery : Event → Bool
  | .deliver => true
  | _ => false

/-- The controller plays nothing, and no pull thread runs. -/
def Idle (out : VideoOutput) : Prop :=
  out.ctrl.isPlaying = false ∧ out.ctrl.capture.pullThread ≠ .running

theorem idle_step {out out' : VideoOutput} {e : VideoOutput.Event} (h : Idle out)
    (hplay : ∀ url encryption, e ≠ .play url encryption)
    (hstep : VideoOutput.step out e = some out') : Idle out' := by
  cases e with
  | play url encryption => exact absurd rfl (hplay url encryption)
  | stop =>
    obtain rfl := Option.some.inj hstep
    rw [VideoOutput.stop, if_neg (by rw [h.1]; decide)]
    exact h
  | playAudio =>
    obtain rfl := Option.some.inj hstep
    exact h
  | stopAudio =>
    obtain rfl := Option.some.inj hstep
    exact h
  | setAutoLocalRecord value =>
    obtain rfl := Option.some.inj hstep
    exact h
  | pullThreadEnds => exact absurd (Option.ite_none_right_eq_some.mp hstep).1 h.2
  | frame d mapped => exact absurd (Option.ite_none_right_eq_some.mp hstep).1 h.2
  | audioInfo data => exact absurd (Option.ite_none_right_eq_some.mp hstep).1 h.2
  | audioData len => exact absurd (Option.ite_none_right_eq_some.mp hstep).1 h.2

theorem picture_of_calls {π : Type} {calls : List (Nat × SurfaceCall π)}
    {provider : FrameProvider π} {i : Nat} {format : QVideoSurfaceFormat} {picture : π} :
    (calls ++ (provider.stopping i ++
        [(i, SurfaceCall.start format), (i, SurfaceCall.present picture)])).filterMap
      (fun call => call.2.picture) =
      calls.filterMap (fun call => call.2.picture) ++ [picture] := by
  rw [List.filterMap_append, List.filterMap_append, FrameProvider.stopping]
  split
  · rfl
  · rfl

/-- The window behind a `stop`, with the frames that were under way; `n` were taken since. -/
structure Stopped (s : VideoWindow) (i n : Nat) (u : VideoWindow) : Prop where
  idle : Idle u.out
  surface : u.display.provider.surface = some i
  cells : u.display.box.cells = s.display.box.cells
  posted : u.display.box.posted = s.display.box.posted.drop n
  presented : u.display.presented = s.display.presented ++
    (s.display.box.posted.take n).filterMap fun session =>
      (s.display.box.cells session).map Prod.snd

theorem stop_stopped {isAutoLocalRecord : Bool} {adtsHeader : AdtsHeader}
    (hrun : exec (step kind) (init isAutoLocalRecord adtsHeader) es = some s)
    (hplaying : s.out.ctrl.isPlaying = true) {i : Nat}
    (hsurface : s.display.provider.surface = some i)
    (ht : step kind s (.ctrl .stop) = some t) : Stopped s i 0 t := by
  have howns := (exec_shows hrun).brought.owns
  obtain rfl : (⟨s.out.stop, s.displayed kind .stop⟩ : VideoWindow) = t := Option.some.inj ht
  rw [displayed, if_pos hplaying]
  refine {
    idle := ?_
    surface := (FrameProvider.flush_surface _).trans hsurface
    cells := rfl
    posted := rfl
    presented := ?_ }
  · rw [VideoOutput.stop, if_pos hplaying]
    exact ⟨VideoCtrl.stop_isPlaying _, VideoCtrl.stop_not_running howns⟩
  · rw [List.take_zero, List.filterMap_nil, List.append_nil, Display.presented, Display.flush]
    dsimp only
    rw [FrameProvider.flush_calls hsurface, List.filterMap_append, FrameProvider.stopping]
    split
    · exact List.append_nil _
    · exact List.append_nil _

theorem step_stopped {i n : Nat} {u v : VideoWindow} {e : Event} (h : Stopped s i n u)
    (hquiet : e.isQuiet = true) (hstep : step kind u e = some v) :
    Stopped s i (n + if e.isDelivery then 1 else 0) v := by
  cases e with
  | setVideoSurface surface => cases hquiet
  | ctrl e =>
    obtain ⟨out, ho, rfl⟩ := Option.map_eq_some_iff.mp hstep
    have hplay : ∀ url encryption, e ≠ .play url encryption := by
      rintro url encryption rfl
      cases hquiet
    have hdisplayed : u.displayed kind e = u.display := by
      cases e with
      | frame d mapped => exact absurd (Option.ite_none_right_eq_some.mp ho).1 h.idle.2
      | stop => exact if_neg (by rw [h.idle.1]; decide)
      | _ => rfl
    rw [hdisplayed]
    exact ⟨idle_step h.idle hplay ho, h.surface, h.cells, h.posted, h.presented⟩
  | deliver =>
    cases hposted : u.display.box.posted with
    | nil =>
      simp only [step, Display.deliver, hposted] at hstep
      cases hstep
    | cons session rest =>
      obtain ⟨display, hdeliver, rfl⟩ := Option.map_eq_some_iff.mp hstep
      simp only [Display.deliver, hposted] at hdeliver
      obtain ⟨filled, hcell, rfl⟩ := Option.map_eq_some_iff.mp hdeliver
      have hdrop := h.posted.symm.trans hposted
      have hlt : n < s.display.box.posted.length := by
        by_contra hge
        rw [List.drop_eq_nil_of_le (Nat.le_of_not_lt hge)] at hdrop
        cases hdrop
      rw [List.drop_eq_getElem_cons hlt, List.cons.injEq] at hdrop
      refine {
        idle := h.idle
        surface := (FrameProvider.onNewFrameReceived_surface ..).trans h.surface
        cells := h.cells
        posted := hdrop.2.symm
        presented := ?_ }
      have hpresented := h.presented
      rw [h.cells] at hcell
      unfold Display.presented at hpresented ⊢
      dsimp only
      have htake : s.display.box.posted.take (n + 1) =
          s.display.box.posted.take n ++ [session] := by
        rw [← hdrop.1, List.take_append_getElem]
      have hpicture : [session].filterMap (fun session =>
          (s.display.box.cells session).map Prod.snd) = [filled.2] := by
        rw [List.filterMap_cons_some (by rw [hcell]; rfl), List.filterMap_nil]
      rw [FrameProvider.onNewFrameReceived_calls h.surface, picture_of_calls, hpresented]
      show _ = _ ++ (s.display.box.posted.take (n + 1)).filterMap _
      rw [htake, List.filterMap_append, hpicture, List.append_assoc]

/-- Behind `stop` the frames that were under way are presented all the same, as they are
taken, each with the newest picture of its session; so the window stays blank exactly when
every picture had been taken. -/
theorem presented_behind_stop {isAutoLocalRecord : Bool} {adtsHeader : AdtsHeader}
    (hrun : exec (step kind) (init isAutoLocalRecord adtsHeader) es = some s)
    (hplaying : s.out.ctrl.isPlaying = true) {i : Nat}
    (hsurface : s.display.provider.surface = some i)
    (ht : step kind s (.ctrl .stop) = some t) {fs : List Event}
    (hquiet : ∀ e ∈ fs, e.isQuiet = true) {u : VideoWindow}
    (hu : exec (step kind) t fs = some u) :
    u.display.presented = s.display.presented ++
        (((sent es).posts.drop (sent es).taken).take (fs.countP Event.isDelivery)).filterMap
          (fun post => (newest post.1 (sent es).posts).map Prod.snd) ∧
      (u.display.box.posted = [] →
        (u.display.presented = s.display.presented ↔
          (sent es).taken = (sent es).posts.length)) := by
  have hshows := exec_shows hrun
  have hstopped : Stopped s i (fs.countP Event.isDelivery) u := by
    refine exec_invariant
      (I := fun fs u => (∀ e ∈ fs, e.isQuiet = true) → Stopped s i (fs.countP Event.isDelivery) u)
      (fun _ => stop_stopped hrun hplaying hsurface ht) ?_ hu hquiet
    intro fs v e w ih hstep hall
    rw [List.countP_append, List.countP_singleton]
    exact step_stopped (ih fun e he => hall e (List.mem_append_left _ he))
      (hall e (by simp)) hstep
  refine ⟨?_, fun hdrained => ?_⟩
  · rw [hstopped.presented, hshows.box.posted, ← List.map_take, List.filterMap_map]
    simp only [hshows.box.cells]
    rfl
  · rw [hstopped.presented, List.append_right_eq_self]
    have hall := List.drop_eq_nil_iff.mp (hstopped.posted.symm.trans hdrained)
    rw [List.take_of_length_le hall]
    cases hposted : s.display.box.posted with
    | nil =>
      -- every picture had been taken
      have hdrop := List.map_eq_nil_iff.mp (hshows.box.posted.symm.trans hposted)
      have hge := List.drop_eq_nil_iff.mp hdrop
      exact iff_of_true rfl (Nat.le_antisymm hshows.box.taken_le hge)
    | cons session rest =>
      obtain ⟨own, j, filled, -, -, -, hcell, -⟩ := hshows.filled hposted
      refine iff_of_false ?_ fun heq => ?_
      · rw [List.filterMap_cons_some (by rw [hcell]; rfl)]
        exact List.cons_ne_nil _ _
      · have hnil := hshows.box.posted.symm.trans hposted
        rw [heq, List.drop_length] at hnil
        cases hnil

/-- Two pictures under way are presented behind `stop`, and both show the second. -/
theorem presented_behind_stop_twoUnderWay :
    ∃ s t u, exec (step anyFormat) (init false ⟨0, 0, 0, 0, 0, 0, 0⟩) twoUnderWay = some s ∧
      step anyFormat s (.ctrl .stop) = some t ∧
      exec (step anyFormat) t [.deliver, .deliver] = some u ∧
      u.display.presented = s.display.presented ++ [plainPicture 2, plainPicture 2] := by
  obtain ⟨s, hs, hplaying, hsurface⟩ : ∃ s,
      exec (step anyFormat) (init false ⟨0, 0, 0, 0, 0, 0, 0⟩) twoUnderWay = some s ∧
      s.out.ctrl.isPlaying = true ∧ s.display.provider.surface = some 0 := ⟨_, rfl, rfl, rfl⟩
  obtain ⟨t, ht, u, hu⟩ : ∃ t, step anyFormat s (.ctrl .stop) = some t ∧
      ∃ u, exec (step anyFormat) t [.deliver, .deliver] = some u := by
    cases hs
    exact ⟨_, rfl, _, rfl⟩
  exact ⟨s, t, u, hs, ht, hu,
    (presented_behind_stop hs hplaying hsurface ht (by decide) hu).1⟩

end VideoWindow

end MiniSurveillance
