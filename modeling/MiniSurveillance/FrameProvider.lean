import MiniSurveillance.VideoOutput

/-!
# The surface a window shows its pictures on

`FrameProvider` keeps the surface QML has set and the format it was last started with. A
picture is presented behind a `stop` and a `start`, whatever was presented before.

* `onNewFrameReceived_calls`, `flush_calls`: what the surface is called with.
* `Exclusive`: no surface is active but the one that is set.
-/

namespace MiniSurveillance

/-- `QVideoSurfaceFormat`; `none` is `Format_Invalid`. -/
structure QVideoSurfaceFormat where
  width : Int32
  height : Int32
  pixelFormat : Option QPixelFormat
deriving DecidableEq, Repr

namespace QVideoSurfaceFormat

/-- A default format has the size of a default `QSize`. -/
def default : QVideoSurfaceFormat := ⟨-1, -1, none⟩

def isValid (f : QVideoSurfaceFormat) : Bool :=
  f.pixelFormat.isSome && 0 ≤ f.width && 0 ≤ f.height

/-- The format of a frame. -/
def ofFrame (q : QVideoFrame) : QVideoSurfaceFormat :=
  ⟨q.width.toInt32, q.height.toInt32, some q.format⟩

end QVideoSurfaceFormat

/-- What a `QAbstractVideoSurface` answers: the format it takes for one, and whether `start`
makes it active. -/
structure SurfaceKind where
  nearestFormat : Nat → QVideoSurfaceFormat → QVideoSurfaceFormat
  start : Nat → QVideoSurfaceFormat → Bool

/-- A call on a surface that changes it. -/
inductive SurfaceCall (π : Type)
  | stop
  | start (format : QVideoSurfaceFormat)
  | present (picture : π)
deriving DecidableEq, Repr

/-- The picture a call presents. -/
def SurfaceCall.picture {π : Type} : SurfaceCall π → Option π
  | .present picture => some picture
  | _ => none

/-- The provider with the surfaces, which are numbered, and the calls on them so far. -/
structure FrameProvider (π : Type) where
  surface : Option Nat
  format : QVideoSurfaceFormat
  isActive : Nat → Bool
  calls : List (Nat × SurfaceCall π)

namespace FrameProvider

variable {π : Type} {kind : SurfaceKind}

def init : FrameProvider π := ⟨none, .default, fun _ => false, []⟩

/-- `surface->stop()`. -/
def stopSurface (i : Nat) (s : FrameProvider π) : FrameProvider π :=
  { s with isActive := Function.update s.isActive i false, calls := s.calls ++ [(i, .stop)] }

/-- `surface->start(_format)`. -/
def startSurface (kind : SurfaceKind) (i : Nat) (s : FrameProvider π) : FrameProvider π :=
  { s with
    isActive := Function.update s.isActive i (kind.start i s.format)
    calls := s.calls ++ [(i, .start s.format)] }

/-- `_format = _surface->nearestFormat(_format)`. -/
def takeNearest (kind : SurfaceKind) (i : Nat) (s : FrameProvider π) : FrameProvider π :=
  { s with format := kind.nearestFormat i s.format }

/-- The surface that is set is stopped, unless it is set again. -/
def release (surface : Option Nat) (s : FrameProvider π) : FrameProvider π :=
  match s.surface with
  | some i => if surface ≠ some i ∧ s.isActive i = true then s.stopSurface i else s
  | none => s

def setVideoSurface (kind : SurfaceKind) (surface : Option Nat) (s : FrameProvider π) :
    FrameProvider π :=
  let s := { s.release surface with surface := surface }
  match surface with
  | some i => if s.format.isValid then (s.takeNearest kind i).startSurface kind i else s
  | none => s

/-- The three numbers of `setFormat` are the format of a frame. -/
def setFormat (kind : SurfaceKind) (format : QVideoSurfaceFormat) (s : FrameProvider π) :
    FrameProvider π :=
  let s := { s with format := format }
  match s.surface with
  | some i =>
    let s := if s.isActive i then s.stopSurface i else s
    (s.takeNearest kind i).startSurface kind i
  | none => s

def onNewFrameReceived (kind : SurfaceKind) (frame : QVideoFrame) (picture : π)
    (s : FrameProvider π) : FrameProvider π :=
  let s := s.setFormat kind (.ofFrame frame)
  match s.surface with
  | some i => { s with calls := s.calls ++ [(i, .present picture)] }
  | none => s

def flush (kind : SurfaceKind) (s : FrameProvider π) : FrameProvider π :=
  match s.surface with
  | some i =>
    let s := if s.isActive i then s.stopSurface i else s
    s.startSurface kind i
  | none => s

/-! ## What the surface is called with -/

/-- The call that ends what the surface shows, if it is active. -/
def stopping (s : FrameProvider π) (i : Nat) : List (Nat × SurfaceCall π) :=
  if s.isActive i then [(i, .stop)] else []

@[simp] theorem setFormat_surface (format : QVideoSurfaceFormat) (s : FrameProvider π) :
    (s.setFormat kind format).surface = s.surface := by
  unfold setFormat
  dsimp only
  split
  · split
    · rfl
    · rfl
  · rfl

@[simp] theorem onNewFrameReceived_surface (frame : QVideoFrame) (picture : π)
    (s : FrameProvider π) : (s.onNewFrameReceived kind frame picture).surface = s.surface := by
  unfold onNewFrameReceived
  dsimp only
  split
  · exact setFormat_surface ..
  · exact setFormat_surface ..

@[simp] theorem flush_surface (s : FrameProvider π) : (s.flush kind).surface = s.surface := by
  unfold flush
  split
  · dsimp only
    split
    · rfl
    · rfl
  · rfl

theorem setFormat_calls {format : QVideoSurfaceFormat} {s : FrameProvider π} {i : Nat}
    (h : s.surface = some i) : (s.setFormat kind format).calls =
      s.calls ++ (s.stopping i ++ [(i, .start (kind.nearestFormat i format))]) := by
  unfold setFormat stopping
  simp only [h]
  split
  · simp [startSurface, takeNearest, stopSurface]
  · simp [startSurface, takeNearest]

/-- A picture is presented on the surface that is set, right behind a start with the nearest
format. -/
theorem onNewFrameReceived_calls {frame : QVideoFrame} {picture : π} {s : FrameProvider π}
    {i : Nat} (h : s.surface = some i) : (s.onNewFrameReceived kind frame picture).calls =
      s.calls ++ (s.stopping i ++
        [(i, .start (kind.nearestFormat i (.ofFrame frame))), (i, .present picture)]) := by
  unfold onNewFrameReceived
  simp only [setFormat_surface, h, setFormat_calls h, List.append_assoc]
  rfl

theorem flush_calls {s : FrameProvider π} {i : Nat} (h : s.surface = some i) :
    (s.flush kind).calls = s.calls ++ (s.stopping i ++ [(i, .start s.format)]) := by
  unfold flush stopping
  simp only [h]
  split
  · simp [startSurface, stopSurface]
  · simp [startSurface]

/-! ## Which surfaces are active -/

/-- No surface is active but the one that is set. -/
def Exclusive (s : FrameProvider π) : Prop := ∀ i, s.isActive i = true → s.surface = some i

theorem exclusive_init : Exclusive (init : FrameProvider π) := nofun

@[simp] theorem stopSurface_isActive (i j : Nat) (s : FrameProvider π) :
    (s.stopSurface i).isActive j = if j = i then false else s.isActive j :=
  Function.update_apply ..

@[simp] theorem startSurface_isActive (i j : Nat) (s : FrameProvider π) :
    (s.startSurface kind i).isActive j = if j = i then kind.start i s.format else s.isActive j :=
  Function.update_apply ..

theorem Exclusive.startSurface {s : FrameProvider π} {i : Nat} (h : Exclusive s)
    (hi : s.surface = some i) : Exclusive (s.startSurface kind i) := by
  intro j hj
  rw [startSurface_isActive] at hj
  split at hj
  · next hji => exact hji ▸ hi
  · exact h j hj

theorem Exclusive.stopSurface {s : FrameProvider π} (h : Exclusive s) (i : Nat) :
    Exclusive (s.stopSurface i) := by
  intro j hj
  rw [stopSurface_isActive] at hj
  split at hj
  · cases hj
  · exact h j hj

theorem Exclusive.setFormat {s : FrameProvider π} (h : Exclusive s) (format : QVideoSurfaceFormat) :
    Exclusive (s.setFormat kind format) := by
  unfold FrameProvider.setFormat
  dsimp only
  split
  · next i hi =>
    split
    · exact Exclusive.startSurface
        (s := ({ s with format := format }.stopSurface i).takeNearest kind i)
        (Exclusive.stopSurface (s := { s with format := format }) h i) hi
    · exact Exclusive.startSurface (s := { s with format := format }.takeNearest kind i) h hi
  · exact h

theorem Exclusive.onNewFrameReceived {s : FrameProvider π} (h : Exclusive s) (frame : QVideoFrame)
    (picture : π) : Exclusive (s.onNewFrameReceived kind frame picture) := by
  have hformat : Exclusive (s.setFormat kind (.ofFrame frame)) := h.setFormat _
  unfold FrameProvider.onNewFrameReceived
  dsimp only
  split
  · exact hformat
  · exact hformat

theorem Exclusive.flush {s : FrameProvider π} (h : Exclusive s) : Exclusive (s.flush kind) := by
  unfold FrameProvider.flush
  split
  · next i hi =>
    dsimp only
    split
    · exact (h.stopSurface i).startSurface hi
    · exact h.startSurface hi
  · exact h

/-- A surface that is replaced is stopped. -/
theorem Exclusive.release {s : FrameProvider π} (h : Exclusive s) (surface : Option Nat) :
    Exclusive { s.release surface with surface := surface } := by
  intro j hj
  show surface = some j
  unfold FrameProvider.release at hj
  split at hj
  · next i hi =>
    split at hj
    · rw [stopSurface_isActive] at hj
      split at hj
      · cases hj
      · next hji => exact absurd (Option.some.inj (hi.symm.trans (h j hj))).symm hji
    · next hkeep =>
      obtain rfl := Option.some.inj (hi.symm.trans (h j hj))
      exact of_not_not fun hne => hkeep ⟨hne, hj⟩
  · next hnone =>
    cases hnone.symm.trans (h j hj)

theorem Exclusive.setVideoSurface {s : FrameProvider π} (h : Exclusive s) (surface : Option Nat) :
    Exclusive (s.setVideoSurface kind surface) := by
  have hreleased := h.release surface
  unfold FrameProvider.setVideoSurface
  dsimp only
  split
  · next i =>
    split
    · exact Exclusive.startSurface
        (s := { s.release (some i) with surface := some i }.takeNearest kind i) hreleased rfl
    · exact hreleased
  · exact hreleased

end FrameProvider

end MiniSurveillance
