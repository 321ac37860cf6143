import MiniSurveillance.Base.Text
import MiniSurveillance.IPCClient

/-!
# A video window

`VideoCtrl::play` and `stop` with the capture below them, each call as one step of
the GUI thread. `play_of_playing`, `play_of_short` and `play_of_long` say what a
call of `play` does; no call leaves a pull thread running beside an object that is not
playing (`play_owns`, `stop_owns`).
-/

namespace MiniSurveillance
open Text

/-- What `p_rtmp_pull_thread` points to. -/
inductive PullState
  | none
  /-- A thread that is pulling: `is_pulling` is set. -/
  | running
  /-- A thread that ended by itself and cleared `is_pulling`; nobody joined it. -/
  | ended
deriving DecidableEq, Repr

structure VideoCapture where
  rtmpUrl : String := ""
  pullThread : PullState := .none
deriving DecidableEq, Repr

namespace VideoCapture

/-- `VideoCapture::start`. The assignment of the new thread destroys the old handle,
and `std::terminate` is called if nobody joined it. -/
def start (c : VideoCapture) : Outcome Fault VideoCapture Bool :=
  match c.pullThread with
  | .running => .ok false c
  | .none => .ok true { c with pullThread := .running }
  | .ended => .crashed

/-- `VideoCapture::stop`: only a thread that is pulling is stopped and joined. -/
def stop (c : VideoCapture) : VideoCapture :=
  if c.pullThread = .running then { c with pullThread := .none } else c

end VideoCapture

/-- `VideoCtrl`, with the fields `play`, `stop`, `playAudio` and `stopAudio` set. -/
structure VideoCtrl where
  capture : VideoCapture := {}
  isPlaying : Bool := false
  isPlayingAudio : Bool := false
  deviceKeyName : List UInt8 := []
  encryption : List UInt8 := []
deriving DecidableEq, Repr

namespace VideoCtrl

/-- `url.toStdString().substr(url.length() - 6, 6)`: the position counts UTF-16
units, the string has UTF-8 bytes. -/
def keyName (url : String) : Except Fault (List UInt8) :=
  match substr (utf8 url) ((utf16Length url : Int) - 6) 6 with
  | some name => .ok name
  | none => .error .outOfRange

def play (url encryption : String) (v : VideoCtrl) : Outcome Fault VideoCtrl Bool :=
  if v.isPlaying then .ok false v
  else
    let v := { v with
      isPlaying := true
      isPlayingAudio := false
      capture := { v.capture with rtmpUrl := url } }
    (Outcome.ofExcept (keyName url) v).bind fun name v =>
      let v := { v with deviceKeyName := name, encryption := utf8 encryption }
      (v.capture.start.mapState fun c => { v with capture := c }).bind fun ret v =>
        if ret then .ok true v else .ok false { v with isPlaying := false }

def stop (v : VideoCtrl) : VideoCtrl :=
  if v.isPlaying then
    { v with capture := v.capture.stop, isPlaying := false, isPlayingAudio := false }
  else v

def playAudio (v : VideoCtrl) : VideoCtrl := { v with isPlayingAudio := true }

def stopAudio (v : VideoCtrl) : VideoCtrl := { v with isPlayingAudio := false }

/-! ## What the calls do -/

@[simp] theorem stop_isPlaying (v : VideoCtrl) : v.stop.isPlaying = false := by
  unfold stop
  split
  · rfl
  · next hidle => simpa using hidle

theorem keyName_of_long {url : String} (h : 6 ≤ utf16Length url) :
    ∃ name, keyName url = .ok name := by
  obtain ⟨name, hname⟩ := Option.isSome_iff_exists.mp ((substr_last_isSome url 6 6).mpr h)
  exact ⟨name, by rw [keyName, show (6 : Int) = ((6 : Nat) : Int) from rfl, hname]⟩

theorem keyName_of_short {url : String} (h : utf16Length url < 6) :
    keyName url = .error .outOfRange := by
  have hnone : substr (utf8 url) ((utf16Length url : Int) - (6 : Nat)) 6 = none := by
    rw [← Option.not_isSome_iff_eq_none, substr_last_isSome]
    omega
  rw [keyName, show (6 : Int) = ((6 : Nat) : Int) from rfl, hnone]

theorem play_of_playing {v : VideoCtrl} (url encryption : String) (h : v.isPlaying = true) :
    v.play url encryption = .ok false v := by
  rw [play, if_pos h]

/-- A short URL raises behind `is_playing = true`. -/
theorem play_of_short {v : VideoCtrl} {url : String} (encryption : String)
    (hidle : v.isPlaying = false) (hshort : utf16Length url < 6) :
    v.play url encryption = .raised .outOfRange { v with
      isPlaying := true
      isPlayingAudio := false
      capture := { v.capture with rtmpUrl := url } } := by
  rw [play, hidle, keyName_of_short hshort]
  rfl

/-- A URL that is long enough: what happens is up to the pull thread. -/
theorem play_of_long {v : VideoCtrl} {url : String} (encryption : String)
    (hidle : v.isPlaying = false) (hlong : 6 ≤ utf16Length url) :
    ∃ name, keyName url = .ok name ∧ v.play url encryption =
      match v.capture.pullThread with
      | .none => .ok true ⟨⟨url, .running⟩, true, false, name, utf8 encryption⟩
      | .running => .ok false ⟨⟨url, .running⟩, false, false, name, utf8 encryption⟩
      | .ended => .crashed := by
  obtain ⟨name, hname⟩ := keyName_of_long hlong
  refine ⟨name, hname, ?_⟩
  rw [play, hidle, hname]
  cases hthread : v.capture.pullThread with
  | none => simp [Outcome.ofExcept, Outcome.bind, Outcome.mapState, VideoCapture.start, hthread]
  | running => simp [Outcome.ofExcept, Outcome.bind, Outcome.mapState, VideoCapture.start, hthread]
  | ended => simp [Outcome.ofExcept, Outcome.bind, Outcome.mapState, VideoCapture.start, hthread]

/-! ## The pull thread -/

/-- A pull thread runs only while its object is playing. -/
def Owns (v : VideoCtrl) : Prop := v.capture.pullThread = .running → v.isPlaying = true

variable {v : VideoCtrl}

theorem stop_not_running (hv : v.Owns) : v.stop.capture.pullThread ≠ .running := by
  unfold stop
  split
  · show v.capture.stop.pullThread ≠ .running
    unfold VideoCapture.stop
    split
    · exact nofun
    · next hthread => exact hthread
  · next hidle => exact fun hthread => hidle (hv hthread)

theorem stop_owns (hv : v.Owns) : v.stop.Owns := fun h => absurd h (stop_not_running hv)

theorem play_owns (hv : v.Owns) (url encryption : String) :
    (v.play url encryption).Leaves Owns := by
  cases hplaying : v.isPlaying with
  | true =>
    rw [play_of_playing url encryption hplaying]
    exact (Outcome.leaves_ok ..).mpr hv
  | false =>
    rcases Nat.lt_or_ge (utf16Length url) 6 with hshort | hlong
    · rw [play_of_short encryption hplaying hshort]
      exact (Outcome.leaves_raised ..).mpr fun _ => rfl
    · obtain ⟨name, _, heq⟩ := play_of_long encryption hplaying hlong
      rw [heq]
      cases hthread : v.capture.pullThread with
      | none => exact (Outcome.leaves_ok ..).mpr fun _ => rfl
      | running =>
        have hon := hv hthread
        rw [hplaying] at hon
        cases hon
      | ended => exact Outcome.leaves_crashed _

/-- `play` returns false only for an object that is playing, and leaves that as it is. -/
theorem play_refused {w : VideoCtrl} (hv : v.Owns) {url encryption : String}
    (h : v.play url encryption = .ok false w) : v.isPlaying = true ∧ w = v := by
  cases hplaying : v.isPlaying with
  | true =>
    rw [play_of_playing url encryption hplaying] at h
    exact ⟨rfl, (Outcome.ok.inj h).2.symm⟩
  | false =>
    rcases Nat.lt_or_ge (utf16Length url) 6 with hshort | hlong
    · rw [play_of_short encryption hplaying hshort] at h
      cases h
    · obtain ⟨name, _, heq⟩ := play_of_long encryption hplaying hlong
      rw [heq] at h
      cases hthread : v.capture.pullThread with
      | none =>
        rw [hthread] at h
        cases h
      | running =>
        have hon := hv hthread
        rw [hplaying] at hon
        cases hon
      | ended =>
        rw [hthread] at h
        cases h

/-- `play` that returns true leaves the object playing. -/
theorem play_plays {w : VideoCtrl} {url encryption : String}
    (h : v.play url encryption = .ok true w) : w.isPlaying = true := by
  cases hplaying : v.isPlaying with
  | true =>
    rw [play_of_playing url encryption hplaying] at h
    cases h
  | false =>
    rcases Nat.lt_or_ge (utf16Length url) 6 with hshort | hlong
    · rw [play_of_short encryption hplaying hshort] at h
      cases h
    · obtain ⟨name, _, heq⟩ := play_of_long encryption hplaying hlong
      rw [heq] at h
      split at h
      · obtain ⟨_, rfl⟩ := Outcome.ok.inj h
        rfl
      · cases h
      · cases h

/-- `play` that returns true has started a pull thread in an object that was not playing. -/
theorem play_starts {w : VideoCtrl} {url encryption : String}
    (h : v.play url encryption = .ok true w) :
    v.isPlaying = false ∧ w.isPlaying = true ∧ w.capture.pullThread = .running := by
  cases hplaying : v.isPlaying with
  | true =>
    rw [play_of_playing url encryption hplaying] at h
    cases h
  | false =>
    rcases Nat.lt_or_ge (utf16Length url) 6 with hshort | hlong
    · rw [play_of_short encryption hplaying hshort] at h
      cases h
    · obtain ⟨name, _, heq⟩ := play_of_long encryption hplaying hlong
      rw [heq] at h
      split at h
      · obtain ⟨_, rfl⟩ := Outcome.ok.inj h
        exact ⟨rfl, rfl, rfl⟩
      · cases h
      · cases h

/-- `play` that returns false or raises starts and ends no thread. -/
theorem play_keeps {w : VideoCtrl} {url encryption : String}
    (h : v.play url encryption = .ok false w ∨ ∃ f, v.play url encryption = .raised f w) :
    (v.isPlaying = true → w.isPlaying = true) ∧
      w.capture.pullThread = v.capture.pullThread := by
  cases hplaying : v.isPlaying with
  | true =>
    rw [play_of_playing url encryption hplaying] at h
    rcases h with h | ⟨f, h⟩
    · obtain ⟨_, rfl⟩ := Outcome.ok.inj h
      exact ⟨fun _ => hplaying, rfl⟩
    · cases h
  | false =>
    refine ⟨nofun, ?_⟩
    rcases Nat.lt_or_ge (utf16Length url) 6 with hshort | hlong
    · rw [play_of_short encryption hplaying hshort] at h
      rcases h with h | ⟨f, h⟩
      · cases h
      · obtain ⟨_, rfl⟩ := Outcome.raised.inj h
        rfl
    · obtain ⟨name, _, heq⟩ := play_of_long encryption hplaying hlong
      rw [heq] at h
      cases hthread : v.capture.pullThread with
      | none =>
        rw [hthread] at h
        rcases h with h | ⟨f, h⟩
        · cases h
        · cases h
      | running =>
        rw [hthread] at h
        rcases h with h | ⟨f, h⟩
        · obtain ⟨_, rfl⟩ := Outcome.ok.inj h
          rfl
        · cases h
      | ended =>
        rw [hthread] at h
        rcases h with h | ⟨f, h⟩
        · cases h
        · cases h

/-- An object that is playing stays as it is. -/
theorem play_of_playing_after {w : VideoCtrl} {url encryption : String} (h : v.isPlaying = true)
    (hplay : (v.play url encryption).after = some w) : w = v := by
  rw [play_of_playing url encryption h] at hplay
  exact (Option.some.inj hplay).symm

end VideoCtrl

end MiniSurveillance
