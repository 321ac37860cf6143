import MiniSurveillance.FlvFeed
import MiniSurveillance.FlvSeek

/-!
# What the walks and the rounds leave alone

`step_by_frame` moves the cursor, rewrites the buffers and counts tags; what the GUI
switches, the sleep that is due and the file stay as they are (`stepByFrame_controls`).
A round of the feed loop leaves what the GUI switches (`feedRound_switches`).
-/

namespace MiniSurveillance.FlvPlayer
open Loops

/-- Nothing differs but the cursor, the buffers, and what a walk decides. -/
structure SameControls (p q : FlvPlayer) : Prop where
  isPlaying : q.isPlaying = p.isPlaying
  isPause : q.isPause = p.isPause
  needSleep : q.needSleep = p.needSleep
  stepOneFrame : q.stepOneFrame = p.stepOneFrame
  fps : q.fps = p.fps
  totalBytes : q.totalBytes = p.totalBytes
  content : q.fileFd.map Fd.content = p.fileFd.map Fd.content

namespace SameControls

theorem refl (p : FlvPlayer) : SameControls p p := ⟨rfl, rfl, rfl, rfl, rfl, rfl, rfl⟩

theorem trans {p q r : FlvPlayer} (h : SameControls p q) (h' : SameControls q r) :
    SameControls p r :=
  ⟨h'.isPlaying.trans h.isPlaying, h'.isPause.trans h.isPause, h'.needSleep.trans h.needSleep,
    h'.stepOneFrame.trans h.stepOneFrame, h'.fps.trans h.fps, h'.totalBytes.trans h.totalBytes,
    h'.content.trans h.content⟩

end SameControls

/-! ## Moving -/

theorem readTagHeader_controls (p : FlvPlayer) (pos n : Nat) :
    SameControls p (p.readTagHeader pos n) :=
  ⟨rfl, rfl, rfl, rfl, rfl, rfl, Option.map_map ..⟩

theorem readTagData_controls (p : FlvPlayer) (n : Nat) : SameControls p (p.readTagData n) :=
  ⟨rfl, rfl, rfl, rfl, rfl, rfl, Option.map_map ..⟩

theorem seekCur_content (fd : Fd) (d : Int) : (fd.seekCur d).content = fd.content := by
  unfold Fd.seekCur
  split
  · rfl
  · rfl

theorem seekCur_controls (p : FlvPlayer) (d : Int) : SameControls p (p.seekCur d) := by
  refine ⟨rfl, rfl, rfl, rfl, rfl, rfl, (Option.map_map ..).trans ?_⟩
  exact congrArg (fun f => p.fileFd.map f) (funext fun fd => seekCur_content fd d)

theorem forwardTag_controls (p : FlvPlayer) : SameControls p p.forwardTag := by
  have hread := readTagHeader_controls p 0 tagHeaderSize
  let q := ((p.readTagHeader 0 tagHeaderSize).addCurIdx (p.got tagHeaderSize)).setBufLen
  have hq : SameControls p q :=
    ⟨rfl, rfl, rfl, rfl, rfl, rfl, hread.content⟩
  have hseek := seekCur_controls q (q.bufLen + 4)
  exact hq.trans ⟨rfl, rfl, rfl, rfl, rfl, rfl, hseek.content⟩

theorem moveForward_controls (n : Nat) (p : FlvPlayer) : SameControls p (p.moveForward n) := by
  induction n generalizing p with
  | zero => exact .refl p
  | succ n ih =>
    rw [moveForward]
    split
    · exact (forwardTag_controls p).trans (ih p.forwardTag)
    · exact .refl p

theorem readPreviousTagSize_controls (p : FlvPlayer) : SameControls p p.readPreviousTagSize := by
  have h := (seekCur_controls p (-4)).trans (readTagHeader_controls (p.seekCur (-4)) 0 4)
  exact ⟨rfl, rfl, rfl, rfl, rfl, rfl, h.content⟩

theorem moveBackward_controls (n : Nat) (p : FlvPlayer) : SameControls p (p.moveBackward n) := by
  induction n generalizing p with
  | zero => exact .refl p
  | succ n ih =>
    have hread := readPreviousTagSize_controls p
    rw [moveBackward]
    dsimp only
    split
    · split
      · exact hread
      · let q := { p.readPreviousTagSize with
          curIdx := toLong (p.readPreviousTagSize.curIdx - (4 + p.readPreviousTagSize.bufLen)) }
        have hq : SameControls p q := ⟨rfl, rfl, rfl, rfl, rfl, rfl, hread.content⟩
        exact (hq.trans (seekCur_controls q _)).trans (ih _)
    · exact .refl p

theorem moveCursor_controls (n : Int) (p : FlvPlayer) : SameControls p (p.moveCursor n) := by
  unfold moveCursor
  split
  · exact moveForward_controls _ p
  · exact moveBackward_controls _ p

theorem peek_controls (p : FlvPlayer) : SameControls p p.peek :=
  ((readTagHeader_controls p 0 tagHeaderSize).trans (readTagData_controls _ 2)).trans
    (seekCur_controls _ _)

theorem move_controls (n : Int) (p : FlvPlayer) : SameControls p (p.move n).1 := by
  unfold move
  dsimp only
  split
  · exact moveCursor_controls n p
  · exact (moveCursor_controls n p).trans (peek_controls _)

/-! ## Stepping -/

/-- What every round of a loop leaves alone, the loop leaves alone. -/
theorem ends_controls {σ ρ : Type} {body : σ → σ ⊕ ρ} {f : σ → FlvPlayer} {g : ρ → FlvPlayer}
    (hagain : ∀ s s', body s = .inl s' → SameControls (f s) (f s'))
    (hleave : ∀ s r, body s = .inr r → SameControls (f s) (g r)) {s : σ} {r : ρ}
    (h : Ends body s r) : SameControls (f s) (g r) :=
  h.invariant (I := fun t => SameControls (f s) (f t)) (Q := fun r => SameControls (f s) (g r))
    (fun t t' ht hround => ht.trans (hagain t t' hround))
    (fun t r ht hround => ht.trans (hleave t r hround)) (.refl (f s))

theorem count_controls {dire : Int} {s : Nat × FlvPlayer} {q : FlvPlayer}
    (h : Ends (countRound dire) s q) : SameControls s.2 q := by
  have hstep (s : Nat × FlvPlayer) : SameControls s.2 (countStep dire s).2 :=
    move_controls dire s.2
  refine ends_controls (f := Prod.snd) (g := id) (fun s s' hround => ?_) (fun s r hround => ?_) h
  · rw [countRound_eq] at hround
    split at hround
    · cases hround
    · split at hround
      · cases hround
      · cases hround
        exact hstep s
  · rw [countRound_eq] at hround
    split at hround
    · cases hround
      exact .refl s.2
    · split at hround
      · cases hround
        exact hstep s
      · cases hround

theorem video_controls {p q : FlvPlayer} (h : Ends videoRound p q) : SameControls p q := by
  refine ends_controls (f := id) (g := id) (fun s s' hround => ?_) (fun s r hround => ?_) h
  · rw [videoRound_eq] at hround
    split at hround
    · cases hround
    · cases hround
      exact move_controls (-1) s
  · rw [videoRound_eq] at hround
    split at hround
    · cases hround
      exact move_controls (-1) s
    · cases hround

theorem keyFrame_controls {s r : Bool × FlvPlayer} (h : Ends keyFrameRound s r) :
    SameControls s.2 r.2 := by
  have hstep (s : Bool × FlvPlayer) : SameControls s.2 (keyFrameStep s).2 := by
    obtain ⟨n, hn⟩ := keyFrameStep_eq s
    have hback := move_controls (-1) s.2
    rw [hn]
    exact ⟨hback.isPlaying, hback.isPause, hback.needSleep, hback.stepOneFrame, hback.fps,
      hback.totalBytes, hback.content⟩
  refine ends_controls (f := Prod.snd) (g := Prod.snd) (fun s s' hround => ?_)
    (fun s r hround => ?_) h
  · rw [keyFrameRound_eq] at hround
    split at hround
    · cases hround
    · split at hround
      · cases hround
      · cases hround
        exact hstep s
  · rw [keyFrameRound_eq] at hround
    split at hround
    · cases hround
      exact .refl s.2
    · split at hround
      · cases hround
        exact hstep s
      · cases hround

theorem backToVideo_controls {fuel : Nat} {p q : FlvPlayer} (h : backToVideo fuel p = some q) :
    SameControls p q := by
  unfold backToVideo at h
  split at h
  · exact video_controls ⟨fuel, h⟩
  · obtain rfl := Option.some.inj h
    exact .refl p

theorem backToKeyFrame_controls {fuel : Nat} {p q : FlvPlayer}
    (h : backToKeyFrame fuel p = some q) : SameControls p q := by
  have hmove := move_controls 0 p
  unfold backToKeyFrame at h
  dsimp only at h
  split at h
  · obtain rfl := Option.some.inj h
    exact ⟨hmove.isPlaying, hmove.isPause, hmove.needSleep, hmove.stepOneFrame, hmove.fps,
      hmove.totalBytes, hmove.content⟩
  · obtain ⟨r, hr, hq⟩ := Option.bind_eq_some_iff.mp h
    have hwalk := keyFrame_controls ⟨fuel, hr⟩
    have hr : SameControls p r.2 :=
      ⟨hwalk.isPlaying.trans hmove.isPlaying, hwalk.isPause.trans hmove.isPause,
        hwalk.needSleep.trans hmove.needSleep, hwalk.stepOneFrame.trans hmove.stepOneFrame,
        hwalk.fps.trans hmove.fps, hwalk.totalBytes.trans hmove.totalBytes,
        hwalk.content.trans hmove.content⟩
    split at hq
    · obtain rfl := Option.some.inj hq
      exact hr
    · obtain rfl := Option.some.inj hq
      exact ⟨hr.isPlaying, hr.isPause, hr.needSleep, hr.stepOneFrame, hr.fps, hr.totalBytes,
        hr.content⟩

/-- What `step_by_frame` leaves alone. -/
theorem stepByFrame_controls {fuel : Nat} {p q : FlvPlayer} {count : Int}
    (h : stepByFrame fuel p count = some q) : SameControls p q := by
  by_cases hreg : p.isRegulating = true
  · rw [stepByFrame, if_pos hreg] at h
    obtain rfl := Option.some.inj h
    exact .refl p
  by_cases hone : count = 1
  · rw [stepByFrame, if_neg hreg, if_pos (show count - 1 = 0 by omega)] at h
    obtain rfl := Option.some.inj h
    exact ⟨rfl, rfl, rfl, rfl, rfl, rfl, rfl⟩
  rw [stepByFrame_walks hreg hone] at h
  obtain ⟨r, hr, h⟩ := Option.bind_eq_some_iff.mp h
  obtain ⟨t, ht, h⟩ := Option.bind_eq_some_iff.mp h
  have hcount := count_controls ⟨fuel, hr⟩
  have hbegin : SameControls p r :=
    ⟨hcount.isPlaying, hcount.isPause, hcount.needSleep, hcount.stepOneFrame, hcount.fps,
      hcount.totalBytes, hcount.content⟩
  exact (hbegin.trans (backToVideo_controls ht)).trans (backToKeyFrame_controls h)

/-! ## Feeding -/

/-- What the GUI switches. -/
def switches (p : FlvPlayer) : Bool × Bool := (p.isPlaying, p.isPause)

theorem SameCursor.switches {p q : FlvPlayer} (h : SameCursor p q) : q.switches = p.switches :=
  Prod.ext h.isPlaying h.isPause

theorem finishTag_switches {call c : TagCall} {p q : FlvPlayer} (h : finishTag call p = .tag c q) :
    q.switches = p.switches := by
  rcases finishTag_cases call p with ⟨_, hcrash⟩ | ⟨r, hr, htag⟩
  · cases hcrash.symm.trans h
  · obtain ⟨_, rfl⟩ := FeedRound.tag.inj (htag.symm.trans h)
    obtain ⟨_, rfl⟩ := sleepBehindTag_of hr
    exact (countTag_frame _).1.switches

theorem Moved.switches {p q : FlvPlayer} (h : Moved p q) : q.switches = p.switches :=
  Prod.ext h.isPlaying h.isPause

/-- A round of the feed loop switches nothing. -/
theorem feedRound_switches {env : TagEffects} {p q : FlvPlayer}
    (h : feedRound env p = .header q ∨ ∃ call, feedRound env p = .tag call q) :
    q.switches = p.switches := by
  rcases feedRound_cases env p with hround | hround | ⟨r, hround, hmoved⟩ |
    ⟨r, call, hround, hmoved, _⟩
  · simp [hround] at h
  · simp [hround] at h
  · rw [hround] at h
    rcases h with h | ⟨_, h⟩
    · obtain rfl := FeedRound.header.inj h
      exact hmoved.switches
    · cases h
  · rw [hround] at h
    rcases h with h | ⟨_, h⟩
    · exact absurd h (finishTag_ne_header _ _ _)
    · exact ((finishTag_switches h).trans (handleTag_sameCursor env r).switches).trans
        hmoved.switches

end MiniSurveillance.FlvPlayer
