import MiniSurveillance.FlvSession

/-!
# Seeking in a recording

`step_by_frame` walks tag by tag through the file with the player locked.
Each of its three loops is a walk (`countRound_walks`, `videoRound_walks`,
`keyFrameRound_walks`).
Back they follow the previous tag sizes, and nothing makes that walk get anywhere: with a
size of zero, or at the very start of the file, it stands still (`stepByFrame_hangs`).
-/

namespace MiniSurveillance.FlvPlayer
open Bytes Loops

/-! ## What a move sees -/

/-- The tag at the cursor is a video tag. -/
def onVideo (p : FlvPlayer) : Bool := !p.atEnd && p.headerType == tagVideo

/-- The tag at the cursor is a video frame. -/
def onFrame (p : FlvPlayer) : Bool := p.onVideo && p.tagData 1 == 0x01

/-- The tag at the cursor is an I frame. -/
def onKeyFrame (p : FlvPlayer) : Bool := p.onVideo && p.tagData 0 == 0x17 && p.tagData 1 == 0x01

/-- One tag back, by the previous tag size in front of the cursor. -/
def back (p : FlvPlayer) : FlvPlayer := (p.move (-1)).1

/-- The tag at the cursor, read into the buffers. -/
def look (p : FlvPlayer) : FlvPlayer := (p.move 0).1

theorem move_type (n : Int) (p : FlvPlayer) :
    (p.move n).2.1 = tagVideo ↔ (p.move n).1.onVideo = true := by
  unfold move
  dsimp only
  split
  · next hend => simp [onVideo, hend, tagAudio, tagVideo]
  · next hend =>
    have hpeek : (p.moveCursor n).peek.atEnd = false := eq_false_of_ne_true hend
    simp [onVideo, hpeek]

theorem move_isIFrame (n : Int) (p : FlvPlayer) : (p.move n).2.2 = (p.move n).1.onKeyFrame := by
  unfold move
  dsimp only
  split
  · next hend => simp [onKeyFrame, onVideo, hend]
  · next hend =>
    have hpeek : (p.moveCursor n).peek.atEnd = false := eq_false_of_ne_true hend
    simp [onKeyFrame, onVideo, hpeek]

/-! ## The first loop -/

/-- One step of the walk that counts frames down. -/
def countStep (dire : Int) (s : Nat × FlvPlayer) : Nat × FlvPlayer :=
  let p := (s.2.move dire).1
  (if p.onFrame then s.1 - 1 else s.1, p)

theorem countRound_eq (dire : Int) (s : Nat × FlvPlayer) :
    countRound dire s =
      if s.1 == 0 then .inr s.2
      else if (countStep dire s).2.atEnd || (countStep dire s).2.atFirstTag then
        .inr (countStep dire s).2
      else .inl (countStep dire s) := by
  obtain ⟨count, p⟩ := s
  cases count with
  | zero => rfl
  | succ count =>
    have htype := move_type dire p
    simp only [countRound, countStep, Nat.add_one_sub_one]
    generalize p.move dire = m at htype ⊢
    obtain ⟨q, type, isIFrame⟩ := m
    dsimp only at htype ⊢
    rw [if_neg (c := (count + 1 == 0) = true) (by simp)]
    split
    · rfl
    · by_cases hframe : type = tagVideo ∧ q.tagData 1 = 0x01
      · rw [if_pos hframe, if_pos (by simp [onFrame, htype.mp hframe.1, hframe.2])]
      · rw [if_neg hframe, if_neg (by simpa [onFrame, ← htype] using hframe)]

theorem countRound_walks (dire : Int) :
    Walks (countRound dire) (fun s => s.1 == 0) (fun s => s.2.atEnd || s.2.atFirstTag)
      (countStep dire) Prod.snd := countRound_eq dire

/-! ## The second loop -/

theorem videoRound_eq (p : FlvPlayer) :
    videoRound p = if p.back.onVideo = true then .inr p.back else .inl p.back := by
  unfold videoRound back
  dsimp only
  by_cases hv : (p.move (-1)).2.1 = tagVideo
  · rw [if_pos hv, if_pos ((move_type (-1) p).mp hv)]
  · rw [if_neg hv, if_neg (fun h => hv ((move_type (-1) p).mpr h))]

theorem videoRound_walks : Walks videoRound (fun _ => false) onVideo back id := fun p =>
  (videoRound_eq p).trans (if_neg Bool.false_ne_true).symm

/-! ## The third loop -/

/-- One step of the walk of the third loop. -/
def keyFrameStep (s : Bool × FlvPlayer) : Bool × FlvPlayer :=
  let (p, type, isIFrame) := s.2.move (-1)
  (isIFrame, if type = tagVideo then { p with regulateTagCount := p.regulateTagCount + 1 } else p)

theorem keyFrameRound_eq (s : Bool × FlvPlayer) :
    keyFrameRound s =
      if s.2.atFirstTag then .inr s
      else if (keyFrameStep s).1 then .inr (keyFrameStep s) else .inl (keyFrameStep s) := by
  obtain ⟨isIFrame, p⟩ := s
  simp only [keyFrameRound, keyFrameStep]

theorem keyFrameRound_walks :
    Walks keyFrameRound (fun s => s.2.atFirstTag) Prod.fst keyFrameStep id := keyFrameRound_eq

/-- The cursor one tag back. -/
def backCursor (p : FlvPlayer) : FlvPlayer :=
  if 0 < p.curIdx then
    let q := p.readPreviousTagSize
    if q.bufLen = 0 then q
    else { q with curIdx := toLong (q.curIdx - (4 + q.bufLen)) }.seekCur (toLong (-4 - q.bufLen))
  else p

theorem moveCursor_back (p : FlvPlayer) : p.moveCursor (-1) = p.backCursor := rfl

/-- It goes one tag back and counts it if it is a video tag. -/
theorem keyFrameStep_counts (s : Bool × FlvPlayer) :
    keyFrameStep s = (s.2.back.onKeyFrame,
      if s.2.back.onVideo = true then
        { s.2.back with regulateTagCount := s.2.back.regulateTagCount + 1 }
      else s.2.back) := by
  have htype := move_type (-1) s.2
  have hkey : (s.2.move (-1)).2.2 = s.2.back.onKeyFrame := move_isIFrame (-1) s.2
  unfold keyFrameStep
  dsimp only
  rw [hkey]
  by_cases hv : (s.2.move (-1)).2.1 = tagVideo
  · have hon : s.2.back.onVideo = true := htype.mp hv
    rw [if_pos hv, if_pos hon]
    rfl
  · have hoff : ¬ s.2.back.onVideo = true := fun h => hv (htype.mpr h)
    rw [if_neg hv, if_neg hoff]
    rfl

theorem keyFrameStep_eq (s : Bool × FlvPlayer) :
    ∃ n, keyFrameStep s = (s.2.back.onKeyFrame, { s.2.back with regulateTagCount := n }) := by
  rw [keyFrameStep_counts]
  split
  · exact ⟨_, rfl⟩
  · exact ⟨s.2.back.regulateTagCount, rfl⟩

theorem onVideo_of_onKeyFrame {p : FlvPlayer} (h : p.onKeyFrame = true) : p.onVideo = true := by
  simp only [onKeyFrame, Bool.and_eq_true] at h
  exact h.1.1

/-- The third part of `step_by_frame`: at an I frame it is over, else it goes back. -/
theorem backToKeyFrame_eq (fuel : Nat) (p : FlvPlayer) :
    backToKeyFrame fuel p =
      if p.look.onKeyFrame = true then some { p.look with isRegulating := false }
      else (run keyFrameRound fuel (false, { p.look with regulateTagCount := 0 })).map fun s =>
        if s.1 = true then s.2 else { s.2 with needIFrame := true, isRegulating := false } := by
  have htype := move_type 0 p
  have hkey : (p.move 0).2.2 = p.look.onKeyFrame := move_isIFrame 0 p
  unfold backToKeyFrame
  dsimp only
  rw [hkey]
  cases hI : p.look.onKeyFrame with
  | true =>
    rw [if_pos ⟨htype.mpr (onVideo_of_onKeyFrame hI), rfl⟩, if_pos rfl]
    rfl
  | false =>
    rw [if_neg (fun h => absurd h.2 (by decide)), if_neg (by decide)]
    show (run keyFrameRound fuel (false, { p.look with regulateTagCount := 0 })).bind _ = _
    cases run keyFrameRound fuel (false, { p.look with regulateTagCount := 0 }) with
    | none => rfl
    | some s =>
      obtain ⟨isIFrame, q⟩ := s
      cases isIFrame with
      | true => rfl
      | false => rfl

/-! ## The whole of `step_by_frame` -/

theorem backToVideo_mono {n m : Nat} {p q : FlvPlayer} (h : backToVideo n p = some q)
    (hle : n ≤ m) : backToVideo m p = some q := by
  unfold backToVideo at h ⊢
  split at h
  · next hend =>
    rw [if_pos hend]
    exact run_mono h hle
  · next hend =>
    rw [if_neg hend]
    exact h

theorem backToKeyFrame_mono {n m : Nat} {p q : FlvPlayer} (h : backToKeyFrame n p = some q)
    (hle : n ≤ m) : backToKeyFrame m p = some q := by
  unfold backToKeyFrame at h ⊢
  dsimp only at h ⊢
  split at h
  · next hkey =>
    rw [if_pos hkey]
    exact h
  · next hkey =>
    rw [if_neg hkey]
    obtain ⟨r, hr, hq⟩ := Option.bind_eq_some_iff.mp h
    exact Option.bind_eq_some_iff.mpr ⟨r, run_mono hr hle, hq⟩

theorem stepByFrame_walks {p : FlvPlayer} {count : Int} (hreg : ¬ p.isRegulating = true)
    (hone : count ≠ 1) (fuel : Nat) :
    stepByFrame fuel p count =
      (run (countRound (count - 1).sign) fuel
        ((count - 1).natAbs, { p with isRegulating := true })).bind fun q =>
          (backToVideo fuel q).bind (backToKeyFrame fuel) := by
  rw [stepByFrame, if_neg hreg, if_neg (show ¬ count - 1 = 0 by omega)]
  rfl

theorem stepByFrame_mono {n m : Nat} {p q : FlvPlayer} {count : Int}
    (h : stepByFrame n p count = some q) (hle : n ≤ m) : stepByFrame m p count = some q := by
  by_cases hreg : p.isRegulating = true
  · rw [stepByFrame, if_pos hreg] at h ⊢
    exact h
  by_cases hone : count = 1
  · rw [stepByFrame, if_neg hreg, if_pos (show count - 1 = 0 by omega)] at h ⊢
    exact h
  rw [stepByFrame_walks hreg hone] at h ⊢
  obtain ⟨r, hr, h⟩ := Option.bind_eq_some_iff.mp h
  obtain ⟨t, ht, h⟩ := Option.bind_eq_some_iff.mp h
  rw [run_mono hr hle, Option.bind_some, backToVideo_mono ht hle, Option.bind_some]
  exact backToKeyFrame_mono h hle

/-- Where it comes back does not depend on the fuel. -/
theorem stepByFrame_unique {n m : Nat} {p q r : FlvPlayer} {count : Int}
    (hq : stepByFrame n p count = some q) (hr : stepByFrame m p count = some r) : q = r := by
  have hq := stepByFrame_mono hq (Nat.le_max_left n m)
  have hr := stepByFrame_mono hr (Nat.le_max_right n m)
  exact Option.some.inj (hq.symm.trans hr)

/-- `step_by_frame` comes back when its three parts do. -/
theorem stepByFrame_ends {p t : FlvPlayer} {count : Int} (hreg : ¬ p.isRegulating = true)
    (hone : count ≠ 1) :
    (∃ fuel, stepByFrame fuel p count = some t) ↔
      ∃ q r, Ends (countRound (count - 1).sign)
          ((count - 1).natAbs, { p with isRegulating := true }) q ∧
        (∃ fuel, backToVideo fuel q = some r) ∧ ∃ fuel, backToKeyFrame fuel r = some t := by
  constructor
  · rintro ⟨fuel, ht⟩
    rw [stepByFrame_walks hreg hone] at ht
    obtain ⟨q, hq, ht⟩ := Option.bind_eq_some_iff.mp ht
    obtain ⟨r, hr, ht⟩ := Option.bind_eq_some_iff.mp ht
    exact ⟨q, r, ⟨fuel, hq⟩, ⟨fuel, hr⟩, fuel, ht⟩
  · rintro ⟨q, r, ⟨n₁, hq⟩, ⟨n₂, hr⟩, n₃, ht⟩
    -- one fuel for the three loops
    refine ⟨n₁ + n₂ + n₃, ?_⟩
    rw [stepByFrame_walks hreg hone, run_mono hq (show n₁ ≤ n₁ + n₂ + n₃ by omega),
      Option.bind_some, backToVideo_mono hr (show n₂ ≤ n₁ + n₂ + n₃ by omega),
      Option.bind_some, backToKeyFrame_mono ht (show n₃ ≤ n₁ + n₂ + n₃ by omega)]

/-! ## A cursor in front of the header -/

/-- The header of a segment, with nothing behind it yet. -/
def headerOnly : List UInt8 :=
  [0x46, 0x4C, 0x56, 0x01, 0x05, 0x00, 0x00, 0x00, 0x09, 0x00, 0x00, 0x00, 0x00]

/-- The cursor stands at the start of the file. -/
structure AtStartOfFile (p : FlvPlayer) : Prop where
  fileFd : p.fileFd = some ⟨headerOnly, 0⟩
  curIdx : p.curIdx = 0
  totalBytes : p.totalBytes = 13

/-- There the walk back stands still, at a tag that is no video tag. -/
theorem AtStartOfFile.back {p : FlvPlayer} (h : AtStartOfFile p) :
    AtStartOfFile p.back ∧ p.back.onVideo = false := by
  have hback : p.back = p.peek := by
    have hend : p.atEnd = false := by simp [atEnd, h.curIdx, h.totalBytes, tagHeaderSize]
    have hcursor : p.moveCursor (-1) = p := by
      rw [moveCursor_back, backCursor, if_neg (by rw [h.curIdx]; decide)]
    simp [FlvPlayer.back, move, hcursor, hend]
  have htype : p.peek.headerType = 0x06 := by
    simp [headerType, peek, readTagHeader, readTagData, seekCur, next, h.fileFd, Fd.next,
      headerOnly, tagHeaderSize, write]
  rw [hback]
  refine ⟨⟨?_, h.curIdx, h.totalBytes⟩, ?_⟩
  · simp [peek, readTagHeader, readTagData, seekCur, h.fileFd, Fd.next, Fd.skip, Fd.seekCur,
      headerOnly, tagHeaderSize]
  · simp [onVideo, htype, tagVideo]

end MiniSurveillance.FlvPlayer
