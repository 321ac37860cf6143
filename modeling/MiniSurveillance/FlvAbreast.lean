import MiniSurveillance.FlvAlike
import MiniSurveillance.FlvPlaces

/-!
# Two players on one way

A walk looks at the bytes of the file, and its buffers hold what it has just read of them,
unless the file breaks off under it. `stepByFrame_abreast`: a walk that is not cut off leads
two players abreast to the same place, whatever their buffers held.
-/

namespace MiniSurveillance.FlvPlayer
open Bytes Loops
open FlvFile (behind beside looked)

variable {p q p' q' : FlvPlayer} {content : List UInt8} {x y : Place}

/-! ## What a move leaves alone -/

theorem moveForward_moved (n : Nat) (p : FlvPlayer) : Moved p (p.moveForward n) := by
  induction n generalizing p with
  | zero => exact .refl p
  | succ n ih =>
    have htag : Moved p p.forwardTag := ⟨rfl, rfl, rfl, rfl, rfl, rfl, rfl, rfl, rfl⟩
    rw [moveForward]
    split
    · exact htag.trans (ih p.forwardTag)
    · exact .refl p

theorem moveBackward_moved (n : Nat) (p : FlvPlayer) : Moved p (p.moveBackward n) := by
  induction n generalizing p with
  | zero => exact .refl p
  | succ n ih =>
    have hread : Moved p p.readPreviousTagSize := ⟨rfl, rfl, rfl, rfl, rfl, rfl, rfl, rfl, rfl⟩
    rw [moveBackward]
    dsimp only
    split
    · split
      · exact hread
      · have hseek : Moved p ({ p.readPreviousTagSize with
            curIdx := toLong (p.readPreviousTagSize.curIdx -
              (4 + p.readPreviousTagSize.bufLen)) }.seekCur
              (toLong (-4 - p.readPreviousTagSize.bufLen))) :=
          ⟨rfl, rfl, rfl, rfl, rfl, rfl, rfl, rfl, rfl⟩
        exact hseek.trans (ih _)
    · exact .refl p

theorem move_moved (n : Int) (p : FlvPlayer) : Moved p (p.move n).1 := by
  have hcursor : Moved p (p.moveCursor n) := by
    unfold moveCursor
    split
    · exact moveForward_moved _ p
    · exact moveBackward_moved _ p
  unfold move
  dsimp only
  split
  · exact hcursor
  · exact hcursor.trans ⟨rfl, rfl, rfl, rfl, rfl, rfl, rfl, rfl, rfl⟩

theorem Moved.pendingRate (h : Moved p q) : q.pendingRate = p.pendingRate := by
  rw [FlvPlayer.pendingRate, FlvPlayer.pendingRate, h.needSleep, h.fps]

/-! ## Two players at one place -/

/-- The players `p` and `q` were moved to one place. -/
structure Led (content : List UInt8) (x : Place) (p q p' q' : FlvPlayer) : Prop where
  left : Stands p' content x
  right : Stands q' content x
  movedLeft : Moved p p'
  movedRight : Moved q q'

theorem Led.move {n : Int} (h : Led content x p q p' q') (hp : Stands (p'.move n).1 content y)
    (hq : Stands (q'.move n).1 content y) : Led content y p q (p'.move n).1 (q'.move n).1 :=
  ⟨hp, hq, h.movedLeft.trans (move_moved n p'), h.movedRight.trans (move_moved n q')⟩

/-- There they are still abreast. -/
theorem Abreast.led (h : Abreast p q) (hled : Led content x p q p' q') : Abreast p' q' where
  fileFd := hled.right.fileFd.trans hled.left.fileFd.symm
  isPlaying := hled.movedRight.isPlaying.trans (h.isPlaying.trans hled.movedLeft.isPlaying.symm)
  isRegulating := hled.movedRight.isRegulating.trans
    (h.isRegulating.trans hled.movedLeft.isRegulating.symm)
  stepOneFrame := hled.movedRight.stepOneFrame.trans
    (h.stepOneFrame.trans hled.movedLeft.stepOneFrame.symm)
  rate := by
    rw [hled.movedLeft.pendingRate, hled.movedRight.pendingRate]
    exact h.rate
  isPause := fun hon => hled.movedRight.isPause.trans
    ((h.isPause (hled.movedLeft.isPlaying.symm.trans hon)).trans hled.movedLeft.isPause.symm)
  needIFrame := fun hon => hled.movedRight.needIFrame.trans
    ((h.needIFrame (hled.movedLeft.isPlaying.symm.trans hon)).trans hled.movedLeft.needIFrame.symm)
  regulateTagCount := fun hon => hled.movedRight.regulateTagCount.trans
    ((h.regulateTagCount (hled.movedLeft.isRegulating.symm.trans hon)).trans
      hled.movedLeft.regulateTagCount.symm)
  curIdx := hled.right.curIdx.trans hled.left.curIdx.symm
  totalBytes := hled.right.totalBytes.trans hled.left.totalBytes.symm

/-! ## The first two loops -/

theorem count_abreast {i : Nat} {count : Int} (hlong : content.length < 2147483648)
    (hone : count ≠ 1) (hp : Stands p content ⟨i, i⟩) (hq : Stands q content ⟨i, i⟩)
    (hway : ¬ FlvFile.CountWalk content i count none) (fuel : Nat) :
    Option.Rel (fun p' q' => ∃ x, FlvFile.CountWalk content i count (some x) ∧
        Led content x p q p' q')
      (run (countRound (count - 1).sign) fuel ((count - 1).natAbs, p))
      (run (countRound (count - 1).sign) fuel ((count - 1).natAbs, q)) := by
  refine run_abreast (countRound_walks _) (countRound_walks _)
    (R := fun s t u => Counts content (count - 1).sign s t ∧
      Counts content (count - 1).sign s u ∧ Led content s.2 p q t.2 u.2)
    (F := FlvFile.countBy content (beside content (count - 1).sign)) (A := fun s => s.1 == 0)
    (B := fun s => FlvFile.noWay content s.2) (fun s t u hR => ?_) (fun s s' t u hR hs => ?_)
    (fun s t u hleaves hR => ?_)
    ⟨hp.counts _ _, hq.counts _ _, hp, hq, .refl p, .refl q⟩ (fun hnone => ?_) fuel
  · exact ⟨Counts.tests s t hR.1, Counts.tests s u hR.2.1⟩
  · obtain ⟨ht, htest⟩ := hR.1.step (sign_cases hone) hlong s s' t hs
    obtain ⟨hu, htest'⟩ := hR.2.1.step (sign_cases hone) hlong s s' u hs
    exact ⟨⟨ht, hu, hR.2.2.move ht.stands hu.stands⟩, htest, htest'⟩
  · exact ⟨s.2, (FlvFile.countWalk_iff content).mpr ⟨hone, _, hleaves, rfl⟩, hR.2.2⟩
  · exact hway ((FlvFile.countWalk_iff content).mpr ⟨hone, _, hnone, rfl⟩)

theorem backToVideo_abreast (hlong : content.length < 2147483648) (h : Led content x p q p' q')
    (hway : ¬ FlvFile.VideoWalk content x none) (fuel : Nat) :
    Option.Rel (fun p' q' => ∃ y, FlvFile.VideoWalk content x (some y) ∧ Led content y p q p' q')
      (backToVideo fuel p') (backToVideo fuel q') := by
  have hend := h.left.atEnd
  have hend' := h.right.atEnd
  unfold backToVideo
  cases hat : FlvFile.atEnd content x with
  | true =>
    rw [if_pos (hend.trans hat), if_pos (hend'.trans hat)]
    refine run_abreast videoRound_walks videoRound_walks
      (R := fun x s t => Led content x p q s t) (F := behind content) (A := fun _ => false)
      (B := FlvFile.videoAt content) (fun _ _ _ _ => ⟨rfl, rfl⟩) (fun x y s t hR hy => ?_)
      (fun y s t hleaves hR => ⟨y, .back hat hleaves, hR⟩) h (fun hnone => hway (.back hat hnone))
      fuel
    obtain ⟨hs, htest⟩ := hR.left.videoStep hlong x y s hy
    obtain ⟨ht, htest'⟩ := hR.right.videoStep hlong x y t hy
    exact ⟨hR.move hs ht, htest, htest'⟩
  | false =>
    rw [if_neg (by rw [hend, hat]; decide), if_neg (by rw [hend', hat]; decide)]
    exact .some ⟨x, .stays hat, h⟩

/-! ## The third loop -/

/-- Both players stand at a place, abreast. -/
structure Together (content : List UInt8) (x : Place) (p q : FlvPlayer) : Prop
    extends Abreast p q where
  left : Stands p content x
  right : Stands q content x

theorem Together.move {n : Int} (h : Together content x p q) (hp : Stands (p.move n).1 content y)
    (hq : Stands (q.move n).1 content y) : Together content y (p.move n).1 (q.move n).1 :=
  ⟨h.toAbreast.led ⟨hp, hq, move_moved n p, move_moved n q⟩, hp, hq⟩

theorem Together.regulate (h : Together content x p q) {n m : Int}
    (hnm : p.isRegulating = true → m = n) :
    Together content x { p with regulateTagCount := n } { q with regulateTagCount := m } :=
  { h with
    regulateTagCount := hnm
    left := h.left.regulate n
    right := h.right.regulate m }

/-- Both count a video tag they go back over. -/
theorem Together.keyFrameStep (hlong : content.length < 2147483648) {s t : Bool × FlvPlayer}
    (h : Together content x s.2 t.2) (hy : behind content x = some y) :
    Together content y (keyFrameStep s).2 (FlvPlayer.keyFrameStep t).2 := by
  have hs := h.left.back hlong hy
  have ht := h.right.back hlong hy
  have hback : Together content y s.2.back t.2.back := h.move hs.toStands ht.toStands
  rw [keyFrameStep_counts, keyFrameStep_counts]
  dsimp only
  rw [hs.onVideo, ht.onVideo]
  split
  · exact hback.regulate fun hon => congrArg (· + 1) (hback.regulateTagCount hon)
  · exact hback

theorem keyFrame_abreast (hlong : content.length < 2147483648) (h : Together content x p q)
    (hway : ¬ Leaves (behind content) FlvFile.atFirstTag (FlvFile.keyFrameAt content) x none)
    (fuel : Nat) :
    Option.Rel (fun s t : Bool × FlvPlayer => s.1 = t.1 ∧ Abreast s.2 t.2)
      (run keyFrameRound fuel (false, p)) (run keyFrameRound fuel (false, q)) := by
  refine run_abreast keyFrameRound_walks keyFrameRound_walks
    (R := fun x s t => s.1 = t.1 ∧ Together content x s.2 t.2)
    (fun x s t hR => ⟨hR.2.left.atFirstTag, hR.2.right.atFirstTag⟩) (fun x y s t hR hy => ?_)
    (fun y s t _ hR => ⟨hR.1, hR.2.toAbreast⟩) (s := (false, p)) (t := (false, q)) ⟨rfl, h⟩ hway
    fuel
  obtain ⟨_, htest⟩ := Stands.keyFrameStep hlong x y s hR.2.left hy
  obtain ⟨_, htest'⟩ := Stands.keyFrameStep hlong x y t hR.2.right hy
  exact ⟨⟨htest.trans htest'.symm, hR.2.keyFrameStep hlong hy⟩, htest, htest'⟩

theorem backToKeyFrame_abreast (hlong : content.length < 2147483648) (h : Abreast p q)
    (hled : Led content x { p with isRegulating := true } { q with isRegulating := true } p' q')
    (hway : ¬ FlvFile.KeyFrameWalk content x none) (fuel : Nat) :
    Option.Rel Abreast (backToKeyFrame fuel p') (backToKeyFrame fuel q') := by
  have hlook : looked content x = some x := by
    unfold looked
    exact if_pos (Classical.byContradiction fun hno => hway (.breaks (if_neg hno)))
  have hp := hled.left.look hlook
  have hq := hled.right.look hlook
  have hlooked := hled.move hp.toStands hq.toStands
  -- with the same count of tags they are abreast
  have hboth : Together content x { p'.look with regulateTagCount := 0 }
      { q'.look with regulateTagCount := 0 } := by
    have hbegin : Abreast { p with isRegulating := true, regulateTagCount := 0 }
        { q with isRegulating := true, regulateTagCount := 0 } :=
      { h with isRegulating := rfl, regulateTagCount := fun _ => rfl }
    have hp := hp.toStands.regulate 0
    have hq := hq.toStands.regulate 0
    exact ⟨hbegin.led ⟨hp, hq, { hlooked.movedLeft with regulateTagCount := rfl },
      { hlooked.movedRight with regulateTagCount := rfl }⟩, hp, hq⟩
  rw [backToKeyFrame_eq, backToKeyFrame_eq, hp.onKeyFrame, hq.onKeyFrame]
  cases hkey : FlvFile.keyFrameAt content x with
  | true =>
    rw [if_pos rfl, if_pos rfl]
    exact .some { hboth.toAbreast with isRegulating := rfl, regulateTagCount := nofun }
  | false =>
    rw [if_neg (by decide), if_neg (by decide), Option.map_eq_bind, Option.map_eq_bind]
    have hwalk := keyFrame_abreast hlong hboth (fun hnone => hway (.back hlook hkey hnone)) fuel
    refine rel_bind hwalk ?_
    rintro ⟨isIFrame, s⟩ ⟨_, t⟩ ⟨rfl, hst⟩
    cases isIFrame with
    | true => exact .some hst
    | false =>
      exact .some { hst with
        isRegulating := rfl, needIFrame := fun _ => rfl, regulateTagCount := nofun }

/-! ## The whole of `step_by_frame` -/

/-- A call that walks, walks in a file that `long` offsets can address, from where the
descriptor is, and the way is not cut off. -/
def KeepsWay (p : FlvPlayer) (count : Int) : Prop :=
  p.isRegulating = true ∨ count = 1 ∨
  ∃ fd, p.fileFd = some fd ∧ p.curIdx = fd.offset ∧ p.totalBytes = fd.content.length ∧
    fd.content.length < 2147483648 ∧ ¬ FlvFile.CutOff fd.content fd.offset count

theorem Abreast.keepsWay (h : Abreast p q) {count : Int} (hway : KeepsWay p count) :
    KeepsWay q count := by
  unfold KeepsWay
  rw [h.isRegulating, h.fileFd, h.curIdx, h.totalBytes]
  exact hway

/-- `step_by_frame` leads players abreast to the same place, if its way is not cut off. -/
theorem stepByFrame_abreast (h : Abreast p q) {count : Int} (hway : KeepsWay p count)
    (fuel : Nat) : Option.Rel Abreast (stepByFrame fuel p count) (stepByFrame fuel q count) := by
  by_cases hreg : p.isRegulating = true
  · rw [stepByFrame, stepByFrame, if_pos hreg, if_pos (h.isRegulating.trans hreg)]
    exact .some h
  have hreg' : ¬ q.isRegulating = true := by rwa [h.isRegulating]
  by_cases hone : count = 1
  · rw [stepByFrame, stepByFrame, if_neg hreg, if_neg hreg',
      if_pos (show count - 1 = 0 by omega), if_pos (show count - 1 = 0 by omega)]
    exact .some { h with
      isRegulating := rfl, regulateTagCount := fun hon => absurd hon Bool.false_ne_true }
  obtain ⟨fd, hfd, hcur, htotal, hlong, huncut⟩ :=
    (hway.resolve_left hreg).resolve_left hone
  rw [stepByFrame_walks hreg hone, stepByFrame_walks hreg' hone]
  have hp : Stands { p with isRegulating := true } fd.content ⟨fd.offset, fd.offset⟩ :=
    ⟨hfd, hcur, htotal, fun _ => rfl⟩
  have hq : Stands { q with isRegulating := true } fd.content ⟨fd.offset, fd.offset⟩ :=
    ⟨h.fileFd.trans hfd, h.curIdx.trans hcur, h.totalBytes.trans htotal, fun _ => rfl⟩
  have hfirst := count_abreast hlong hone hp hq (fun hnone => huncut (.countBreaks hnone)) fuel
  refine rel_bind hfirst ?_
  rintro p' q' ⟨x, hcount, hled⟩
  have hsecond := backToVideo_abreast hlong hled (fun hnone => huncut (.videoBreaks hcount hnone))
    fuel
  refine rel_bind hsecond ?_
  rintro p' q' ⟨y, hvideo, hled⟩
  exact backToKeyFrame_abreast hlong h hled (fun hnone => huncut (.keyFrame hcount hvideo hnone))
    fuel

end MiniSurveillance.FlvPlayer
