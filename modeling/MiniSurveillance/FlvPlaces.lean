import MiniSurveillance.FlvCursor
import MiniSurveillance.FlvSync

/-!
# The places a walk comes to

`step_by_frame` follows numbers that stand in the file: ahead the size in a tag's header,
back the previous tag size in front of the cursor. `FlvFile` follows them on the bytes
alone. Ahead every step grows the offset, so `landsAhead` is a function. Back nothing makes
the walk get anywhere: in front of a size of zero, or of one that leads before the start of
the file, it stands still.

* `Sees.back`, `Stands.forwardTag`: the player's steps are those on the bytes.
* `stepByFrame_ends_iff`: when `step_by_frame` comes back.

Where the file breaks off under the walk, or a size leads out of what `long` can name, the
bytes no longer say what a step does (`CutOff`): a short read leaves in the buffers what was
there before.
-/

namespace MiniSurveillance
open Bytes Loops

/-- Where a walk stands in a file: the offset of the descriptor and the cursor kept beside
it. They are the same unless a size led before the start of the file: the seek failed then,
and the cursor is negative. -/
structure Place where
  offset : Nat
  cursor : Int
deriving DecidableEq, Repr

namespace FlvFile
open FlvPlayer (tagHeaderSize flvHeaderLength tagVideo)

variable (content : List UInt8)

/-! ## Tags -/

def byteAt (i : Nat) : UInt8 := content.getD i 0

/-- The previous tag size in front of an offset. -/
def sizeBefore (i : Nat) : Nat :=
  be32 (byteAt content (i - 4)) (byteAt content (i - 3)) (byteAt content (i - 2))
    (byteAt content (i - 1))

/-- The size in the header of the tag at an offset. -/
def dataSize (i : Nat) : Nat :=
  be24 (byteAt content (i + 1)) (byteAt content (i + 2)) (byteAt content (i + 3))

/-- No tag header fits behind the cursor. -/
def atEnd (x : Place) : Bool := x.cursor + tagHeaderSize > content.length

theorem atEnd_iff {content : List UInt8} {x : Place} :
    atEnd content x = true ↔ (content.length : Int) < x.cursor + 11 := decide_eq_true_iff

/-- The cursor is behind the header of the file. -/
def atFirstTag (x : Place) : Bool := x.cursor == flvHeaderLength + 4

/-- The tag at a place is a video tag. -/
def videoAt (x : Place) : Bool :=
  !atEnd content x && (byteAt content x.offset).toNat &&& 0x1F == tagVideo

/-- The tag at a place is a video frame. -/
def frameAt (x : Place) : Bool := videoAt content x && byteAt content (x.offset + 12) == 0x01

/-- The tag at a place is an I frame. -/
def keyFrameAt (x : Place) : Bool :=
  videoAt content x && byteAt content (x.offset + 11) == 0x17 &&
    byteAt content (x.offset + 12) == 0x01

/-! ## One step -/

/-- A place, if the file has the thirteen bytes a look at its tag reads. At the end no look
is taken. -/
def looked (x : Place) : Option Place :=
  if atEnd content x = true ∨ x.offset + 13 ≤ content.length then some x else none

/-- Where the size in front of an offset leads, in 32-bit arithmetic. -/
def target (i : Nat) : Int := i + toLong (-4 - sizeBefore content i)

/-- The place one tag back. -/
def behind (x : Place) : Option Place :=
  if x.cursor ≤ 0 then looked content x
  else if x.offset < 4 ∨ content.length < x.offset then none
  else if sizeBefore content x.offset = 0 then looked content x
  else if target content x.offset < 0 then looked content ⟨x.offset, target content x.offset⟩
  else if target content x.offset < 2147483648 then
    looked content ⟨(target content x.offset).toNat, target content x.offset⟩
  else none

/-- The offset one tag ahead. -/
def ahead (i : Nat) : Nat := i + 15 + dataSize content i

/-- The place there, where the cursor is the offset. -/
def placeAhead (i : Nat) : Place := ⟨ahead content i, ahead content i⟩

/-- The place one tag ahead; from the end no step is taken. -/
def inFront (x : Place) : Option Place :=
  if atEnd content x = true then some x else looked content (placeAhead content x.offset)

/-! ## The first loop -/

/-- There is no way on. -/
def noWay (x : Place) : Bool := atEnd content x || atFirstTag x

/-- A step of the first loop, which counts frames down. -/
def countBy (step : Place → Option Place) (s : Nat × Place) : Option (Nat × Place) :=
  (step s.2).map fun y => (if frameAt content y = true then s.1 - 1 else s.1, y)

/-- Where the first loop leaves ahead: at the end of the file, or at the last of `n` frames. -/
def landsAhead (n i : Nat) : Option (Nat × Place) :=
  if n = 0 then some (0, ⟨i, i⟩)
  else if content.length < i + 11 then some (n, ⟨i, i⟩)
  else if atEnd content (placeAhead content i) = true then some (n, placeAhead content i)
  else if content.length < ahead content i + 13 then none
  else landsAhead (if frameAt content (placeAhead content i) = true then n - 1 else n)
    (ahead content i)
termination_by content.length - i
decreasing_by
  simp only [ahead]
  omega

/-- Where the first loop leaves. -/
inductive CountWalk (i : Nat) (count : Int) : Option Place → Prop
  | back {o : Option (Nat × Place)} : count < 1 →
      Leaves (countBy content (behind content)) (fun s => s.1 == 0) (fun s => noWay content s.2)
        ((1 - count).toNat, ⟨i, i⟩) o →
      CountWalk i count (o.map Prod.snd)
  | ahead : 1 < count →
      CountWalk i count ((landsAhead content (count - 1).toNat i).map Prod.snd)

/-! ## The other two -/

/-- Where the second loop leaves: from the end of the file it goes back to a video tag. -/
inductive VideoWalk (x : Place) : Option Place → Prop
  | stays : atEnd content x = false → VideoWalk x (some x)
  | back {o : Option Place} : atEnd content x = true →
      Leaves (behind content) (fun _ => false) (videoAt content) x o → VideoWalk x o

/-- Where the third loop leaves: it goes back to an I frame or to the first tag. -/
inductive KeyFrameWalk (x : Place) : Option Place → Prop
  | breaks : looked content x = none → KeyFrameWalk x none
  | stays : looked content x = some x → keyFrameAt content x = true → KeyFrameWalk x (some x)
  | back {o : Option Place} : looked content x = some x → keyFrameAt content x = false →
      Leaves (behind content) atFirstTag (keyFrameAt content) x o → KeyFrameWalk x o

/-- Where the three loops leave from an offset: at a place, or nowhere that the bytes tell. -/
inductive SeekWalk (i : Nat) (count : Int) : Option Place → Prop
  | countBreaks : CountWalk content i count none → SeekWalk i count none
  | videoBreaks {x : Place} : CountWalk content i count (some x) → VideoWalk content x none →
      SeekWalk i count none
  | keyFrame {x y : Place} {o : Option Place} : CountWalk content i count (some x) →
      VideoWalk content x (some y) → KeyFrameWalk content y o → SeekWalk i count o

/-- On the way the file breaks off, or a size leads out of what `long` can name. -/
def CutOff (i : Nat) (count : Int) : Prop := SeekWalk content i count none

/-! ## Both directions -/

/-- The place one tag on in a direction. -/
def beside (dire : Int) (x : Place) : Option Place :=
  if dire < 0 then behind content x else inFront content x

theorem frameAt_of_atEnd {content : List UInt8} {x : Place} (h : atEnd content x = true) :
    frameAt content x = false := by
  simp [frameAt, videoAt, h]

theorem inFront_eq {i : Nat} (hroom : ¬ content.length < i + 11) :
    inFront content ⟨i, i⟩ = looked content (placeAhead content i) := by
  refine if_neg fun hend => hroom ?_
  have := atEnd_iff.mp hend
  simp only at this
  omega

/-- Ahead the loop always leaves, at the latest where the file ends. -/
theorem leaves_landsAhead (n i : Nat) :
    Leaves (countBy content (inFront content)) (fun s => s.1 == 0) (fun s => noWay content s.2)
      (n, ⟨i, i⟩) (landsAhead content n i) := by
  fun_induction landsAhead content n i with
  | case1 i => exact .stays rfl
  | case2 n i hn hshort =>
    have hend : atEnd content ⟨i, i⟩ = true := atEnd_iff.mpr (by
      show (content.length : Int) < i + 11
      omega)
    refine .breaks (by simpa using hn) ?_ (by simp [noWay, hend])
    simp [countBy, inFront, hend, frameAt_of_atEnd hend]
  | case3 n i hn hroom hend =>
    refine .breaks (by simpa using hn) ?_ (by simp [noWay, hend])
    simp [countBy, inFront_eq content hroom, looked, hend, frameAt_of_atEnd hend]
  | case4 n i hn hroom hmore hshort =>
    refine .fails (by simpa using hn) ?_
    have hnone : looked content (placeAhead content i) = none := if_neg (by
      rintro (hend | hwhole)
      · exact hmore hend
      · exact absurd hwhole (Nat.not_le.mpr hshort))
    simp [countBy, inFront_eq content hroom, hnone]
  | case5 n i hn hroom hmore hwhole ih =>
    refine .goes (by simpa using hn) ?_ ?_ ih
    · have hsome : looked content (placeAhead content i) = some (placeAhead content i) :=
        if_pos (.inr (Nat.not_lt.mp hwhole))
      simp [countBy, inFront_eq content hroom, hsome]
      rfl
    · have hfirst : atFirstTag (placeAhead content i) = false := by
        simp only [atFirstTag, placeAhead, ahead, flvHeaderLength, beq_eq_false_iff_ne]
        omega
      show (atEnd content (placeAhead content i) || atFirstTag (placeAhead content i)) = false
      rw [hfirst, Bool.or_false]
      exact eq_false_of_ne_true hmore

/-- The walk of the first loop, in either direction. -/
theorem countWalk_iff {i : Nat} {count : Int} {o : Option Place} :
    CountWalk content i count o ↔ count ≠ 1 ∧ ∃ s,
      Leaves (countBy content (beside content (count - 1).sign)) (fun s => s.1 == 0)
        (fun s => noWay content s.2) ((count - 1).natAbs, ⟨i, i⟩) s ∧ o = s.map Prod.snd := by
  have hback (hcount : count < 1) : beside content (count - 1).sign = behind content ∧
      (count - 1).natAbs = (1 - count).toNat := by
    rw [Int.sign_eq_neg_one_of_neg (by omega)]
    exact ⟨rfl, by omega⟩
  have hahead (hcount : 1 < count) : beside content (count - 1).sign = inFront content ∧
      (count - 1).natAbs = (count - 1).toNat := by
    rw [Int.sign_eq_one_of_pos (by omega)]
    exact ⟨rfl, by omega⟩
  constructor
  · intro h
    cases h with
    | @back s hcount hleaves =>
      obtain ⟨hstep, hn⟩ := hback hcount
      refine ⟨by omega, s, ?_, rfl⟩
      rw [hstep, hn]
      exact hleaves
    | ahead hcount =>
      obtain ⟨hstep, hn⟩ := hahead hcount
      refine ⟨by omega, _, ?_, rfl⟩
      rw [hstep, hn]
      exact leaves_landsAhead content _ i
  · rintro ⟨hne, s, hleaves, rfl⟩
    rcases Int.lt_or_gt_of_ne hne with hcount | hcount
    · obtain ⟨hstep, hn⟩ := hback hcount
      rw [hstep, hn] at hleaves
      exact .back hcount hleaves
    · obtain ⟨hstep, hn⟩ := hahead hcount
      rw [hstep, hn] at hleaves
      rw [hleaves.unique (leaves_landsAhead content _ i)]
      exact .ahead hcount

/-! ## One way only -/

theorem CountWalk.unique {i : Nat} {count : Int} {o o' : Option Place}
    (h : CountWalk content i count o) (h' : CountWalk content i count o') : o = o' := by
  obtain ⟨_, s, hs, rfl⟩ := (countWalk_iff content).mp h
  obtain ⟨_, s', hs', rfl⟩ := (countWalk_iff content).mp h'
  exact congrArg _ (hs.unique hs')

theorem VideoWalk.unique {x : Place} {o o' : Option Place} (h : VideoWalk content x o)
    (h' : VideoWalk content x o') : o = o' := by
  cases h with
  | stays hroom =>
    cases h' with
    | stays _ => rfl
    | back hend _ => cases hroom.symm.trans hend
  | back hend hleaves =>
    cases h' with
    | stays hroom => cases hroom.symm.trans hend
    | back _ hleaves' => exact hleaves.unique hleaves'

theorem KeyFrameWalk.unique {x : Place} {o o' : Option Place} (h : KeyFrameWalk content x o)
    (h' : KeyFrameWalk content x o') : o = o' := by
  cases h with
  | breaks hlook =>
    cases h' with
    | breaks _ => rfl
    | stays hlook' _ => cases hlook.symm.trans hlook'
    | back hlook' _ _ => cases hlook.symm.trans hlook'
  | stays hlook hkey =>
    cases h' with
    | breaks hlook' => cases hlook.symm.trans hlook'
    | stays _ _ => rfl
    | back _ hno _ => cases hkey.symm.trans hno
  | back hlook hno hleaves =>
    cases h' with
    | breaks hlook' => cases hlook.symm.trans hlook'
    | stays _ hkey => cases hkey.symm.trans hno
    | back _ _ hleaves' => exact hleaves.unique hleaves'

theorem SeekWalk.unique {i : Nat} {count : Int} {o o' : Option Place}
    (h : SeekWalk content i count o) (h' : SeekWalk content i count o') : o = o' := by
  cases h with
  | countBreaks hcount =>
    cases h' with
    | countBreaks _ => rfl
    | videoBreaks hcount' _ => cases hcount.unique content hcount'
    | keyFrame hcount' _ _ => cases hcount.unique content hcount'
  | videoBreaks hcount hvideo =>
    cases h' with
    | countBreaks hcount' => cases hcount.unique content hcount'
    | videoBreaks _ _ => rfl
    | keyFrame hcount' hvideo' _ =>
      cases hcount.unique content hcount'
      cases hvideo.unique content hvideo'
  | keyFrame hcount hvideo hkey =>
    cases h' with
    | countBreaks hcount' => cases hcount.unique content hcount'
    | videoBreaks hcount' hvideo' =>
      cases hcount.unique content hcount'
      cases hvideo.unique content hvideo'
    | keyFrame hcount' hvideo' hkey' =>
      cases hcount.unique content hcount'
      cases hvideo.unique content hvideo'
      exact hkey.unique content hkey'

/-- A way that leads to an end is not cut off. -/
theorem SeekWalk.not_cutOff {i : Nat} {count : Int} {y : Place}
    (h : SeekWalk content i count (some y)) : ¬ CutOff content i count := fun hcut => by
  cases h.unique content hcut

end FlvFile

namespace FlvPlayer
open FlvFile (byteAt sizeBefore dataSize looked target behind ahead placeAhead inFront beside)

variable {p : FlvPlayer} {content : List UInt8} {x y : Place}

/-! ## The player at a place -/

/-- The player stands at a place of a file. -/
structure Stands (p : FlvPlayer) (content : List UInt8) (x : Place) : Prop where
  fileFd : p.fileFd = some ⟨content, x.offset⟩
  curIdx : p.curIdx = x.cursor
  totalBytes : p.totalBytes = content.length
  together : 0 < x.cursor → x.cursor = x.offset

/-- It has the head of the tag there in its buffers, unless it stands at the end. -/
structure Sees (p : FlvPlayer) (content : List UInt8) (x : Place) : Prop
    extends Stands p content x where
  whole : FlvFile.atEnd content x = true ∨ x.offset + 13 ≤ content.length
  type : FlvFile.atEnd content x = false →
    p.headerType = (byteAt content x.offset).toNat &&& 0x1F
  byte₀ : FlvFile.atEnd content x = false → p.tagData 0 = byteAt content (x.offset + 11)
  byte₁ : FlvFile.atEnd content x = false → p.tagData 1 = byteAt content (x.offset + 12)

theorem Stands.atEnd (h : Stands p content x) : p.atEnd = FlvFile.atEnd content x := by
  rw [FlvPlayer.atEnd, FlvFile.atEnd, h.curIdx, h.totalBytes]

theorem Stands.atFirstTag (h : Stands p content x) : p.atFirstTag = FlvFile.atFirstTag x := by
  rw [FlvPlayer.atFirstTag, FlvFile.atFirstTag, h.curIdx]

theorem Sees.onVideo (h : Sees p content x) : p.onVideo = FlvFile.videoAt content x := by
  rw [FlvPlayer.onVideo, FlvFile.videoAt, h.atEnd]
  cases hend : FlvFile.atEnd content x with
  | true => rfl
  | false => rw [h.type hend]

theorem Sees.onFrame (h : Sees p content x) : p.onFrame = FlvFile.frameAt content x := by
  rw [FlvPlayer.onFrame, FlvFile.frameAt, h.onVideo]
  cases hend : FlvFile.atEnd content x with
  | true => simp [FlvFile.videoAt, hend]
  | false => rw [h.byte₁ hend]

theorem Sees.onKeyFrame (h : Sees p content x) : p.onKeyFrame = FlvFile.keyFrameAt content x := by
  rw [FlvPlayer.onKeyFrame, FlvFile.keyFrameAt, h.onVideo]
  cases hend : FlvFile.atEnd content x with
  | true => simp [FlvFile.videoAt, hend]
  | false => rw [h.byte₀ hend, h.byte₁ hend]

/-! ## Reading there -/

theorem next_whole {o n : Nat} (hroom : o + n ≤ content.length) :
    (Fd.next ⟨content, o⟩ n).length = n := next_length hroom

/-- What a read that does not reach the end leaves in a buffer. -/
theorem write_next (m : Mem) {o n i : Nat} (hi : i < n) (hroom : o + n ≤ content.length) :
    write m 0 (Fd.next ⟨content, o⟩ n) i = byteAt content (o + i) := by
  have hlen := next_whole hroom
  rw [write_zero_of_lt (by omega), Fd.next, byteAt, List.getD_eq_getElem?_getD,
    List.getElem?_take_of_lt hi, List.getElem?_drop, List.getD_eq_getElem?_getD]

theorem seekCur_to {o j : Nat} {d : Int} (h : (o : Int) + d = j) :
    Fd.seekCur ⟨content, o⟩ d = ⟨content, j⟩ := by
  have hto : ((o : Int) + d).toNat = j := by omega
  rw [Fd.seekCur, if_pos (by show 0 ≤ (o : Int) + d; omega)]
  exact congrArg (Fd.mk content) hto

/-- A look at the tag at a place. -/
theorem Stands.peek (h : Stands p content x) (hroom : x.offset + 13 ≤ content.length) :
    Sees p.peek content x := by
  have hheader : (Fd.next ⟨content, x.offset⟩ 11).length = 11 := next_whole (by omega)
  have hdata : (Fd.next ⟨content, x.offset + 11⟩ 2).length = 2 := next_whole hroom
  have hread : (p.readTagHeader 0 tagHeaderSize).fileFd = some ⟨content, x.offset + 11⟩ := by
    show p.fileFd.map _ = _
    rw [h.fileFd, Option.map_some, tagHeaderSize, hheader]
    rfl
  have hread₂ : ((p.readTagHeader 0 tagHeaderSize).readTagData 2).fileFd =
      some ⟨content, x.offset + 13⟩ := by
    show (p.readTagHeader 0 tagHeaderSize).fileFd.map _ = _
    rw [hread, Option.map_some, hdata]
    rfl
  refine ⟨⟨?_, h.curIdx, h.totalBytes, h.together⟩, .inr hroom, fun _ => ?_, fun _ => ?_,
    fun _ => ?_⟩
  · show ((p.readTagHeader 0 tagHeaderSize).readTagData 2).fileFd.map _ = _
    rw [hread₂, Option.map_some,
      seekCur_to (j := x.offset) (by simp only [tagHeaderSize]; omega)]
  · show (write p.tagHeader 0 (p.next tagHeaderSize) 0).toNat &&& 0x1F = _
    rw [FlvPlayer.next, h.fileFd]
    show (write p.tagHeader 0 (Fd.next ⟨content, x.offset⟩ 11) 0).toNat &&& 0x1F = _
    rw [write_next _ (by decide) (by omega), Nat.add_zero]
  · show write p.tagData 0 ((p.readTagHeader 0 tagHeaderSize).next 2) 0 = _
    rw [FlvPlayer.next, hread]
    exact write_next _ (by decide) hroom
  · show write p.tagData 0 ((p.readTagHeader 0 tagHeaderSize).next 2) 1 = _
    rw [FlvPlayer.next, hread]
    exact write_next _ (by decide) hroom

/-- At the end nothing is looked at. -/
theorem Stands.sees (h : Stands p content x) (hend : FlvFile.atEnd content x = true) :
    Sees p content x := by
  have hno : ¬ FlvFile.atEnd content x = false := by rw [hend]; decide
  exact ⟨h, .inl hend, fun hfalse => absurd hfalse hno, fun hfalse => absurd hfalse hno,
    fun hfalse => absurd hfalse hno⟩

/-- What `move` makes of a cursor at a place, if the look goes through. -/
theorem Stands.move {n : Int} (h : Stands (p.moveCursor n) content x)
    (hlook : looked content x = some y) : Sees (p.move n).1 content y := by
  unfold looked at hlook
  split at hlook
  · next hwhole =>
    cases hlook
    have hend := h.atEnd
    unfold FlvPlayer.move
    dsimp only
    split
    · next hat => exact h.sees (hend.symm.trans hat)
    · next hat =>
      have hat : FlvFile.atEnd content x = false := hend.symm.trans (eq_false_of_ne_true hat)
      exact h.peek (hwhole.resolve_left (by rw [hat]; decide))
  · cases hlook

/-! ## One tag back -/

/-- The size in front of the cursor is read without moving. -/
theorem Stands.readPreviousTagSize (h : Stands p content x) (hlow : 4 ≤ x.offset)
    (hhigh : x.offset ≤ content.length) :
    Stands p.readPreviousTagSize content x ∧
      p.readPreviousTagSize.bufLen = sizeBefore content x.offset := by
  obtain ⟨o, ho⟩ : ∃ o, x.offset = o + 4 := ⟨x.offset - 4, by omega⟩
  have hback : (p.seekCur (-4)).fileFd = some ⟨content, o⟩ := by
    show p.fileFd.map _ = _
    rw [h.fileFd, ho, Option.map_some, seekCur_to (j := o) (by omega)]
  have hlen : (Fd.next ⟨content, o⟩ 4).length = 4 := next_whole (by omega)
  have hbyte (i : Nat) (hi : i < 4) :
      p.readPreviousTagSize.tagHeader i = byteAt content (o + i) := by
    show write p.tagHeader 0 ((p.seekCur (-4)).next 4) i = _
    rw [FlvPlayer.next, hback]
    exact write_next _ hi (by omega)
  refine ⟨⟨?_, h.curIdx, h.totalBytes, h.together⟩, ?_⟩
  · show (p.seekCur (-4)).fileFd.map _ = _
    rw [hback, Option.map_some, hlen, ho]
    rfl
  · show be32 (p.readPreviousTagSize.tagHeader 0) (p.readPreviousTagSize.tagHeader 1)
      (p.readPreviousTagSize.tagHeader 2) (p.readPreviousTagSize.tagHeader 3) = _
    rw [hbyte 0 (by decide), hbyte 1 (by decide), hbyte 2 (by decide), hbyte 3 (by decide),
      sizeBefore, ho]
    rfl

/-- Back by a size that is not zero: to the place it leads to, or nowhere. -/
theorem Stands.seekBack (h : Stands p content x) (hcur : x.cursor = x.offset)
    (hlong : x.offset < 2147483648) (hbuf : p.bufLen = sizeBefore content x.offset)
    (hto : target content x.offset < 2147483648) :
    Stands ({ p with curIdx := toLong (p.curIdx - (4 + p.bufLen)) }.seekCur
        (toLong (-4 - p.bufLen))) content
      (if target content x.offset < 0 then ⟨x.offset, target content x.offset⟩
        else ⟨(target content x.offset).toNat, target content x.offset⟩) := by
  -- `cur_idx` is wrapped to what the seek aims at
  have haim : toLong (p.curIdx - (4 + p.bufLen)) = target content x.offset := by
    have hlow : -2147483648 ≤ target content x.offset := by
      have := Int.le_bmod (x := -4 - (sizeBefore content x.offset : Int)) (m := 4294967296)
        (by decide)
      simp only [target, toLong]
      omega
    have hmod : toLong (p.curIdx - (4 + p.bufLen)) = toLong (target content x.offset) := by
      unfold target toLong
      rw [Int.add_bmod_bmod, h.curIdx, hcur, hbuf]
      congr 1
      omega
    rw [hmod, toLong_eq hlow hto]
  rw [haim, hbuf]
  split
  · next hneg =>
    refine ⟨?_, rfl, h.totalBytes, fun hpos => ?_⟩
    · show p.fileFd.map _ = _
      rw [h.fileFd, Option.map_some, Fd.seekCur, if_neg]
      exact fun hle => absurd hneg (Int.not_lt.mpr hle)
    · exact absurd hpos (Int.not_lt.mpr (Int.le_of_lt hneg))
  · next hpos =>
    have hpos : 0 ≤ target content x.offset := Int.not_lt.mp hpos
    refine ⟨?_, rfl, h.totalBytes, fun _ => (Int.toNat_of_nonneg hpos).symm⟩
    show p.fileFd.map _ = _
    rw [h.fileFd, Option.map_some, seekCur_to (Int.toNat_of_nonneg hpos).symm]

/-- A step back comes to the place behind. -/
theorem Stands.back (h : Stands p content x) (hlong : content.length < 2147483648)
    (hbehind : behind content x = some y) : Sees p.back content y := by
  have hcursor : ∀ z, Stands p.backCursor content z → looked content z = some y →
      Sees p.back content y := fun z hz hlook =>
    Stands.move (p := p) (n := -1) (by rwa [moveCursor_back]) hlook
  unfold behind at hbehind
  split at hbehind
  · next hstill =>
    refine hcursor x ?_ hbehind
    rw [backCursor, if_neg (by rw [h.curIdx]; omega)]
    exact h
  · next hpos =>
    have hpos : 0 < x.cursor := Int.not_le.mp hpos
    split at hbehind
    · cases hbehind
    · next hroom =>
      obtain ⟨hread, hbuf⟩ := h.readPreviousTagSize (by omega) (by omega)
      have hcur : p.backCursor = if p.readPreviousTagSize.bufLen = 0 then p.readPreviousTagSize
          else { p.readPreviousTagSize with
            curIdx := toLong (p.readPreviousTagSize.curIdx -
              (4 + p.readPreviousTagSize.bufLen)) }.seekCur
              (toLong (-4 - p.readPreviousTagSize.bufLen)) := by
        rw [backCursor, if_pos (by rw [h.curIdx]; exact hpos)]
      split at hbehind
      · next hzero =>
        refine hcursor x ?_ hbehind
        rw [hcur, if_pos (by rw [hbuf, hzero])]
        exact hread
      · next hne =>
        have hseek := hread.seekBack (h.together hpos) (by omega) hbuf
        rw [if_neg (by rw [hbuf]; exact hne)] at hcur
        split at hbehind
        · next hneg =>
          have hseek := hseek (by omega)
          rw [if_pos hneg, ← hcur] at hseek
          exact hcursor _ hseek hbehind
        · next hnonneg =>
          split at hbehind
          · next hsmall =>
            have hseek := hseek hsmall
            rw [if_neg hnonneg, ← hcur] at hseek
            exact hcursor _ hseek hbehind
          · cases hbehind

/-! ## One tag ahead -/

/-- A step ahead comes behind the tag at the cursor. -/
theorem Stands.forwardTag {i : Nat} (h : Stands p content ⟨i, i⟩)
    (hroom : i + 11 ≤ content.length) :
    Stands p.forwardTag content (placeAhead content i) := by
  have hlen : (Fd.next ⟨content, i⟩ 11).length = 11 := next_whole hroom
  have hgot : p.got tagHeaderSize = 11 := by
    rw [got, h.fileFd]
    show ((Fd.next ⟨content, i⟩ 11).length : Int) = 11
    rw [hlen]
    rfl
  let q := ((p.readTagHeader 0 tagHeaderSize).addCurIdx (p.got tagHeaderSize)).setBufLen
  have hbyte (j : Nat) (hj : j < 11) : q.tagHeader j = byteAt content (i + j) := by
    show write p.tagHeader 0 (p.next tagHeaderSize) j = _
    rw [FlvPlayer.next, h.fileFd]
    exact write_next _ hj hroom
  have hbuf : q.bufLen = dataSize content i := by
    show be24 (q.tagHeader 1) (q.tagHeader 2) (q.tagHeader 3) = _
    rw [hbyte 1 (by decide), hbyte 2 (by decide), hbyte 3 (by decide), dataSize]
  have hfd : q.fileFd = some ⟨content, i + 11⟩ := by
    show p.fileFd.map _ = _
    rw [h.fileFd, Option.map_some, tagHeaderSize, hlen]
    rfl
  refine ⟨?_, ?_, h.totalBytes, fun _ => rfl⟩
  · show q.fileFd.map _ = _
    rw [hfd, Option.map_some, seekCur_to (j := ahead content i) (by rw [hbuf, ahead]; omega)]
    rfl
  · show p.curIdx + p.got tagHeaderSize + ((q.bufLen : Int) + 4) = (ahead content i : Nat)
    have hcur : p.curIdx = (i : Int) := h.curIdx
    rw [hgot, hcur, hbuf, ahead]
    omega

/-- At the end a move ahead goes nowhere. -/
theorem Stands.move_end (h : Stands p content x) (hend : FlvFile.atEnd content x = true) :
    (p.move 1).1 = p := by
  have hat : p.atEnd = true := h.atEnd.trans hend
  have hroom : ¬ p.curIdx + tagHeaderSize ≤ p.totalBytes := by simpa [FlvPlayer.atEnd] using hat
  have hcursor : p.moveCursor 1 = p := by
    show p.moveForward 1 = p
    rw [moveForward, if_neg hroom]
  unfold FlvPlayer.move
  dsimp only
  rw [hcursor, if_pos hat]

/-- A step ahead comes to the place in front. -/
theorem Stands.inFront (h : Stands p content x) (htogether : x.cursor = x.offset)
    (hy : inFront content x = some y) :
    Sees (p.move 1).1 content y ∧ y.cursor = y.offset := by
  unfold FlvFile.inFront at hy
  split at hy
  · next hend =>
    cases hy
    rw [h.move_end hend]
    exact ⟨h.sees hend, htogether⟩
  · next hmore =>
    have hroom : x.offset + 11 ≤ content.length := by
      have := (not_congr FlvFile.atEnd_iff).mp hmore
      omega
    have hcursor : p.moveCursor 1 = p.forwardTag := by
      show p.moveForward 1 = _
      have hle : p.curIdx + tagHeaderSize ≤ p.totalBytes := by
        rw [h.curIdx, h.totalBytes, htogether]
        simp only [tagHeaderSize]
        omega
      rw [moveForward, if_pos hle]
      rfl
    refine ⟨Stands.move (p := p) (n := 1) (x := placeAhead content x.offset) ?_ hy, ?_⟩
    · rw [hcursor]
      obtain ⟨i, c⟩ := x
      obtain rfl : c = i := htogether
      exact h.forwardTag hroom
    · unfold looked at hy
      split at hy
      · cases hy
        rfl
      · cases hy

/-! ## The three loops -/

/-- The states of the first loop on the bytes and with the player. Ahead the cursor is the
offset. -/
structure Counts (content : List UInt8) (dire : Int) (s : Nat × Place) (t : Nat × FlvPlayer) :
    Prop where
  count : s.1 = t.1
  stands : Stands t.2 content s.2
  together : 0 ≤ dire → s.2.cursor = s.2.offset

theorem Counts.tests {dire : Int} (s : Nat × Place) (t : Nat × FlvPlayer)
    (h : Counts content dire s t) : (t.1 == 0) = (s.1 == 0) := by
  rw [h.count]

theorem Counts.step {dire : Int} (hdire : dire = -1 ∨ dire = 1)
    (hlong : content.length < 2147483648) (s s' : Nat × Place) (t : Nat × FlvPlayer)
    (h : Counts content dire s t)
    (hs : FlvFile.countBy content (beside content dire) s = some s') :
    Counts content dire s' (countStep dire t) ∧
      ((countStep dire t).2.atEnd || (countStep dire t).2.atFirstTag) =
        FlvFile.noWay content s'.2 := by
  obtain ⟨y, hy, rfl⟩ := Option.map_eq_some_iff.mp hs
  have hsees : Sees (t.2.move dire).1 content y ∧ (0 ≤ dire → y.cursor = y.offset) := by
    rcases hdire with rfl | rfl
    · exact ⟨h.stands.back hlong hy, fun hneg => absurd hneg (by decide)⟩
    · obtain ⟨hsees, htogether⟩ := h.stands.inFront (h.together (by decide)) hy
      exact ⟨hsees, fun _ => htogether⟩
  obtain ⟨hsees, htogether⟩ := hsees
  refine ⟨⟨?_, hsees.toStands, htogether⟩, ?_⟩
  · show (if FlvFile.frameAt content y = true then s.1 - 1 else s.1) =
      if (t.2.move dire).1.onFrame = true then t.1 - 1 else t.1
    rw [hsees.onFrame, h.count]
  · show ((t.2.move dire).1.atEnd || (t.2.move dire).1.atFirstTag) = _
    rw [hsees.atEnd, hsees.atFirstTag]
    rfl

theorem sign_cases {count : Int} (hone : count ≠ 1) :
    (count - 1).sign = -1 ∨ (count - 1).sign = 1 := by
  rcases Int.lt_or_gt_of_ne hone with hcount | hcount
  · exact .inl (Int.sign_eq_neg_one_of_neg (by omega))
  · exact .inr (Int.sign_eq_one_of_pos (by omega))

theorem Stands.counts {i : Nat} (h : Stands p content ⟨i, i⟩) (dire : Int) (n : Nat) :
    Counts content dire (n, ⟨i, i⟩) (n, p) := ⟨rfl, h, fun _ => rfl⟩

/-- A round of the second loop. -/
theorem Stands.videoStep (hlong : content.length < 2147483648) (x y : Place) (p : FlvPlayer)
    (h : Stands p content x) (hy : behind content x = some y) :
    Stands p.back content y ∧ p.back.onVideo = FlvFile.videoAt content y :=
  ⟨(h.back hlong hy).toStands, (h.back hlong hy).onVideo⟩

theorem Stands.regulate (h : Stands p content x) (n : Int) :
    Stands { p with regulateTagCount := n } content x :=
  ⟨h.fileFd, h.curIdx, h.totalBytes, h.together⟩

/-- A round of the third loop. -/
theorem Stands.keyFrameStep (hlong : content.length < 2147483648) (x y : Place)
    (s : Bool × FlvPlayer) (h : Stands s.2 content x) (hy : behind content x = some y) :
    Stands (keyFrameStep s).2 content y ∧
      (FlvPlayer.keyFrameStep s).1 = FlvFile.keyFrameAt content y := by
  obtain ⟨n, hn⟩ := keyFrameStep_eq s
  rw [hn]
  exact ⟨(h.back hlong hy).toStands.regulate n, (h.back hlong hy).onKeyFrame⟩

theorem Stands.look (h : Stands p content x) (hx : looked content x = some x) :
    Sees p.look content x := Stands.move (p := p) (n := 0) h hx

/-! ## Where they leave -/

theorem count_of_walk {i : Nat} {count : Int} (hlong : content.length < 2147483648)
    (h : Stands p content ⟨i, i⟩) (hwalk : FlvFile.CountWalk content i count (some x)) :
    ∃ q, Ends (countRound (count - 1).sign) ((count - 1).natAbs, p) q ∧ Stands q content x := by
  obtain ⟨hone, s, hleaves, hs⟩ := (FlvFile.countWalk_iff content).mp hwalk
  obtain ⟨s, rfl, rfl⟩ := Option.map_eq_some_iff.mp hs.symm
  obtain ⟨t, ht, hends⟩ := hleaves.ends (countRound_walks _) Counts.tests
    (Counts.step (sign_cases hone) hlong) (h.counts _ _)
  exact ⟨t.2, hends, ht.stands⟩

theorem video_of_walk (hlong : content.length < 2147483648) (h : Stands p content x)
    (hwalk : FlvFile.VideoWalk content x (some y)) :
    ∃ fuel q, backToVideo fuel p = some q ∧ Stands q content y := by
  have hend := h.atEnd
  cases hwalk with
  | stays hroom => exact ⟨0, p, if_neg (by rw [hend, hroom]; decide), h⟩
  | back hat hleaves =>
    obtain ⟨q, hq, fuel, hrun⟩ := hleaves.ends videoRound_walks (fun _ _ _ => rfl)
      (Stands.videoStep hlong) h
    exact ⟨fuel, q, (if_pos (by rw [hend, hat])).trans hrun, hq⟩

theorem keyFrame_of_walk (hlong : content.length < 2147483648) (h : Stands p content x)
    (hwalk : FlvFile.KeyFrameWalk content x (some y)) :
    ∃ fuel q, backToKeyFrame fuel p = some q ∧ Stands q content y := by
  cases hwalk with
  | stays hlook hkey =>
    have hsees := h.look hlook
    refine ⟨0, { p.look with isRegulating := false }, ?_,
      hsees.fileFd, hsees.curIdx, hsees.totalBytes, hsees.together⟩
    rw [backToKeyFrame_eq, if_pos (by rw [hsees.onKeyFrame, hkey])]
  | back hlook hno hleaves =>
    have hsees := h.look hlook
    obtain ⟨s, hs, fuel, hrun⟩ := hleaves.ends keyFrameRound_walks
      (R := fun x s => Stands s.2 content x) (fun _ _ h => h.atFirstTag)
      (Stands.keyFrameStep hlong) (s := (false, { p.look with regulateTagCount := 0 }))
      (hsees.toStands.regulate 0)
    refine ⟨fuel, if s.1 = true then s.2
      else { s.2 with needIFrame := true, isRegulating := false }, ?_, ?_⟩
    · rw [backToKeyFrame_eq, if_neg (by rw [hsees.onKeyFrame, hno]; decide), hrun]
      rfl
    · split
      · exact hs
      · exact ⟨hs.fileFd, hs.curIdx, hs.totalBytes, hs.together⟩

/-- Where the places on the way lead to an end, `step_by_frame` comes back. -/
theorem Stands.stepByFrame {i : Nat} {count : Int} (hlong : content.length < 2147483648)
    (h : Stands p content ⟨i, i⟩) (hreg : ¬ p.isRegulating = true)
    (hwalk : FlvFile.SeekWalk content i count (some y)) :
    ∃ fuel q, p.stepByFrame fuel count = some q ∧ Stands q content y := by
  have hbegin : Stands { p with isRegulating := true } content ⟨i, i⟩ :=
    ⟨h.fileFd, h.curIdx, h.totalBytes, h.together⟩
  generalize ho : some y = o at hwalk
  cases hwalk with
  | countBreaks _ => cases ho
  | videoBreaks _ _ => cases ho
  | @keyFrame x z o hfirst hsecond hthird =>
    subst ho
    have hone : count ≠ 1 := ((FlvFile.countWalk_iff content).mp hfirst).1
    obtain ⟨q, hends, hq⟩ := count_of_walk hlong hbegin hfirst
    obtain ⟨n, r, hr, hstandsr⟩ := video_of_walk hlong hq hsecond
    obtain ⟨m, t, ht, hstandst⟩ := keyFrame_of_walk hlong hstandsr hthird
    obtain ⟨fuel, hstep⟩ := (stepByFrame_ends hreg hone).mpr ⟨q, r, hends, ⟨n, hr⟩, m, ht⟩
    exact ⟨fuel, t, hstep, hstandst⟩

end FlvPlayer

end MiniSurveillance
