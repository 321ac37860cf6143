import MiniSurveillance.FlvControls
import MiniSurveillance.FlvTags

/-!
# The cursor beside the descriptor

`cur_idx` is kept by hand beside the offset of the descriptor. What the feed loop reads and
skips it adds as it is, short reads included. A walk may lose it: the look at a tag goes back
by thirteen bytes whether or not these were read, and the step back relies on four bytes in
front of the cursor and on a seek that does not fail.

* `feedRound_synced`: a round of the feed loop keeps the two together, in any file.
* `stepByFrame_synced`: so does a call of `step_by_frame` whose moves all meet `MoveOk`.
* `cursor_of_reach`: the runs in which they are together whenever the mutex is free.
-/

namespace MiniSurveillance
open Bytes Loops Runs

namespace FlvPlayer

/-- The cursor is the offset of the descriptor, and the size that of the file. -/
def Synced (p : FlvPlayer) : Prop :=
  ∃ fd, p.fileFd = some fd ∧ p.curIdx = fd.offset ∧ p.totalBytes = fd.content.length

/-- The size in front of the cursor is there, and leads to a place in the file. -/
def BackOk (p : FlvPlayer) : Prop :=
  0 < p.curIdx → 4 ≤ p.curIdx ∧ p.curIdx ≤ p.totalBytes ∧
    (p.readPreviousTagSize.bufLen = 0 ∨
      0 ≤ p.curIdx + toLong (-4 - p.readPreviousTagSize.bufLen) ∧
      p.curIdx + toLong (-4 - p.readPreviousTagSize.bufLen) < 2147483648)

/-- The file has the thirteen bytes a look reads, or no look is taken. -/
def PeekOk (p : FlvPlayer) : Prop := p.atEnd = true ∨ p.curIdx + tagHeaderSize + 2 ≤ p.totalBytes

/-- A move ahead by some tags, or back by one, that keeps the cursor. -/
def MoveOk (n : Int) (p : FlvPlayer) : Prop := (n < 0 → p.BackOk) ∧ (p.moveCursor n).PeekOk

instance (p : FlvPlayer) : Decidable p.BackOk :=
  inferInstanceAs (Decidable (_ → _ ∧ _ ∧ (_ ∨ _ ∧ _)))

instance (p : FlvPlayer) : Decidable p.PeekOk := inferInstanceAs (Decidable (_ ∨ _))

instance (n : Int) (p : FlvPlayer) : Decidable (p.MoveOk n) :=
  inferInstanceAs (Decidable ((_ → _) ∧ _))

/-- A call of `step_by_frame` makes the move `n` in the state `q`. -/
inductive Makes (p : FlvPlayer) (count : Int) : FlvPlayer → Int → Prop
  | count {s : Nat × FlvPlayer} : p.isRegulating = false → count ≠ 1 →
      Heads (countRound (count - 1).sign) ((count - 1).natAbs, { p with isRegulating := true }) s →
      s.1 ≠ 0 → Makes p count s.2 (count - 1).sign
  | video {q r : FlvPlayer} : p.isRegulating = false → count ≠ 1 →
      Ends (countRound (count - 1).sign) ((count - 1).natAbs, { p with isRegulating := true }) q →
      q.atEnd = true → Heads videoRound q r → Makes p count r (-1)
  | look {q r : FlvPlayer} {fuel : Nat} : p.isRegulating = false → count ≠ 1 →
      Ends (countRound (count - 1).sign) ((count - 1).natAbs, { p with isRegulating := true }) q →
      backToVideo fuel q = some r → Makes p count r 0
  | keyFrame {q r : FlvPlayer} {fuel : Nat} {s : Bool × FlvPlayer} :
      p.isRegulating = false → count ≠ 1 →
      Ends (countRound (count - 1).sign) ((count - 1).natAbs, { p with isRegulating := true }) q →
      backToVideo fuel q = some r → r.look.onKeyFrame = false →
      Heads keyFrameRound (false, { r.look with regulateTagCount := 0 }) s →
      s.2.atFirstTag = false → Makes p count s.2 (-1)

/-! ## Reading and seeking -/

variable {p : FlvPlayer}

/-- Nothing but the cursor and the size matters. -/
theorem Synced.of_eq {q : FlvPlayer} (h : Synced p) (hfd : q.fileFd = p.fileFd)
    (hcur : q.curIdx = p.curIdx) (htotal : q.totalBytes = p.totalBytes) : Synced q := by
  obtain ⟨fd, hp, hoffset, hlength⟩ := h
  exact ⟨fd, hfd.trans hp, hcur.trans hoffset, htotal.trans hlength⟩

/-- What a read returns, short or not, is what the cursor is moved by. -/
theorem Synced.readTagHeader (h : Synced p) (pos n : Nat) :
    Synced ((p.readTagHeader pos n).addCurIdx (p.got n)) := by
  obtain ⟨fd, hp, hoffset, hlength⟩ := h
  refine ⟨fd.skip (fd.next n).length, ?_, ?_, hlength⟩
  · show p.fileFd.map _ = _
    rw [hp]
    rfl
  · show p.curIdx + p.got n = _
    rw [got, hp, hoffset]
    rfl

theorem Synced.readTagData (h : Synced p) (n : Nat) :
    Synced ((p.readTagData n).addCurIdx (p.got n)) := by
  obtain ⟨fd, hp, hoffset, hlength⟩ := h
  refine ⟨fd.skip (fd.next n).length, ?_, ?_, hlength⟩
  · show p.fileFd.map _ = _
    rw [hp]
    rfl
  · show p.curIdx + p.got n = _
    rw [got, hp, hoffset]
    rfl

/-- A seek that stays in front of the start of the file nowhere fails. -/
theorem Synced.seekCur (h : Synced p) {d c : Int} (hroom : 0 ≤ p.curIdx + d)
    (hcur : c = p.curIdx + d) : Synced ({ p with curIdx := c }.seekCur d) := by
  obtain ⟨fd, hp, hoffset, hlength⟩ := h
  rw [hoffset] at hroom
  refine ⟨{ fd with offset := (fd.offset + d).toNat }, ?_, ?_, hlength⟩
  · show p.fileFd.map _ = _
    rw [hp, Option.map_some, Fd.seekCur, if_pos hroom]
  · show c = _
    rw [hcur, hoffset]
    exact (Int.toNat_of_nonneg hroom).symm

theorem Synced.seekAhead (h : Synced p) (n : Nat) :
    Synced ((p.seekCur n).addCurIdx n) := by
  refine h.seekCur ?_ rfl
  obtain ⟨fd, _, hoffset, _⟩ := h
  omega

theorem Synced.congr {q : FlvPlayer} (hs : SameCursor p q) (h : Synced p) : Synced q :=
  h.of_eq hs.fileFd hs.curIdx hs.totalBytes

/-! ## A round of the feed loop -/

theorem Synced.readTag (h : Synced p) : Synced p.readTag := by
  let q := (p.readTagHeader flvHeaderLength (tagHeaderSize - flvHeaderLength)).addCurIdx
    (p.got (tagHeaderSize - flvHeaderLength))
  have hq : Synced q.setBufLen := (h.readTagHeader _ _).of_eq rfl rfl rfl
  exact hq.readTagData q.setBufLen.bufLen

theorem finishTag_synced {call c : TagCall} {q : FlvPlayer} (h : Synced p)
    (hround : finishTag call p = .tag c q) : Synced q := by
  rcases finishTag_cases call p with ⟨_, hcrash⟩ | ⟨r, hr, htag⟩
  · cases hcrash.symm.trans hround
  · obtain ⟨_, rfl⟩ := FeedRound.tag.inj (htag.symm.trans hround)
    obtain ⟨needSleep, rfl⟩ := sleepBehindTag_of hr
    have hslept : Synced { p with needSleep } := h.of_eq rfl rfl rfl
    exact (hslept.congr (countTag_frame _).1).seekAhead 4

/-- A round keeps the cursor at the offset, whatever the file holds and wherever it ends. -/
theorem feedRound_synced {env : TagEffects} {q : FlvPlayer} (h : Synced p)
    (hround : feedRound env p = .header q ∨ ∃ call, feedRound env p = .tag call q) : Synced q := by
  have hfront := h.readTagHeader 0 flvHeaderLength
  unfold feedRound at hround
  split at hround
  · simp at hround
  · split at hround
    · simp at hround
    · split at hround
      · simp at hround
      · dsimp only at hround
        split at hround
        · rcases hround with hround | ⟨_, hround⟩
          · obtain rfl := FeedRound.header.inj hround
            exact hfront.seekAhead 4
          · cases hround
        · rcases hround with hround | ⟨call, hround⟩
          · exact absurd hround (finishTag_ne_header _ _ _)
          · exact finishTag_synced (hfront.readTag.congr (handleTag_sameCursor env _)) hround

/-! ## Moves -/

theorem Synced.forwardTag (h : Synced p) : Synced p.forwardTag := by
  let q := ((p.readTagHeader 0 tagHeaderSize).addCurIdx (p.got tagHeaderSize)).setBufLen
  have hq : Synced q := (h.readTagHeader 0 tagHeaderSize).of_eq rfl rfl rfl
  exact_mod_cast hq.seekAhead (q.bufLen + 4)

theorem Synced.moveForward (h : Synced p) (n : Nat) : Synced (p.moveForward n) := by
  induction n generalizing p with
  | zero => exact h
  | succ n ih =>
    rw [FlvPlayer.moveForward]
    split
    · exact ih h.forwardTag
    · exact h

/-- A read away from the end of the file returns what was asked for. -/
theorem next_length {fd : Fd} {n : Nat} (h : fd.offset + n ≤ fd.content.length) :
    (fd.next n).length = n := by
  simp only [Fd.next, List.length_take, List.length_drop]
  omega

/-- With four bytes in front of the cursor and no end of the file among them, reading them
leaves the offset where it was. -/
theorem Synced.readPreviousTagSize (h : Synced p) (hlow : 4 ≤ p.curIdx)
    (hhigh : p.curIdx ≤ p.totalBytes) : Synced p.readPreviousTagSize := by
  obtain ⟨fd, hp, hoffset, hlength⟩ := h
  rw [hoffset] at hlow hhigh
  rw [hlength] at hhigh
  let back : Fd := { fd with offset := (fd.offset + (-4 : Int)).toNat }
  have hback : fd.seekCur (-4) = back := if_pos (by omega)
  have hread : (back.next 4).length = 4 := next_length (by simp only [back]; omega)
  refine ⟨fd, ?_, hoffset, hlength⟩
  show (p.fileFd.map fun fd => fd.seekCur (-4)).map _ = _
  rw [hp, Option.map_some, Option.map_some, hback, hread]
  have hsame : back.offset + 4 = fd.offset := by
    simp only [back]
    omega
  show some { fd with offset := back.offset + 4 } = some fd
  rw [hsame]

theorem Synced.backCursor (h : Synced p) (hok : p.BackOk) : Synced p.backCursor := by
  unfold FlvPlayer.backCursor
  split
  · next hpos =>
    obtain ⟨hlow, hhigh, hto⟩ := hok hpos
    have hread := h.readPreviousTagSize hlow hhigh
    dsimp only
    split
    · exact hread
    · next hne =>
      obtain ⟨hroom, hlong⟩ := hto.resolve_left hne
      refine hread.seekCur hroom ?_
      -- both wraps come to the same, since the target fits a `long`
      have hmod : toLong (p.curIdx - (4 + p.readPreviousTagSize.bufLen)) =
          toLong (p.curIdx + toLong (-4 - p.readPreviousTagSize.bufLen)) := by
        unfold toLong
        rw [Int.add_bmod_bmod]
        congr 1
        omega
      exact hmod.trans (Int.bmod_eq_of_le (by omega) (by omega))
  · exact h

theorem Synced.peek (h : Synced p) (hroom : p.curIdx + tagHeaderSize + 2 ≤ p.totalBytes) :
    Synced p.peek := by
  obtain ⟨fd, hp, hoffset, hlength⟩ := h
  rw [hoffset, hlength] at hroom
  have hheader : (fd.next tagHeaderSize).length = tagHeaderSize := next_length (by omega)
  let read : Fd := fd.skip tagHeaderSize
  have hdata : (read.next 2).length = 2 := next_length (by
    show fd.offset + tagHeaderSize + 2 ≤ fd.content.length
    omega)
  refine ⟨fd, ?_, hoffset, hlength⟩
  show ((p.fileFd.map _).map _).map _ = _
  rw [hp, Option.map_some, Option.map_some, Option.map_some, hheader]
  show some (((read.skip (read.next 2).length)).seekCur _) = _
  rw [hdata]
  have hto : (((read.skip 2).offset : Int) + (-(tagHeaderSize : Int) - 2)).toNat = fd.offset := by
    show (((fd.offset + tagHeaderSize + 2 : Nat) : Int) + _).toNat = _
    omega
  have hback : (read.skip 2).seekCur (-(tagHeaderSize : Int) - 2) = fd := by
    rw [Fd.seekCur, if_pos (by show 0 ≤ ((fd.offset + tagHeaderSize + 2 : Nat) : Int) + _; omega),
      hto]
    rfl
  rw [hback]

theorem move_synced {n : Int} (hn : -1 ≤ n) (h : Synced p) (hok : p.MoveOk n) :
    Synced (p.move n).1 := by
  obtain ⟨hback, hpeek⟩ := hok
  have hcursor : Synced (p.moveCursor n) := by
    rcases Int.lt_or_le n 0 with hneg | hpos
    · obtain rfl : n = -1 := by omega
      exact h.backCursor (hback hneg)
    · rw [moveCursor, if_pos hpos]
      exact h.moveForward n.toNat
  unfold move
  dsimp only
  split
  · exact hcursor
  · next hend => exact hcursor.peek (hpeek.resolve_left hend)

/-! ## Calls of `step_by_frame` -/

theorem count_synced {dire : Int} {s : Nat × FlvPlayer} {q : FlvPlayer} (hdire : -1 ≤ dire)
    (hok : ∀ t, Heads (countRound dire) s t → t.1 ≠ 0 → t.2.MoveOk dire)
    (h : Ends (countRound dire) s q) (hs : Synced s.2) : Synced q := by
  have hstep (t : Nat × FlvPlayer) (ht : Heads (countRound dire) s t) (hgo : ¬ (t.1 == 0) = true)
      (hsync : Synced t.2) : Synced (countStep dire t).2 :=
    move_synced hdire hsync (hok t ht (by simpa using hgo))
  refine h.invariant_heads (I := fun t => Synced t.2) (Q := Synced) (fun t u ht hsync hround => ?_)
    (fun t r ht hsync hround => ?_) hs
  · rw [countRound_eq] at hround
    split at hround
    · cases hround
    · next hgo =>
      split at hround
      · cases hround
      · cases hround
        exact hstep t ht hgo hsync
  · rw [countRound_eq] at hround
    split at hround
    · cases hround
      exact hsync
    · next hgo =>
      split at hround
      · cases hround
        exact hstep t ht hgo hsync
      · cases hround

theorem backToVideo_synced {fuel : Nat} {q : FlvPlayer}
    (hok : p.atEnd = true → ∀ r, Heads videoRound p r → r.MoveOk (-1))
    (h : backToVideo fuel p = some q) (hs : Synced p) : Synced q := by
  unfold backToVideo at h
  split at h
  · next hend =>
    have hstep (r : FlvPlayer) (hr : Heads videoRound p r) (hsync : Synced r) : Synced r.back :=
      move_synced (Int.le_refl _) hsync (hok hend r hr)
    refine Ends.invariant_heads (I := Synced) (Q := Synced) (fun r t hr hsync hround => ?_)
      (fun r t hr hsync hround => ?_) ⟨fuel, h⟩ hs
    · rw [videoRound_eq] at hround
      split at hround
      · cases hround
      · cases hround
        exact hstep r hr hsync
    · rw [videoRound_eq] at hround
      split at hround
      · cases hround
        exact hstep r hr hsync
      · cases hround
  · obtain rfl := Option.some.inj h
    exact hs

theorem keyFrame_synced {s r : Bool × FlvPlayer}
    (hok : ∀ t, Heads keyFrameRound s t → t.2.atFirstTag = false → t.2.MoveOk (-1))
    (h : Ends keyFrameRound s r) (hs : Synced s.2) : Synced r.2 := by
  have hstep (t : Bool × FlvPlayer) (ht : Heads keyFrameRound s t)
      (hgo : ¬ t.2.atFirstTag = true) (hsync : Synced t.2) : Synced (keyFrameStep t).2 := by
    obtain ⟨n, hn⟩ := keyFrameStep_eq t
    rw [hn]
    exact (move_synced (Int.le_refl _) hsync (hok t ht (by simpa using hgo))).of_eq rfl rfl rfl
  refine h.invariant_heads (I := fun t => Synced t.2) (Q := fun r => Synced r.2)
    (fun t u ht hsync hround => ?_) (fun t u ht hsync hround => ?_) hs
  · rw [keyFrameRound_eq] at hround
    split at hround
    · cases hround
    · next hgo =>
      split at hround
      · cases hround
      · cases hround
        exact hstep t ht hgo hsync
  · rw [keyFrameRound_eq] at hround
    split at hround
    · cases hround
      exact hsync
    · next hgo =>
      split at hround
      · cases hround
        exact hstep t ht hgo hsync
      · cases hround

theorem backToKeyFrame_synced {fuel : Nat} {q : FlvPlayer} (hlook : p.MoveOk 0)
    (hok : p.look.onKeyFrame = false → ∀ t,
      Heads keyFrameRound (false, { p.look with regulateTagCount := 0 }) t →
      t.2.atFirstTag = false → t.2.MoveOk (-1))
    (h : backToKeyFrame fuel p = some q) (hs : Synced p) : Synced q := by
  have hsync : Synced p.look := move_synced (by decide) hs hlook
  have htype := move_type 0 p
  have hkey := move_isIFrame 0 p
  unfold backToKeyFrame at h
  dsimp only at h
  split at h
  · obtain rfl := Option.some.inj h
    exact hsync.of_eq rfl rfl rfl
  · next hwalk =>
    have hno : p.look.onKeyFrame = false := by
      by_contra hyes
      have hyes : (p.move 0).1.onKeyFrame = true := by simpa [look] using hyes
      refine hwalk ⟨htype.mpr ?_, hkey.trans hyes⟩
      simp only [onKeyFrame, Bool.and_eq_true] at hyes
      exact hyes.1.1
    rw [show (p.move 0).2.2 = false from hkey.trans hno] at h
    obtain ⟨r, hr, hq⟩ := Option.bind_eq_some_iff.mp h
    have hr := keyFrame_synced (hok hno) ⟨fuel, hr⟩ (hsync.of_eq rfl rfl rfl)
    split at hq
    · obtain rfl := Option.some.inj hq
      exact hr
    · obtain rfl := Option.some.inj hq
      exact hr.of_eq rfl rfl rfl

/-- A call whose moves all keep the cursor keeps it. -/
theorem stepByFrame_synced {fuel : Nat} {count : Int} {q : FlvPlayer}
    (hok : ∀ r n, Makes p count r n → r.MoveOk n) (h : stepByFrame fuel p count = some q)
    (hs : Synced p) : Synced q := by
  by_cases hreg : p.isRegulating = true
  · rw [stepByFrame, if_pos hreg] at h
    obtain rfl := Option.some.inj h
    exact hs
  by_cases hone : count = 1
  · rw [stepByFrame, if_neg hreg, if_pos (show count - 1 = 0 by omega)] at h
    obtain rfl := Option.some.inj h
    exact hs.of_eq rfl rfl rfl
  rw [stepByFrame_walks hreg hone] at h
  obtain ⟨r, hr, h⟩ := Option.bind_eq_some_iff.mp h
  obtain ⟨t, ht, h⟩ := Option.bind_eq_some_iff.mp h
  have hfree : p.isRegulating = false := eq_false_of_ne_true hreg
  have hdire : -1 ≤ (count - 1).sign := by
    rcases Int.lt_trichotomy (count - 1) 0 with hneg | hzero | hpos
    · exact Int.le_of_eq (Int.sign_eq_neg_one_of_neg hneg).symm
    · omega
    · rw [Int.sign_eq_one_of_pos hpos]
      decide
  have hcount := count_synced hdire (fun s hs hne => hok _ _ (.count hfree hone hs hne)) ⟨fuel, hr⟩
    (hs.of_eq rfl rfl rfl)
  have hvideo := backToVideo_synced
    (fun hend s hs => hok _ _ (.video hfree hone ⟨fuel, hr⟩ hend hs)) ht hcount
  exact backToKeyFrame_synced (hok _ _ (.look hfree hone ⟨fuel, hr⟩ ht))
    (fun hkey s hs hgo => hok _ _ (.keyFrame hfree hone ⟨fuel, hr⟩ ht hkey hs hgo)) h hvideo

/-- A step back that comes to the first tag at once, an I frame, makes two moves. -/
theorem makes_at_first {r : FlvPlayer} {n : Int}
    (hfirst : ({ p with isRegulating := true } : FlvPlayer).back.atFirstTag = true)
    (hroom : ({ p with isRegulating := true } : FlvPlayer).back.atEnd = false)
    (hkey : ({ p with isRegulating := true } : FlvPlayer).back.look.onKeyFrame = true)
    (h : Makes p (-1) r n) :
    (r = { p with isRegulating := true } ∧ n = -1) ∨
      (r = ({ p with isRegulating := true } : FlvPlayer).back ∧ n = 0) := by
  let q : FlvPlayer := { p with isRegulating := true }
  have hleaves : countRound (-1) (2, q) = .inr q.back := by
    rw [countRound_eq]
    show (if (q.back.atEnd || q.back.atFirstTag) = true then _ else _) = _
    rw [if_pos (by rw [hfirst, Bool.or_true])]
    rfl
  have hends {t : FlvPlayer} (ht : Ends (countRound (-1)) (2, q) t) : t = q.back :=
    ht.unique (ends_inr hleaves)
  have hstays {t u : FlvPlayer} {fuel : Nat} (ht : Ends (countRound (-1)) (2, q) t)
      (hu : backToVideo fuel t = some u) : u = q.back := by
    rw [hends ht, backToVideo, if_neg (by rw [hroom]; decide)] at hu
    exact (Option.some.inj hu).symm
  cases h with
  | count _ _ hs _ => exact .inl ⟨congrArg Prod.snd (hs.eq_start hleaves), rfl⟩
  | video _ _ ht hend _ =>
    rw [hends ht, hroom] at hend
    cases hend
  | look _ _ ht hu => exact .inr ⟨hstays ht hu, rfl⟩
  | keyFrame _ _ ht hu hno _ _ =>
    rw [hstays ht hu, hkey] at hno
    cases hno

end FlvPlayer

namespace FlvSession
open FlvPlayer

/-- The moves of a call of `step_by_frame` in the feed loop all keep the cursor. -/
def StepOk (s : FlvSession) : Event → Prop
  | .stepOneFrameBackward _ => s.feed = .looping →
    ∀ q n, Makes { s.player with isPause := true } (-1) q n → q.MoveOk n
  | .stepThread sec _ => s.feed = .looping →
    ∀ q n, Makes s.player (secondsToFrames sec s.player.fps) q n → q.MoveOk n
  | _ => True

/-- While the feed thread runs a file is open and stays so; in its loop the cursor is the
offset of the descriptor. -/
structure InStep (s : FlvSession) : Prop where
  runs : s.feed = .started ∨ s.feed = .looping →
    s.player.isPlaying = true ∧ s.player.fileFd.isSome = true
  synced : s.feed = .looping → s.player.Synced

/-- An event that leaves the thread and the file alone keeps what the walks keep. -/
theorem InStep.of_controls {s t : FlvSession} (h : InStep s) (hfeed : t.feed = s.feed)
    (hplaying : t.player.isPlaying = s.player.isPlaying)
    (hcontent : t.player.fileFd.map Fd.content = s.player.fileFd.map Fd.content)
    (hsynced : s.feed = .looping → s.player.Synced → t.player.Synced) : InStep t where
  runs hruns := by
    obtain ⟨hon, hopen⟩ := h.runs (hfeed ▸ hruns)
    refine ⟨hplaying.trans hon, ?_⟩
    rw [← Option.isSome_map (f := Fd.content), hcontent, Option.isSome_map]
    exact hopen
  synced hloop := hsynced (hfeed ▸ hloop) (h.synced (hfeed ▸ hloop))

theorem feedBegin_synced {p : FlvPlayer} (h : p.fileFd.isSome = true) : p.feedBegin.Synced := by
  obtain ⟨fd, hfd⟩ := Option.isSome_iff_exists.mp h
  refine ⟨{ fd with offset := 0 }, ?_, rfl, ?_⟩
  · show p.fileFd.map _ = _
    rw [hfd]
    rfl
  · rw [FlvPlayer.feedBegin, hfd]

/-- No thread, nothing to keep. -/
theorem InStep.of_idle {t : FlvSession} (hstarted : t.feed ≠ .started)
    (hlooping : t.feed ≠ .looping) : InStep t where
  runs hruns := (hruns.elim hstarted hlooping).elim
  synced hloop := absurd hloop hlooping

theorem step_inStep {s t : FlvSession} {e : Event} (h : InStep s) (hok : StepOk s e)
    (ht : step s e = some t) : InStep t := by
  cases e with
  | setFilePath opened =>
    obtain rfl := Option.some.inj ht
    cases hon : s.player.isPlaying with
    | true =>
      have hsame : s.player.setFilePath opened = s.player := if_pos hon
      exact h.of_controls rfl (by rw [hsame]) (by rw [hsame]) fun _ hs => by rwa [hsame]
    | false =>
      have hidle : ¬ (s.feed = .started ∨ s.feed = .looping) := fun hruns => by
        have := (h.runs hruns).1
        rw [hon] at this
        cases this
      exact .of_idle (fun hstarted => hidle (.inl hstarted)) fun hloop => hidle (.inr hloop)
  | start =>
    obtain rfl := Option.some.inj ht
    by_cases hrest : (s.player.isPlaying || s.player.fileFd.isNone) = true
    · have hsame : s.player.start = s.player := if_pos hrest
      have hfeed : s.start.feed = s.feed := if_pos hrest
      exact h.of_controls hfeed (congrArg isPlaying hsame)
        (congrArg (fun p => p.fileFd.map Fd.content) hsame) fun _ hs => by
          show s.player.start.Synced
          rwa [hsame]
    · have hfeed : s.start.feed = .started := if_neg hrest
      have hstart : s.player.start =
          { s.player with isPlaying := true, isPause := false, needIFrame := true } := if_neg hrest
      simp only [Bool.or_eq_true, not_or, Option.isNone_iff_eq_none] at hrest
      refine ⟨fun _ => ⟨congrArg isPlaying hstart, ?_⟩, fun hloop => ?_⟩
      · show s.player.start.fileFd.isSome = true
        rw [hstart]
        exact Option.isSome_iff_ne_none.mpr hrest.2
      · cases hfeed.symm.trans hloop
  | stop =>
    simp only [step, stop] at ht
    split at ht
    · split at ht
      · cases ht
      · obtain rfl := Option.some.inj ht
        exact .of_idle (by simp) (by simp)
      · obtain rfl := Option.some.inj ht
        exact .of_idle (by simp) (by simp)
    · obtain rfl := Option.some.inj ht
      exact h
  | pause =>
    obtain rfl := Option.some.inj ht
    exact h.of_controls rfl rfl rfl fun _ hs => hs.of_eq rfl rfl rfl
  | stepOneFrameForward =>
    obtain rfl := Option.some.inj ht
    unfold stepOneFrameForward
    split
    · exact h.of_controls rfl rfl rfl fun _ hs => hs.of_eq rfl rfl rfl
    · exact h
  | stepOneFrameBackward fuel =>
    simp only [step, stepOneFrameBackward] at ht
    split at ht
    · obtain ⟨p, hp, ht⟩ := Option.bind_eq_some_iff.mp ht
      obtain rfl := Option.some.inj ht
      have hsame := stepByFrame_controls hp
      refine h.of_controls rfl hsame.isPlaying hsame.content fun hloop hs => ?_
      exact (stepByFrame_synced (hok hloop) hp (hs.of_eq rfl rfl rfl)).of_eq rfl rfl rfl
    · obtain rfl := Option.some.inj ht
      exact h
  | stepBySeconds sec =>
    obtain rfl := Option.some.inj ht
    unfold stepBySeconds
    split
    · exact h.of_controls rfl rfl rfl fun _ hs => hs.of_eq rfl rfl rfl
    · exact h
  | stepThread sec fuel =>
    simp only [step, stepThread] at ht
    split at ht
    · obtain ⟨p, hp, ht⟩ := Option.bind_eq_some_iff.mp ht
      obtain rfl := Option.some.inj ht
      have hsame := stepByFrame_controls hp
      refine h.of_controls rfl hsame.isPlaying hsame.content fun hloop hs => ?_
      exact (stepByFrame_synced (hok hloop) hp hs).of_eq rfl rfl rfl
    · cases ht
  | feedBegin =>
    obtain ⟨hstarted, rfl⟩ := feedBegin_of_some ht
    obtain ⟨hon, hopen⟩ := h.runs (.inl hstarted)
    refine ⟨fun _ => ⟨hon, ?_⟩, fun _ => feedBegin_synced hopen⟩
    show (s.player.fileFd.map _).isSome = true
    rw [Option.isSome_map]
    exact hopen
  | feedRound env =>
    obtain ⟨hloop, hrounds⟩ := feedRound_of_some ht
    have hs := h.synced hloop
    have hround {q : FlvPlayer} (hq : s.player.feedRound env = .header q ∨
        ∃ call, s.player.feedRound env = .tag call q) :
        q.isPlaying = true ∧ q.fileFd.isSome = true := by
      obtain ⟨fd, hfd, _⟩ := feedRound_synced hs hq
      exact ⟨(congrArg Prod.fst (feedRound_switches hq)).trans (h.runs (.inr hloop)).1,
        by rw [hfd]; rfl⟩
    cases hrounds with
    | rests => exact h
    | header hq => exact ⟨fun _ => hround (.inl hq), fun _ => feedRound_synced hs (.inl hq)⟩
    | tag hq =>
      exact ⟨fun _ => hround (.inr ⟨_, hq⟩), fun _ => feedRound_synced hs (.inr ⟨_, hq⟩)⟩
    | crash hq => exact .of_idle (by simp) (by simp)

/-- In every run, over any files, in which every move of a call of `step_by_frame` meets its
condition, the cursor is the offset of the descriptor, and not negative, whenever the feed
loop has the file and nobody holds the mutex. -/
theorem cursor_of_reach {p : FlvPlayer} {s : FlvSession}
    (h : Reach step StepOk (init p) s) (hloop : s.feed = .looping) :
    ∃ fd, s.player.fileFd = some fd ∧ s.player.curIdx = fd.offset ∧ 0 ≤ s.player.curIdx := by
  have hinit : InStep (init p) := .of_idle (by simp [init]) (by simp [init])
  have hstep := h.invariant hinit fun _ _ _ => step_inStep
  obtain ⟨fd, hfd, hcur, _⟩ := hstep.synced hloop
  exact ⟨fd, hfd, hcur, by rw [hcur]; exact Int.natCast_nonneg _⟩

/-- The header of a file is read, and the cursor is in front of the first tag. -/
def headerRead : List Event := [.start, .feedBegin, .feedRound quiet]

/-- A step back from the first tag makes two moves, which both keep the cursor. -/
theorem cursor_of_reach_keyFrame :
    ∃ s, Reach step StepOk (opened keyFrameSegment.bytes) s ∧ s.feed = .looping ∧
      s.player.stepOneFrame = true ∧
      ∃ fd, s.player.fileFd = some fd ∧ s.player.curIdx = fd.offset ∧ 0 ≤ s.player.curIdx := by
  let regulating (s : FlvSession) : FlvPlayer :=
    { s.player with isPause := true, isRegulating := true }
  -- what the moves of the step back find, and what the step leaves
  have hchecked : ((exec step (opened keyFrameSegment.bytes) headerRead).map fun s =>
      (regulating s).back.atFirstTag && !(regulating s).back.atEnd &&
        (regulating s).back.look.onKeyFrame && decide ((regulating s).MoveOk (-1)) &&
        decide ((regulating s).back.MoveOk 0)) = some true := by
    decide +kernel
  have hleft : ((exec step (opened keyFrameSegment.bytes)
      (headerRead ++ [.stepOneFrameBackward 3])).map fun s =>
        (s.feed, s.player.stepOneFrame)) = some (.looping, true) := by
    decide +kernel
  obtain ⟨s, hread, hs⟩ := Option.map_eq_some_iff.mp hchecked
  simp only [Bool.and_eq_true, Bool.not_eq_true', decide_eq_true_eq] at hs
  obtain ⟨⟨⟨⟨hfirst, hroom⟩, hkey⟩, hback⟩, hlook⟩ := hs
  obtain ⟨t, ht, hphase⟩ := Option.map_eq_some_iff.mp hleft
  obtain ⟨hloop, hframe⟩ := Prod.mk.inj hphase
  have hreach : Reach step StepOk (opened keyFrameSegment.bytes) s :=
    Reach.exec .start hread (along_of_forall (by simp [headerRead, StepOk]))
  have hok : StepOk s (.stepOneFrameBackward 3) := by
    intro _ r n hmove
    have hmoves := makes_at_first (p := { s.player with isPause := true }) hfirst hroom hkey hmove
    rcases hmoves with ⟨rfl, rfl⟩ | ⟨rfl, rfl⟩
    · exact hback
    · exact hlook
  have hreach := hreach.next hok (exec_snoc_of _ hread ▸ ht)
  exact ⟨t, hreach, hloop, hframe, cursor_of_reach hreach hloop⟩

/-- A segment that ends one byte into the data of its first tag. -/
def tornTag : List UInt8 :=
  headerOnly ++ [0x09, 0x00, 0x00, 0x05, 0x00, 0x00, 0x00, 0x00, 0x00, 0x00, 0x00, 0x17]

/-- A look at a torn tag reads twelve bytes and goes back by thirteen. -/
theorem look_goes_too_far :
    ∃ s fd, exec step (opened tornTag) (headerRead ++ [.stepOneFrameBackward 3]) = some s ∧
      s.feed = .looping ∧ s.player.fileFd = some fd ∧ s.player.curIdx = 13 ∧ fd.offset = 12 := by
  have hchecked : ((exec step (opened tornTag)
      (headerRead ++ [.stepOneFrameBackward 3])).map fun s =>
        (s.feed, s.player.fileFd.map Fd.offset, s.player.curIdx)) =
      some (.looping, some 12, 13) := by
    decide +kernel
  obtain ⟨s, hexec, hs⟩ := Option.map_eq_some_iff.mp hchecked
  obtain ⟨hfeed, hfd, hcur⟩ : s.feed = .looping ∧ s.player.fileFd.map Fd.offset = some 12 ∧
      s.player.curIdx = 13 := by simpa using hs
  obtain ⟨fd, hfd, hoffset⟩ := Option.map_eq_some_iff.mp hfd
  exact ⟨s, fd, hexec, hfeed, hfd, hcur, hoffset⟩

end FlvSession

end MiniSurveillance
