import MiniSurveillance.Base.Loops
import MiniSurveillance.Handlers

/-!
# The recording player

`FlvPlayer` reads an FLV file tag by tag in `feed_task` and walks over the same
file in `step_by_frame`. Both keep the cursor `cur_idx` by hand beside the offset
of the descriptor.

One round of the loop in `feed_task` runs under `file_mutex`, as does the whole
of `step_by_frame`, so `feedRound` and `stepByFrame` are single steps. `long` is
32 bits wide on the platform the program is built for: `cur_idx -= 4 + buf_len`
and the offset `-4-buf_len` go through `UINT32` and are wrapped (`toLong`); the
other sums stay inside a file that `long` offsets can address and are not.
-/

namespace MiniSurveillance
open Bytes

/-- An open file: its bytes and the read offset. -/
structure Fd where
  content : List UInt8
  offset : Nat
deriving DecidableEq, Repr

namespace Fd

/-- The bytes `read` returns for a request of `n`. -/
def next (fd : Fd) (n : Nat) : List UInt8 := (fd.content.drop fd.offset).take n

def skip (fd : Fd) (n : Nat) : Fd := { fd with offset := fd.offset + n }

/-- `lseek(fd, d, SEEK_CUR)`: a target before the file fails and moves nothing. -/
def seekCur (fd : Fd) (d : Int) : Fd :=
  if 0 ≤ fd.offset + d then { fd with offset := (fd.offset + d).toNat } else fd

end Fd

/-- A value computed in `UINT32` and kept in a 32-bit `long`. -/
def toLong (x : Int) : Int := x.bmod 4294967296

/-- The fields of `FlvPlayer`. `request_step` only shortens a sleep and is left
out, as are the mutex and the thread handle, which belong to the steps. -/
structure FlvPlayer where
  fileFd : Option Fd
  isPlaying : Bool
  isPause : Bool
  needSleep : Bool
  needIFrame : Bool
  isRegulating : Bool
  stepOneFrame : Bool
  fps : UInt32
  regulateTagCount : Int
  curIdx : Int
  totalBytes : Int
  tagHeader : Mem
  tagData : Mem
  bufLen : Nat

/-- What the callbacks of one `handle_tag` call do to the player: the rates they
pass to `sleep_once`, and what decrypting a key frame in place leaves of the data. -/
structure TagEffects where
  sleeps : List UInt32
  rewrite : Mem → Mem

/-- One call of `handle_tag`: its arguments, how many header and data bytes were
read for it, the accesses of its handlers and the `play` flag they pass on. -/
structure TagCall where
  type : Nat
  buf : Mem
  len : Nat
  headerGot : Int
  got : Int
  accesses : List Access
  play : Bool

namespace FlvPlayer

def flvHeaderLength : Nat := 9
def tagHeaderSize : Nat := 11
def tagDataSize : Nat := 1024 * 1024

/-- `TAG_TYPE::AUDIO`, `VIDEO` and `SCRIPT_DATA`. -/
def tagAudio : Nat := 0x08
def tagVideo : Nat := 0x09
def tagScriptData : Nat := 0x12

/-- `flv_header`. -/
def flvHeader : List UInt8 := [0x46, 0x4C, 0x56, 0x01, 0x00, 0x00, 0x00, 0x00, 0x09]

/-- Byte 4 holds the audio and video flags and is not compared. -/
def isFlvHeader (buf : Mem) : Bool :=
  (List.range flvHeaderLength).all fun i => i == 4 || some (buf i) == flvHeader[i]?

/-! ## Reading -/

/-- The bytes the next `read` of `n` returns. -/
def next (p : FlvPlayer) (n : Nat) : List UInt8 := (p.fileFd.map fun fd => fd.next n).getD []

/-- The result of `read(file_fd, _, n)`. -/
def got (p : FlvPlayer) (n : Nat) : Int :=
  match p.fileFd with
  | none => -1
  | some fd => (fd.next n).length

/-- `read(file_fd, tag_header + pos, n)`. -/
def readTagHeader (p : FlvPlayer) (pos n : Nat) : FlvPlayer :=
  { p with
    fileFd := p.fileFd.map fun fd => fd.skip (fd.next n).length
    tagHeader := write p.tagHeader pos (p.next n) }

/-- `read(file_fd, tag_data, n)`. The buffer has `tagDataSize` bytes; what lies
behind them is memory like any other here. -/
def readTagData (p : FlvPlayer) (n : Nat) : FlvPlayer :=
  { p with
    fileFd := p.fileFd.map fun fd => fd.skip (fd.next n).length
    tagData := write p.tagData 0 (p.next n) }

/-- `lseek(file_fd, d, SEEK_CUR)`. -/
def seekCur (p : FlvPlayer) (d : Int) : FlvPlayer :=
  { p with fileFd := p.fileFd.map fun fd => fd.seekCur d }

def addCurIdx (p : FlvPlayer) (n : Int) : FlvPlayer := { p with curIdx := p.curIdx + n }

/-- The tag type in the header buffer. -/
def headerType (p : FlvPlayer) : Nat := (p.tagHeader 0).toNat &&& 0x1F

/-- `buf_len` from the 24-bit size in the header buffer. -/
def setBufLen (p : FlvPlayer) : FlvPlayer :=
  { p with bufLen := be24 (p.tagHeader 1) (p.tagHeader 2) (p.tagHeader 3) }

/-! ## Handling a tag -/

/-- What `handle_frame` does: a frame that is no key frame waits for one. -/
def handleFrame (needIFrame : Bool) (buf : Mem) : List Access × Bool :=
  if buf 0 = 0x17 then
    (frameLengthReads ++ [.read 0, .nalu .idr 9 (frameLength buf)], false)
  else if needIFrame then (frameLengthReads ++ [.read 0], needIFrame)
  else (frameLengthReads ++ [.read 0, .nalu .other 9 (frameLength buf)], needIFrame)

def handleVideoTagData (needIFrame : Bool) (buf : Mem) : List Access × Bool :=
  if buf 1 = 0x00 then (.read 1 :: spsPps buf, needIFrame)
  else
    let (accesses, needIFrame) := handleFrame needIFrame buf
    (.read 1 :: accesses, needIFrame)

/-- Both audio handlers; the length is taken in `UINT32`. -/
def handleAudio (type : AudioType) (buf : Mem) (len : Nat) : List Access :=
  [.read 0, .audio type (audioChannel buf) 2 (UInt32.ofNat len - 2).toNat]

def handleAudioTagData (buf : Mem) (len : Nat) : List Access :=
  .read 1 :: if buf 1 = 0x00 then handleAudio .info buf len else handleAudio .data buf len

/-- The handlers of a tag, and `need_I_frame` behind them. -/
def tagAccesses (needIFrame : Bool) (type : Nat) (buf : Mem) (len : Nat) : List Access × Bool :=
  if type = tagVideo then handleVideoTagData needIFrame buf
  else if type = tagAudio then (handleAudioTagData buf len, needIFrame)
  else ([], needIFrame)

/-- The call `handle_tag` makes for the tag in the buffers. -/
def tagCall (p : FlvPlayer) (headerGot got : Int) : TagCall where
  type := p.headerType
  buf := p.tagData
  len := p.bufLen
  headerGot := headerGot
  got := got
  accesses := (tagAccesses p.needIFrame p.headerType p.tagData p.bufLen).1
  play := !p.isRegulating

/-- `sleep_once`. -/
def sleepOnce (p : FlvPlayer) (fps : UInt32) : FlvPlayer := { p with fps := fps, needSleep := true }

/-- The player after `handle_tag` and its callbacks. -/
def handleTag (p : FlvPlayer) (env : TagEffects) : FlvPlayer :=
  let p := { p with
    needIFrame := (tagAccesses p.needIFrame p.headerType p.tagData p.bufLen).2
    tagData := env.rewrite p.tagData }
  env.sleeps.foldl sleepOnce p

/-! ## `feed_task` -/

/-- The sleep behind a tag: `usleep(1000000 / fps)`; `none` is the division by zero. -/
def sleepBehindTag (p : FlvPlayer) : Option FlvPlayer :=
  if p.needSleep && !p.isRegulating && !p.stepOneFrame then
    if p.fps = 0 then none else some { p with needSleep := false }
  else some p

/-- The end of a single step, and of a regulated walk. -/
def countTag (p : FlvPlayer) : FlvPlayer :=
  let p := if p.stepOneFrame && !p.isRegulating && p.headerType == tagVideo && p.tagData 1 == 0x01
    then { p with stepOneFrame := false } else p
  if p.isRegulating && p.headerType == tagVideo then
    { p with
      regulateTagCount := p.regulateTagCount - 1
      isRegulating := p.regulateTagCount - 1 != 0 }
  else p

/-- `lseek(file_fd, 4, SEEK_CUR); cur_idx += 4`. -/
def skipPreviousTagSize (p : FlvPlayer) : FlvPlayer := (p.seekCur 4).addCurIdx 4

/-- The head of `feed_task`, before its loop. -/
def feedBegin (p : FlvPlayer) : FlvPlayer :=
  { p with
    totalBytes := match p.fileFd with
      | none => -1
      | some fd => fd.content.length
    fileFd := p.fileFd.map fun fd => { fd with offset := 0 }
    curIdx := 0
    bufLen := 0 }

/-- How a round of the loop in `feed_task` ends. -/
inductive FeedRound
  /-- `is_playing` is off: the loop is left. -/
  | stopped
  /-- Paused, or too near the end of the file: ten milliseconds of sleep. -/
  | wait
  | header (p : FlvPlayer)
  | tag (call : TagCall) (p : FlvPlayer)
  /-- The tag was handled, and `1000000 / fps` divided by zero. -/
  | crash (call : TagCall)

/-- The tag header behind its first nine bytes, and the data, read into the buffers. -/
def readTag (p : FlvPlayer) : FlvPlayer :=
  let n := tagHeaderSize - flvHeaderLength
  let p := ((p.readTagHeader flvHeaderLength n).addCurIdx (p.got n)).setBufLen
  (p.readTagData p.bufLen).addCurIdx (p.got p.bufLen)

/-- How many data bytes `readTag` gets. -/
def readTagGot (p : FlvPlayer) : Int :=
  let p := (p.readTagHeader flvHeaderLength (tagHeaderSize - flvHeaderLength)).setBufLen
  p.got p.bufLen

/-- The rest of a round for the tag in the buffers. -/
def finishTag (call : TagCall) (p : FlvPlayer) : FeedRound :=
  match p.sleepBehindTag with
  | none => .crash call
  | some p => .tag call p.countTag.skipPreviousTagSize

/-- One round of the loop in `feed_task`. -/
def feedRound (env : TagEffects) (p : FlvPlayer) : FeedRound :=
  if !p.isPlaying then .stopped
  else if p.isPause && !p.stepOneFrame then .wait
  else if p.curIdx + flvHeaderLength > p.totalBytes then .wait
  else
    let got := p.got flvHeaderLength
    let p := (p.readTagHeader 0 flvHeaderLength).addCurIdx got
    if isFlvHeader p.tagHeader then .header p.skipPreviousTagSize
    else
      -- no read is checked: a short one leaves the end of the buffer as it was
      let headerGot := got + p.got (tagHeaderSize - flvHeaderLength)
      let dataGot := p.readTagGot
      let p := p.readTag
      finishTag (p.tagCall headerGot dataGot) (p.handleTag env)

/-! ## The GUI's commands -/

/-- `set_file_path`; `opened` is what `open` makes of the new path. -/
def setFilePath (p : FlvPlayer) (opened : Option (List UInt8)) : FlvPlayer :=
  if p.isPlaying then p else { p with fileFd := opened.map fun content => ⟨content, 0⟩ }

/-- `start`, up to the thread it starts (`feedBegin`). -/
def start (p : FlvPlayer) : FlvPlayer :=
  if p.isPlaying || p.fileFd.isNone then p
  else { p with isPlaying := true, isPause := false, needIFrame := true }

def stop (p : FlvPlayer) : FlvPlayer :=
  if p.isPlaying then { p with isPlaying := false, isPause := false, fileFd := none } else p

def pause (p : FlvPlayer) : FlvPlayer := { p with isPause := !p.isPause }

/-- A player that was just made, with a file opened. The constructor sets fewer
fields; the others start as zero here. -/
def opened (content : List UInt8) : FlvPlayer where
  fileFd := some ⟨content, 0⟩
  isPlaying := false
  isPause := false
  needSleep := false
  needIFrame := false
  isRegulating := false
  stepOneFrame := false
  fps := 0
  regulateTagCount := 0
  curIdx := 0
  totalBytes := 0
  tagHeader := fun _ => 0
  tagData := fun _ => 0
  bufLen := 0

/-- A player as its constructor makes it: the fields that are not named here, the
buffers among them, hold anything. -/
structure Constructed (p : FlvPlayer) : Prop where
  fileFd : p.fileFd = none
  isPlaying : p.isPlaying = false
  isPause : p.isPause = false
  needSleep : p.needSleep = false
  isRegulating : p.isRegulating = false
  stepOneFrame : p.stepOneFrame = false

/-! ## Moving by tags -/

/-- One round of the loop in `move_forward`. -/
def forwardTag (p : FlvPlayer) : FlvPlayer :=
  let q := ((p.readTagHeader 0 tagHeaderSize).addCurIdx (p.got tagHeaderSize)).setBufLen
  (q.seekCur (q.bufLen + 4)).addCurIdx (q.bufLen + 4)

def moveForward : Nat → FlvPlayer → FlvPlayer
  | 0, p => p
  | n + 1, p => if p.curIdx + tagHeaderSize ≤ p.totalBytes then moveForward n p.forwardTag else p

/-- The previous tag size in front of the cursor, read into the header buffer. -/
def readPreviousTagSize (p : FlvPlayer) : FlvPlayer :=
  let p := (p.seekCur (-4)).readTagHeader 0 4
  { p with bufLen := be32 (p.tagHeader 0) (p.tagHeader 1) (p.tagHeader 2) (p.tagHeader 3) }

def moveBackward : Nat → FlvPlayer → FlvPlayer
  | 0, p => p
  | n + 1, p =>
    if 0 < p.curIdx then
      let q := p.readPreviousTagSize
      -- seeking back and reading the four bytes leaves the offset where it was
      if q.bufLen = 0 then q
      else moveBackward n
        ({ q with curIdx := toLong (q.curIdx - (4 + q.bufLen)) }.seekCur (toLong (-4 - q.bufLen)))
    else p

/-- The cursor leaves no room for a tag header. -/
def atEnd (p : FlvPlayer) : Bool := p.curIdx + tagHeaderSize > p.totalBytes

/-- The tag header and two data bytes at the cursor, read without moving. -/
def peek (p : FlvPlayer) : FlvPlayer :=
  ((p.readTagHeader 0 tagHeaderSize).readTagData 2).seekCur (-(tagHeaderSize : Int) - 2)

/-- The first half of `move`: the cursor goes ahead or back. -/
def moveCursor (tagCount : Int) (p : FlvPlayer) : FlvPlayer :=
  if 0 ≤ tagCount then p.moveForward tagCount.toNat else p.moveBackward (-tagCount).toNat

/-- `move`: the player, the type it reports and whether the tag is an I frame. -/
def move (tagCount : Int) (p : FlvPlayer) : FlvPlayer × Nat × Bool :=
  let p := p.moveCursor tagCount
  if p.atEnd then (p, tagAudio, false)
  else
    let p := p.peek
    (p, p.headerType, p.headerType == tagVideo && p.tagData 0 == 0x17 && p.tagData 1 == 0x01)

/-! ## `step_by_frame` -/

/-- The cursor is at the first tag of the file. -/
def atFirstTag (p : FlvPlayer) : Bool := p.curIdx == flvHeaderLength + 4

/-- A round of the first loop; the state is `count` and the player. -/
def countRound (dire : Int) : Nat × FlvPlayer → (Nat × FlvPlayer) ⊕ FlvPlayer
  | (0, p) => .inr p
  | (count + 1, p) =>
    let (p, type, _) := p.move dire
    -- at either end of the file the walk is over, whatever is left to count
    if p.atEnd || p.atFirstTag then .inr p
    else if type = tagVideo ∧ p.tagData 1 = 0x01 then .inl (count, p)
    else .inl (count + 1, p)

/-- A round of the second loop, back to a video tag. -/
def videoRound (p : FlvPlayer) : FlvPlayer ⊕ FlvPlayer :=
  let (p, type, _) := p.move (-1)
  if type = tagVideo then .inr p else .inl p

/-- A round of the third loop, back to an I frame; the state is `is_i_frame` and
the player. -/
def keyFrameRound : Bool × FlvPlayer → (Bool × FlvPlayer) ⊕ (Bool × FlvPlayer)
  | (isIFrame, p) =>
    if p.atFirstTag then .inr (isIFrame, p)
    else
      let (p, type, isIFrame) := p.move (-1)
      let p := if type = tagVideo then { p with regulateTagCount := p.regulateTagCount + 1 } else p
      if isIFrame then .inr (isIFrame, p) else .inl (isIFrame, p)

/-- Behind the end of the file: back to the last video tag. -/
def backToVideo (fuel : Nat) (p : FlvPlayer) : Option FlvPlayer :=
  if p.atEnd then Loops.run videoRound fuel p else some p

/-- From a frame that is no I frame back to the I frame in front of it. Where there
is none, the feed loop is to wait for the next one. -/
def backToKeyFrame (fuel : Nat) (p : FlvPlayer) : Option FlvPlayer :=
  let (p, type, isIFrame) := p.move 0
  if type = tagVideo ∧ isIFrame = true then some { p with isRegulating := false }
  else do
    let (isIFrame, p) ← Loops.run keyFrameRound fuel (isIFrame, { p with regulateTagCount := 0 })
    if isIFrame then some p else some { p with needIFrame := true, isRegulating := false }

/-- `step_by_frame`, each loop with fuel; `none` when a loop needs more. -/
def stepByFrame (fuel : Nat) (p : FlvPlayer) (count : Int) : Option FlvPlayer :=
  if p.isRegulating then some p
  else if count - 1 = 0 then some { p with isRegulating := false }
  else do
    let start := ((count - 1).natAbs, { p with isRegulating := true })
    let p ← Loops.run (countRound (count - 1).sign) fuel start
    let p ← backToVideo fuel p
    backToKeyFrame fuel p

/-! ## Reading at the cursor -/

theorem isFlvHeader_front (m : Mem) (flags : UInt8) :
    isFlvHeader (write m 0 (flvHeader.set 4 flags)) = true := by
  simp [isFlvHeader, flvHeader, flvHeaderLength, List.range, List.range.loop, write]

/-- The descriptor has `done` behind it and `rest` in front of it. -/
def ReadsAt (p : FlvPlayer) (done rest : List UInt8) : Prop :=
  p.fileFd = some ⟨done ++ rest, done.length⟩

/-- The buffers hold a tag of a type with its data. -/
structure HoldsTag (p : FlvPlayer) (type : Nat) (data : List UInt8) : Prop where
  type : p.headerType = type
  bufLen : p.bufLen = data.length
  data : slice p.tagData 0 data.length = data

namespace ReadsAt

variable {p : FlvPlayer} {done xs rest : List UInt8}

theorem fd (h : ReadsAt p done rest) : p.fileFd = some ⟨done ++ rest, done.length⟩ := h

theorem next (h : ReadsAt p done (xs ++ rest)) : p.next xs.length = xs := by
  simp [FlvPlayer.next, h.fd, Fd.next]

theorem got (h : ReadsAt p done (xs ++ rest)) : p.got xs.length = xs.length := by
  simp [FlvPlayer.got, h.fd, Fd.next]

/-- A read moves what it returns from the front of the descriptor behind it. -/
theorem readTagHeader (h : ReadsAt p done (xs ++ rest)) (pos : Nat) :
    ReadsAt (p.readTagHeader pos xs.length) (done ++ xs) rest := by
  simp [ReadsAt, FlvPlayer.readTagHeader, h.fd, Fd.skip, Fd.next]

theorem readTagData (h : ReadsAt p done (xs ++ rest)) :
    ReadsAt (p.readTagData xs.length) (done ++ xs) rest := by
  simp [ReadsAt, FlvPlayer.readTagData, h.fd, Fd.skip, Fd.next]

theorem seekCur (h : ReadsAt p done (xs ++ rest)) :
    ReadsAt (p.seekCur xs.length) (done ++ xs) rest := by
  have hseek : (0 : Int) ≤ (done.length : Int) + (xs.length : Int) := by omega
  have hto : ((done.length : Int) + (xs.length : Int)).toNat = done.length + xs.length := by omega
  simp [ReadsAt, FlvPlayer.seekCur, h.fd, Fd.seekCur, hseek, hto]

/-- Behind the first nine bytes of a tag, `readTag` reads the rest of its header
and its data. -/
theorem readTag {m : Mem} {front tail data rest : List UInt8}
    (h : ReadsAt p done (tail ++ (data ++ rest))) (hheader : p.tagHeader = write m 0 front)
    (hfront : front.length = flvHeaderLength)
    (htail : tail.length = tagHeaderSize - flvHeaderLength)
    (hsize : be24 (front.getD 1 0) (front.getD 2 0) (front.getD 3 0) = data.length) :
    ReadsAt p.readTag (done ++ (tail ++ data)) rest ∧
    HoldsTag p.readTag ((front.getD 0 0).toNat &&& 0x1F) data ∧
    p.readTag.curIdx = p.curIdx + tail.length + data.length ∧
    p.got (tagHeaderSize - flvHeaderLength) = tail.length ∧ p.readTagGot = data.length := by
  have hgot := h.got
  have hnext := h.next
  have hread := h.readTagHeader flvHeaderLength
  rw [htail] at hgot hnext hread
  let r := ((p.readTagHeader flvHeaderLength (tagHeaderSize - flvHeaderLength)).addCurIdx
    (p.got (tagHeaderSize - flvHeaderLength))).setBufLen
  have hr : ReadsAt r (done ++ tail) (data ++ rest) := hread
  -- the second read leaves the bytes of the first in place
  have hbyte : ∀ i, i < flvHeaderLength → r.tagHeader i = front.getD i 0 := by
    intro i hi
    show write p.tagHeader flvHeaderLength (p.next (tagHeaderSize - flvHeaderLength)) i = _
    rw [hnext, write_of_not_mem (.inl hi), hheader, write_zero_of_lt (hfront ▸ hi)]
  have hlen : r.bufLen = data.length := by
    show be24 (r.tagHeader 1) (r.tagHeader 2) (r.tagHeader 3) = _
    rw [hbyte 1 (by decide), hbyte 2 (by decide), hbyte 3 (by decide)]
    exact hsize
  have hdata : ReadsAt (r.readTagData r.bufLen) (done ++ (tail ++ data)) rest := by
    have hd := hr.readTagData
    rw [List.append_assoc] at hd
    rw [hlen]
    exact hd
  have hdataGot : r.got r.bufLen = data.length := by rw [hlen, hr.got]
  refine ⟨hdata, ⟨?_, hlen, ?_⟩, ?_, by rw [hgot, htail], hdataGot⟩
  · show (r.tagHeader 0).toNat &&& 0x1F = _
    rw [hbyte 0 (by decide)]
  · show slice (write r.tagData 0 (r.next r.bufLen)) 0 _ = _
    rw [hlen, hr.next, slice_write]
  · show p.curIdx + p.got (tagHeaderSize - flvHeaderLength) + r.got r.bufLen = _
    rw [hgot, hdataGot, htail]

end ReadsAt

end FlvPlayer

end MiniSurveillance
