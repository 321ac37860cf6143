import MiniSurveillance.MainCtrl
import MiniSurveillance.RecordPage

/-!
# Downloading a recording

`IPCClient::recordDownload` writes the chunks of a stream to a file and returns the file's
path, whatever became of the stream and of the file. `getRecordFile` has a branch for a
download that failed, and the record page plays every path that is not empty.

* `recordDownload_file`: what is in the file behind a download.
* `recordDownload_reports_iff`: the path stands for the whole recording exactly when the
  stream ended well and the file took all of it.
-/

namespace MiniSurveillance
open Table Text

/-- A `FileReply` of the stream. Of its bytes the file takes `taken`, at once or when it is
closed. -/
structure Chunk where
  buffer : List UInt8
  taken : Nat
deriving DecidableEq

/-- What a download meets: whether the file can be opened, what the reads bring, and the
status of the stream. -/
structure Download where
  opens : Bool
  chunks : List Chunk
  ok : Bool
deriving DecidableEq

/-- An `ofstream` over a file, which is `none` where there is none. -/
structure OutFile where
  file : Option (List UInt8)
  good : Bool
deriving DecidableEq

namespace OutFile

/-- `open` with `trunc`. -/
def openFile (opens : Bool) (file : Option (List UInt8)) : OutFile :=
  if opens then ⟨some [], true⟩ else ⟨file, false⟩

/-- A stream that has failed once writes nothing more. -/
def write (o : OutFile) (c : Chunk) : OutFile :=
  if o.good then ⟨o.file.map (· ++ c.buffer.take c.taken), decide (c.buffer.length ≤ c.taken)⟩
  else o

end OutFile

namespace Download

/-- The file could be opened, and took all that was written to it. -/
def Written (d : Download) : Prop :=
  d.opens = true ∧ ∀ c ∈ d.chunks, c.buffer.length ≤ c.taken

instance (d : Download) : Decidable d.Written := inferInstanceAs (Decidable (_ ∧ _))

/-- The bytes of all chunks. -/
def bytes (d : Download) : List UInt8 := d.chunks.flatMap Chunk.buffer

end Download

namespace IPCClient

/-- The path every recording is saved to. -/
def savePath (applicationDirPath : String) : String :=
  applicationDirPath ++ "/record" ++ "/record.flv"

/-- `recordDownload`, and what the file at its path holds then. The status of the stream
goes to the debug output only. -/
def recordDownload (applicationDirPath : String) (d : Download) (file : Option (List UInt8)) :
    Option String × Option (List UInt8) :=
  (some (savePath applicationDirPath),
    (d.chunks.foldl OutFile.write (OutFile.openFile d.opens file)).file)

end IPCClient

namespace MainCtrl

def recordRequest (key beginTime endTime : String) : Json :=
  .object [("key", .string key), ("begin_time", .string beginTime), ("end_time", .string endTime)]

/-- `getRecordFile`, and what the file holds then. -/
def getRecordFile (deviceIdx : Int) (beginTime endTime applicationDirPath : String) (d : Download)
    (file : Option (List UInt8)) (s : MainCtrl) :
    Outcome Fault MainCtrl (String × Option (List UInt8)) :=
  match lookup s.devices deviceIdx with
  | none => .ok ("", file) s
  | some device =>
    if s.rpc then
      let s := { s with sent := s.sent ++ [recordRequest device.key beginTime endTime] }
      match IPCClient.recordDownload applicationDirPath d file with
      | (none, file) => .ok ("", file) s
      | (some path, file) => .ok (cStr path, file) s
    else .crashed

end MainCtrl

namespace OutFile

theorem foldl_write_failed (chunks : List Chunk) (o : OutFile) (h : o.good = false) :
    chunks.foldl write o = o := by
  induction chunks with
  | nil => rfl
  | cons c chunks ih => rw [List.foldl_cons, write, h]; exact ih

/-- What the file holds is what it held and the first of the bytes written to it. -/
theorem foldl_write_prefix (chunks : List Chunk) (held : List UInt8) (good : Bool) :
    ∃ more, (chunks.foldl write ⟨some held, good⟩).file = some (held ++ more) ∧
      more <+: chunks.flatMap Chunk.buffer := by
  induction chunks generalizing held good with
  | nil => exact ⟨[], by simp, List.prefix_rfl⟩
  | cons c chunks ih =>
    cases good with
    | false =>
      refine ⟨[], ?_, List.nil_prefix⟩
      rw [foldl_write_failed _ _ rfl, List.append_nil]
    | true =>
      rw [List.foldl_cons, write, if_pos rfl, List.flatMap_cons]
      by_cases hall : c.buffer.length ≤ c.taken
      · obtain ⟨more, hfile, hprefix⟩ := ih (held ++ c.buffer) true
        refine ⟨c.buffer ++ more, ?_, (List.prefix_append_right_inj _).mpr hprefix⟩
        simpa [hall, List.take_of_length_le] using hfile
      · -- the stream has failed within this chunk
        refine ⟨c.buffer.take c.taken, ?_,
          (List.take_prefix _ _).trans (List.prefix_append _ _)⟩
        rw [foldl_write_failed _ _ (by simpa using hall)]
        rfl

theorem foldl_write_all {chunks : List Chunk} (h : ∀ c ∈ chunks, c.buffer.length ≤ c.taken)
    (held : List UInt8) : (chunks.foldl write ⟨some held, true⟩).file =
      some (held ++ chunks.flatMap Chunk.buffer) := by
  induction chunks generalizing held with
  | nil => simp
  | cons c chunks ih =>
    obtain ⟨hc, hrest⟩ := List.forall_mem_cons.mp h
    have hwrite : write ⟨some held, true⟩ c = ⟨some (held ++ c.buffer), true⟩ := by
      simp [write, hc, List.take_of_length_le]
    rw [List.foldl_cons, hwrite, ih hrest, List.flatMap_cons, List.append_assoc]

end OutFile

namespace IPCClient

variable (applicationDirPath : String) (d : Download) (file : Option (List UInt8))

/-- The file is the old one where it does not open, and else holds the first bytes of the
recording. -/
theorem recordDownload_file :
    if d.opens then
      ∃ held, (recordDownload applicationDirPath d file).2 = some held ∧ held <+: d.bytes
    else (recordDownload applicationDirPath d file).2 = file := by
  cases hopens : d.opens with
  | true =>
    obtain ⟨more, hfile, hprefix⟩ := OutFile.foldl_write_prefix d.chunks [] true
    exact ⟨more, by rw [recordDownload, hopens]; exact hfile, hprefix⟩
  | false =>
    rw [recordDownload, hopens]
    exact congrArg OutFile.file (OutFile.foldl_write_failed d.chunks ⟨file, false⟩ rfl)

/-- The download is reported as failed: no path comes out of it, and the record page is left
as it is. -/
def Refused : Prop :=
  (recordDownload applicationDirPath d file).1 = none ∧
  ∀ (s t : MainCtrl) (deviceIdx : Int) (beginTime endTime name : String)
    (left : Option (List UInt8)),
    s.getRecordFile deviceIdx beginTime endTime applicationDirPath d file = .ok (name, left) t →
      name = "" ∧ ∀ page : RecordPage, page.onListItemClicked name left = page

/-- The path of the whole recording comes out of a download that went well, and any other one
is refused. -/
def Reports : Prop :=
  if d.ok = true ∧ d.Written then
    recordDownload applicationDirPath d file = (some (savePath applicationDirPath), some d.bytes)
  else Refused applicationDirPath d file

theorem recordDownload_whole (h : d.Written) :
    recordDownload applicationDirPath d file =
      (some (savePath applicationDirPath), some d.bytes) := by
  rw [recordDownload, h.1]
  exact congrArg (Prod.mk _) (OutFile.foldl_write_all h.2 [])

/-- No download is refused. -/
theorem recordDownload_reports_iff :
    Reports applicationDirPath d file ↔ d.ok = true ∧ d.Written := by
  unfold Reports
  split
  · next hwell => exact iff_of_true (recordDownload_whole applicationDirPath d file hwell.2) hwell
  · next hfailed => exact iff_of_false nofun hfailed

/-- A stream that breaks off behind three bytes. -/
def brokenOff : Download := ⟨true, [⟨[0x46, 0x4C, 0x56], 3⟩], false⟩

/-- A controller that is connected, with one device. -/
def oneDevice : MainCtrl :=
  { devices := [⟨"", "000001", "", "", true, false, false, -1⟩], rpc := true }

/-- The three bytes are played as a recording. -/
theorem partial_recording_plays :
    ∃ name left t, oneDevice.getRecordFile 0 "" "" "C:" brokenOff none = .ok (name, some left) t ∧
      left = [0x46, 0x4C, 0x56] ∧
      ((RecordPage.init RecordPage.fresh).onListItemClicked name (some left)).flv.player.isPlaying =
        true ∧
      ¬ Reports "C:" brokenOff none := by
  refine ⟨_, _, _, rfl, rfl, by decide, fun h => ?_⟩
  exact absurd (recordDownload_reports_iff _ _ _ |>.mp h) (by decide)

end IPCClient

end MiniSurveillance
