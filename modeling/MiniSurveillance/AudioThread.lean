import Mathlib.Data.List.GetD
import MiniSurveillance.Base.Runs
import MiniSurveillance.H264Decoder

/-!
# The audio thread

`VideoSender::openAudio` starts a thread that fills a buffer by reads of any size and hands each
full buffer to the encoder. What a read returns is added to `ready` as it is, and an error
is -1.

* `step_law_iff`: a read keeps the bytes together exactly if it is no error.
* `law_along_iff`: the blocks are the pieces of the stream as long as no read fails.
-/

namespace MiniSurveillance
open Runs

/-- What the thread passes on. -/
inductive AudioOutput
  | decodeInfo
  | block (data : List UInt8)
deriving DecidableEq, Repr

def AudioOutput.data : AudioOutput → Option (List UInt8)
  | .decodeInfo => none
  | .block data => some data

/-- The thread with its variables. `stream` holds all bytes that were read. -/
structure AudioThread where
  buf : Int → UInt8
  ready : Int := 0
  count : Nat := 0
  outputs : List AudioOutput := []
  stream : List UInt8 := []

namespace AudioThread

/-- A round of the loop: without a device, with a read that fails, or with one that returns
some bytes, which may be none. -/
inductive Event
  | noDevice
  | error
  | read (data : List UInt8)
deriving DecidableEq, Repr

/-- `audio_io->read(buf + ready, len - ready)`, which returns no more bytes than it is
asked for. -/
def readDevice (len : Nat) (t : AudioThread) : Event → Option AudioThread
  | .noDevice => some t
  | .error => some { t with ready := t.ready - 1 }
  | .read data =>
    if data.length ≤ len - t.ready then
      some { t with
        buf := (⟨t.ready, fun k => data.getD k 0, data.length⟩ : Copy).memcpy t.buf
        ready := t.ready + data.length
        stream := t.stream ++ data }
    else none

/-- The bytes from the start of the buffer on. -/
def bytes (t : AudioThread) (n : Nat) : List UInt8 := (List.range n).map fun i : Nat => t.buf i

/-- A full buffer goes to the encoder, every ten times behind the decoder's information. -/
def passOn (len : Nat) (t : AudioThread) : AudioThread :=
  if t.ready < len then t
  else { t with
    outputs := t.outputs ++ (if t.count % 10 = 0 then [.decodeInfo] else []) ++
      [.block (t.bytes len)]
    count := t.count + 1
    ready := 0 }

def step (len : Nat) (t : AudioThread) (e : Event) : Option AudioThread :=
  (t.readDevice len e).map (passOn len)

/-- The blocks passed to `encodeAudioData`. -/
def blocks (t : AudioThread) : List (List UInt8) :=
  t.outputs.filterMap AudioOutput.data

/-- Every byte of the stream is in a block or waits in the buffer, in the order of the stream,
and no read goes outside of the buffer. -/
structure Law (len : Nat) (t : AudioThread) : Prop where
  nonneg : 0 ≤ t.ready
  le : t.ready ≤ len
  full : ∀ b ∈ t.blocks, b.length = len
  stream : t.stream = t.blocks.flatten ++ t.bytes t.ready.toNat

variable {len : Nat} {t u : AudioThread}

@[simp] theorem bytes_length (t : AudioThread) (n : Nat) : (t.bytes n).length = n := by
  rw [bytes, List.length_map, List.length_range]

/-- Blocks of one length follow each other in the stream. -/
theorem flatten_piece {bs : List (List UInt8)} (hfull : ∀ b ∈ bs, b.length = len)
    (rest : List UInt8) {i : Nat} {b : List UInt8} (hb : bs[i]? = some b) :
    ((bs.flatten ++ rest).drop (i * len)).take len = b := by
  induction bs generalizing i with
  | nil => cases hb
  | cons c bs ih =>
    obtain ⟨hc, hbs⟩ := List.forall_mem_cons.mp hfull
    rw [List.flatten_cons, List.append_assoc]
    cases i with
    | zero =>
      obtain rfl : c = b := Option.some.inj hb
      rw [Nat.zero_mul, List.drop_zero, List.take_left' hc]
    | succ i =>
      rw [Nat.succ_mul, Nat.add_comm, ← List.drop_drop, List.drop_left' hc]
      exact ih hbs hb

/-- No byte is lost or repeated. -/
theorem Law.length (h : t.Law len) :
    (t.stream.length : Int) = t.blocks.length * len + t.ready := by
  have hflat : t.blocks.flatten.length = t.blocks.length * len := by
    rw [List.length_flatten, List.eq_replicate_of_mem (l := t.blocks.map List.length) (a := len)]
    · simp
    · simpa using h.full
  have hlength := congrArg List.length h.stream
  rw [List.length_append, hflat, bytes_length] at hlength
  have hready := Int.toNat_of_nonneg h.nonneg
  push_cast [hlength]
  omega

theorem law_init (len : Nat) (buf : Int → UInt8) : Law len { buf := buf } where
  nonneg := Int.le_refl 0
  le := Int.natCast_nonneg len
  full := nofun
  stream := rfl

/-- What is copied behind the bytes that wait stands behind them. -/
theorem bytes_memcpy (mem : Int → UInt8) (ready : Nat) (data : List UInt8) :
    (List.range (ready + data.length)).map (fun i : Nat =>
        (⟨ready, fun k => data.getD k 0, data.length⟩ : Copy).memcpy mem i) =
      (List.range ready).map (fun i : Nat => mem i) ++ data := by
  rw [List.range_add, List.map_append, List.map_map]
  congr 1
  · refine List.map_congr_left fun i hi => Copy.memcpy_outside _ _ fun hwrites => ?_
    have hbelow := List.mem_range.mp hi
    have hfrom : (ready : Int) ≤ i := hwrites.1
    omega
  · refine List.ext_getElem (by simp) fun i _ hi => ?_
    rw [List.getElem_map, List.getElem_range, Function.comp_apply, Nat.cast_add]
    exact (Copy.memcpy_inside ⟨ready, fun k => data.getD k 0, data.length⟩ mem hi).trans
      (List.getD_eq_getElem data 0 hi)

/-- The bytes of a read follow those that wait. -/
theorem readDevice_law {data : List UInt8} (h : t.Law len)
    (hu : t.readDevice len (.read data) = some u) : u.Law len := by
  simp only [readDevice, Option.ite_none_right_eq_some, Option.some.injEq] at hu
  obtain ⟨hfits, rfl⟩ := hu
  have hnonneg := h.nonneg
  refine ⟨by show 0 ≤ t.ready + _; omega, by show t.ready + _ ≤ (len : Int); omega, h.full, ?_⟩
  have hready : (t.ready.toNat : Int) = t.ready := Int.toNat_of_nonneg hnonneg
  have hcopied := bytes_memcpy t.buf t.ready.toNat data
  rw [hready] at hcopied
  show t.stream ++ data = t.blocks.flatten ++ bytes _ (t.ready + data.length).toNat
  rw [show (t.ready + data.length).toNat = t.ready.toNat + data.length by omega, bytes, hcopied,
    h.stream, List.append_assoc]
  rfl

/-- Passing a full buffer on keeps the bytes together. -/
theorem passOn_law (h : t.Law len) : (t.passOn len).Law len := by
  unfold passOn
  split
  · exact h
  · next hfull =>
    have hready : t.ready.toNat = len := by
      have hle := h.le
      omega
    have hinfo : (if t.count % 10 = 0 then [AudioOutput.decodeInfo] else []).filterMap
        AudioOutput.data = [] := by
      split
      · rfl
      · rfl
    have hblocks : (t.outputs ++ (if t.count % 10 = 0 then [AudioOutput.decodeInfo] else []) ++
        [AudioOutput.block (t.bytes len)]).filterMap AudioOutput.data =
          t.blocks ++ [t.bytes len] := by
      rw [List.filterMap_append, List.filterMap_append, hinfo, List.append_nil]
      rfl
    refine ⟨Int.le_refl 0, Int.natCast_nonneg len, ?_, ?_⟩
    · rw [blocks, hblocks]
      intro b hb
      rcases List.mem_append.mp hb with hb | hb
      · exact h.full b hb
      · rw [List.mem_singleton.mp hb, bytes_length]
    · rw [blocks, hblocks, List.flatten_append, List.flatten_singleton]
      show t.stream = t.blocks.flatten ++ t.bytes len ++ []
      rw [List.append_nil, h.stream, hready]

/-- A read keeps the bytes together exactly if it is no error. -/
theorem step_law_iff {e : Event} (h : t.Law len) (hu : step len t e = some u) :
    u.Law len ↔ e ≠ .error := by
  obtain ⟨v, hv, rfl⟩ := Option.map_eq_some_iff.mp hu
  cases e with
  | noDevice =>
    obtain rfl := Option.some.inj hv
    exact iff_of_true (passOn_law h) nofun
  | read data => exact iff_of_true (passOn_law (readDevice_law h hv)) nofun
  | error =>
    obtain rfl := Option.some.inj hv
    refine iff_of_false (fun hlaw => ?_) fun hne => hne rfl
    -- the place of the last byte is given up, or the next read goes in front of the buffer
    have hle := h.le
    rw [passOn, if_pos (show t.ready - 1 < len by omega)] at hlaw
    have hbefore := h.length
    have hafter : (t.stream.length : Int) = t.blocks.length * len + (t.ready - 1) := hlaw.length
    omega

/-- For reads of any size, the reads stay in the buffer and the blocks are the consecutive
pieces of the stream exactly as long as no read returns an error. -/
theorem law_along_iff (len : Nat) (buf : Int → UInt8) (es : List Event) :
    (∀ fs t, fs <+: es → exec (step len) { buf := buf } fs = some t → t.Law len) ↔
      AtEvents (step len) { buf := buf } es fun _ _ e => e ≠ .error :=
  holds_along_iff_atEvents (I := fun _ t => t.Law len) (law_init len buf)
    (fun _ _ _ _ _ h ht => step_law_iff h ht) es

/-- The bytes 1 and 2 of a block of two come in two reads with an error between them. -/
theorem failed_read_loses_byte :
    ¬ ∀ fs t, fs <+: [.read [1], .error, .read [2]] →
      exec (step 2) { buf := fun _ => 0 } fs = some t → t.Law 2 := by
  intro h
  have hlaw := (h [.read [1], .error] _ (by decide) rfl).length
  exact absurd hlaw (by decide)

end AudioThread

end MiniSurveillance
