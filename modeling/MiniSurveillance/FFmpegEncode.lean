import Mathlib.Data.List.Range
import MiniSurveillance.VideoOutput

/-!
# Timestamps of the local record

`FFmpeg_Encoder` gets the frame rate of the first picture as the denominator of its time base,
and stamps each frame with a 32-bit counter times the whole milliseconds of a frame.

* `stampsFrom_eq`: the timestamps of a session.
* `increasing_iff`: a counter times an interval increases as long as it does not wrap.
* `timed_iff`: for which rates and how many frames each timestamp is greater than the last.
* `exec_encoder`: along a run the rate is the one of the first picture.
-/

namespace MiniSurveillance
open Runs

structure AVRational where
  num : Int32
  den : Int32
deriving DecidableEq, Repr

namespace FFmpegEncoder

def timeBase (e : FFmpegEncoder) : AVRational := ⟨1, e.fps.toInt32⟩

/-- The counter behind the constructor. Where a call of the library fails it returns early, and
neither the counter nor the frame are set; `opened` says that none does. -/
def initCount (opened : Bool) : Option UInt32 := if opened then some 0 else none

/-- The timestamp `receiveData` gives a frame, and none where it divides by zero. -/
def framePts (e : FFmpegEncoder) (count : UInt32) : Option UInt32 :=
  if e.timeBase.den = 0 then none
  else some (count * (e.timeBase.num * 1000 / e.timeBase.den).toUInt32)

/-- The timestamps of the next `n` frames. -/
def stampsFrom (e : FFmpegEncoder) : UInt32 → Nat → Option (List UInt32)
  | _, 0 => some []
  | count, n + 1 => do
    let pts ← e.framePts count
    let rest ← e.stampsFrom (count + 1) n
    return pts :: rest

/-- The timestamps of a session with `n` frames. -/
def stamps (e : FFmpegEncoder) (opened : Bool) : Nat → Option (List UInt32)
  | 0 => some []
  | n + 1 => (initCount opened).bind fun count => e.stampsFrom count (n + 1)

/-- No frame divides by zero, and each has a timestamp greater than the one before it. -/
def Timed (e : FFmpegEncoder) (opened : Bool) (n : Nat) : Prop :=
  ∃ pts, e.stamps opened n = some pts ∧ pts.IsChain (· < ·)

/-- The milliseconds between two frames. -/
def interval (e : FFmpegEncoder) : UInt32 := (1000 / e.fps.toInt32).toUInt32

variable (e : FFmpegEncoder)

theorem framePts_eq (count : UInt32) :
    e.framePts count = if e.fps = 0 then none else some (count * e.interval) := by
  have hden : e.timeBase.den = 0 ↔ e.fps = 0 := by
    constructor
    · intro h
      exact congrArg Int32.toUInt32 h
    · intro h
      rw [timeBase, h]
      rfl
  rw [framePts, if_congr hden rfl rfl]
  have hnum : e.timeBase.num * 1000 = 1000 := Int32.one_mul 1000
  rw [hnum]
  rfl

/-- The counter has the number of the frame, as far as 32 bits hold it. -/
theorem stampsFrom_eq (hfps : e.fps ≠ 0) (i n : Nat) :
    e.stampsFrom (UInt32.ofNat i) n =
      some ((List.range' i n).map fun j => UInt32.ofNat j * e.interval) := by
  induction n generalizing i with
  | zero => rfl
  | succ n ih =>
    have hnext : UInt32.ofNat i + 1 = UInt32.ofNat (i + 1) := by
      rw [UInt32.ofNat_add]
      rfl
    rw [stampsFrom, framePts_eq, if_neg hfps, hnext, ih]
    rfl

theorem stampsFrom_zero (hfps : e.fps = 0) (count : UInt32) (n : Nat) :
    e.stampsFrom count (n + 1) = none := by
  rw [stampsFrom, framePts_eq, if_pos hfps]
  rfl

theorem stamp_toNat (i : Nat) :
    (UInt32.ofNat i * e.interval).toNat = i * e.interval.toNat % 2 ^ 32 := by
  rw [UInt32.toNat_mul, UInt32.toNat_ofNat', Nat.mod_mul_mod]

end FFmpegEncoder

/-- Multiples of `q` below a modulus increase exactly as long as none reaches it. -/
theorem increasing_iff {q m : Nat} (hq : q < m) (n : Nat) :
    (∀ i < n - 1, i * q % m < (i + 1) * q % m) ↔ n ≤ 1 ∨ 0 < q ∧ (n - 1) * q < m := by
  constructor
  · intro h
    -- a step to the modulus or beyond would fall behind the multiple before it
    have hbelow (i : Nat) (hi : i ≤ n - 1) : i * q < m := by
      induction i with
      | zero => omega
      | succ i ih =>
        have hi' := ih (by omega)
        have hstep := h i (by omega)
        rw [Nat.mod_eq_of_lt hi'] at hstep
        by_contra hge
        have hwrap : (i + 1) * q % m = (i + 1) * q - m := by
          rw [Nat.mod_eq_sub_mod (by omega), Nat.mod_eq_of_lt]
          rw [Nat.succ_mul]
          omega
        rw [hwrap, Nat.succ_mul] at hstep
        omega
    rcases Nat.lt_or_ge 1 n with hn | hn
    · refine .inr ⟨Nat.pos_of_ne_zero fun hzero => ?_, hbelow _ (Nat.le_refl _)⟩
      have hstep := h 0 (by omega)
      rw [hzero] at hstep
      simp at hstep
    · exact .inl hn
  · rintro (hn | ⟨hpos, hlast⟩) i hi
    · omega
    · have hle : (i + 1) * q ≤ (n - 1) * q := Nat.mul_le_mul_right q (by omega)
      rw [Nat.succ_mul] at hle ⊢
      rw [Nat.mod_eq_of_lt (by omega), Nat.mod_eq_of_lt (by omega)]
      omega

namespace FFmpegEncoder

variable (e : FFmpegEncoder)

/-- The quotient is cut off towards zero, and a negative one becomes a large interval. -/
theorem interval_toNat : (e.interval.toNat : Int) =
    Int.tdiv 1000 ((e.fps.toNat : Int).bmod (2 ^ 32)) % 2 ^ 32 := by
  have hfps : e.fps.toInt32.toInt = (e.fps.toNat : Int).bmod (2 ^ 32) := by
    show e.fps.toBitVec.toInt = _
    rw [BitVec.toInt_eq_toNat_bmod, UInt32.toNat_toBitVec]
  have hdiv : ((e.interval.toNat : Int)).bmod (2 ^ 32) =
      (Int.tdiv 1000 ((e.fps.toNat : Int).bmod (2 ^ 32))).bmod (2 ^ 32) := by
    rw [← hfps, ← UInt32.toNat_toBitVec, ← BitVec.toInt_eq_toNat_bmod]
    exact Int32.toInt_div 1000 e.fps.toInt32
  have hlt := e.interval.toNat_lt
  generalize Int.tdiv 1000 _ = quotient at hdiv ⊢
  rw [Int.bmod_def, Int.bmod_def] at hdiv
  omega

/-- A rate of up to a thousand frames has an interval, a greater one has none, and a rate that
is negative as an `int` has one that wraps with the second frame, or none. -/
theorem interval_cases (hfps : e.fps ≠ 0) :
    (e.fps.toNat ≤ 1000 ∧ e.interval.toNat = 1000 / e.fps.toNat ∧ 0 < e.interval.toNat) ∨
    (1000 < e.fps.toNat ∧ e.fps.toNat < 2 ^ 32 - 1000 ∧ e.interval.toNat = 0) ∨
    (2 ^ 32 - 1000 ≤ e.fps.toNat ∧ 2 ^ 32 - 1000 ≤ e.interval.toNat) := by
  have hlt := e.fps.toNat_lt
  have hpos : 0 < e.fps.toNat := Nat.pos_of_ne_zero fun h => hfps (UInt32.toNat_inj.mp h)
  have hq := e.interval_toNat
  have hquot (k : Nat) : Int.tdiv 1000 k = (1000 / k : Nat) := rfl
  rcases Nat.lt_or_ge e.fps.toNat (2 ^ 31) with hsmall | hlarge
  · rw [Int.bmod_eq_of_le (by omega) (by omega), hquot] at hq
    have hle := Nat.div_le_self 1000 e.fps.toNat
    rcases Nat.lt_or_ge 1000 e.fps.toNat with hfast | hslow
    · rw [Nat.div_eq_of_lt hfast] at hq
      exact .inr (.inl ⟨hfast, by omega, by omega⟩)
    · have hone := Nat.div_pos hslow hpos
      exact .inl ⟨hslow, by omega, by omega⟩
  · have hbmod : (e.fps.toNat : Int).bmod (2 ^ 32) = -(2 ^ 32 - e.fps.toNat : Nat) := by
      rw [Int.bmod_def]
      omega
    rw [hbmod, Int.tdiv_neg, hquot] at hq
    have hle := Nat.div_le_self 1000 (2 ^ 32 - e.fps.toNat)
    rcases Nat.lt_or_ge e.fps.toNat (2 ^ 32 - 1000) with hfast | hslow
    · rw [Nat.div_eq_of_lt (by omega)] at hq
      exact .inr (.inl ⟨by omega, hfast, by omega⟩)
    · have hone : 0 < 1000 / (2 ^ 32 - e.fps.toNat) := Nat.div_pos (by omega) (by omega)
      exact .inr (.inr ⟨hslow, by omega⟩)

/-- The session has one frame, or two at a negative rate, or its last timestamp is below the
32 bits of the counter; and there is a rate. -/
def Counts (e : FFmpegEncoder) (n : Nat) : Prop :=
  e.fps ≠ 0 ∧ (n = 1 ∨ (n = 2 ∧ 2 ^ 32 - 1000 ≤ e.fps.toNat) ∨
    (e.fps.toNat ≤ 1000 ∧ (n - 1) * (1000 / e.fps.toNat) < 2 ^ 32))

theorem stamps_isChain_iff (n : Nat) :
    ((List.range' 0 n).map fun j => UInt32.ofNat j * e.interval).IsChain (· < ·) ↔
      n ≤ 1 ∨ 0 < e.interval.toNat ∧ (n - 1) * e.interval.toNat < 2 ^ 32 := by
  rw [← List.range_eq_range', List.isChain_map, List.isChain_range]
  simp only [UInt32.lt_iff_toNat_lt, stamp_toNat]
  exact increasing_iff e.interval.toNat_lt n

theorem counts_iff (hfps : e.fps ≠ 0) (n : Nat) :
    (n + 1 ≤ 1 ∨ 0 < e.interval.toNat ∧ (n + 1 - 1) * e.interval.toNat < 2 ^ 32) ↔
      e.Counts (n + 1) := by
  rw [Counts, and_iff_right hfps]
  rcases e.interval_cases hfps with ⟨hslow, hq, hpos⟩ | ⟨hfast, hpositive, hq⟩ | ⟨hnegative, hq⟩
  · rw [← hq]
    omega
  · omega
  · have hlt := e.interval.toNat_lt
    rcases n with _ | _ | n
    · omega
    · omega
    · have hle : 2 * e.interval.toNat ≤ (n + 1 + 1 + 1 - 1) * e.interval.toNat :=
        Nat.mul_le_mul_right _ (by omega)
      omega

/-- `receiveData` does not divide by zero and gives each frame a greater timestamp than the
last one exactly when the encoder was opened and the session counts, or has no frame. -/
theorem timed_iff (opened : Bool) (n : Nat) :
    e.Timed opened n ↔ n = 0 ∨ opened = true ∧ e.Counts n := by
  cases n with
  | zero => exact iff_of_true ⟨[], rfl, .nil⟩ (.inl rfl)
  | succ n =>
    rw [or_iff_right (Nat.succ_ne_zero n)]
    by_cases hfps : e.fps = 0
    · refine iff_of_false ?_ fun h => h.2.1 hfps
      rintro ⟨pts, hpts, _⟩
      cases opened with
      | false => cases hpts
      | true =>
        rw [stamps, initCount, if_pos rfl, Option.bind_some, stampsFrom_zero e hfps] at hpts
        cases hpts
    · rw [← counts_iff e hfps, ← stamps_isChain_iff]
      cases opened with
      | false => exact iff_of_false (fun ⟨_, hpts, _⟩ => nomatch hpts) (fun h => nomatch h.1)
      | true =>
        have hstamps : e.stamps true (n + 1) = some _ := stampsFrom_eq e hfps 0 (n + 1)
        rw [Timed, hstamps, and_iff_right rfl]
        simp only [Option.some.injEq, exists_eq_left']

/-- A stream without timing, and one that counts its rate in thousandths. -/
theorem unknown_rate_divides_by_zero :
    ¬ Timed ⟨640, 360, 0, .yuv420p⟩ true 1 ∧ ¬ Timed ⟨640, 360, 30000, .yuv420p⟩ true 2 := by
  constructor
  · rintro ⟨pts, hpts, _⟩
    cases hpts
  · rintro ⟨pts, hpts, hchain⟩
    obtain rfl : [0, 0] = pts := Option.some.inj hpts
    exact absurd hchain (by decide)

/-- The encoder for a picture. -/
def ofPicture (d : DecodedFrame) : FFmpegEncoder := ⟨d.width, d.height, d.fps, d.pixFmt⟩

end FFmpegEncoder

namespace VideoOutput

variable {es : List Event} {s t : VideoOutput}

/-- An encoder is the one for the first picture since the last `stop`. -/
def Encodes (es : List Event) (s : VideoOutput) : Prop :=
  ∀ e, s.ffmpegEncoder = some e → ∃ d, firstPicture es = some d ∧ e = .ofPicture d

theorem Encodes.of_same {e : Event} (h : Encodes es s)
    (hfirst : firstPicture (es ++ [e]) = firstPicture es)
    (hencoder : t.ffmpegEncoder = s.ffmpegEncoder) : Encodes (es ++ [e]) t := by
  rw [Encodes, hencoder, hfirst]
  exact h

theorem withFrame_encodes {d : DecodedFrame} (hb : Brought es s) (h : Encodes es s) (e)
    (he : (s.withFrame d).ffmpegEncoder = some e) : e = .ofPicture ((firstPicture es).getD d) := by
  have hold (hs : s.ffmpegEncoder = some e) : e = .ofPicture ((firstPicture es).getD d) := by
    obtain ⟨first, hfirst, rfl⟩ := h e hs
    rw [hfirst, Option.getD_some]
  unfold withFrame at he
  split at he
  · exact hold he
  · next hframe =>
    simp only at he
    split at he
    · have hfirst : firstPicture es = none := by
        rw [hb.frame, Option.isSome_map, Bool.not_eq_true] at hframe
        exact Option.not_isSome_iff_eq_none.mp (ne_true_of_eq_false hframe)
      obtain rfl := Option.some.inj he
      rw [hfirst]
      rfl
    · exact hold he

theorem step_encodes {e : Event} (hb : Brought es s) (h : Encodes es s)
    (ht : step s e = some t) : Encodes (es ++ [e]) t := by
  have hfirst := firstPicture_snoc es e
  cases e with
  | play url encryption =>
    simp only [step, Outcome.after_mapState, Option.map_eq_some_iff] at ht
    obtain ⟨c, _, rfl⟩ := ht
    exact h.of_same hfirst rfl
  | stop =>
    obtain rfl := Option.some.inj ht
    intro e he
    unfold stop at he
    split at he
    · cases he
    · next hidle =>
      obtain ⟨d, hd, _⟩ := h e he
      have hframe := hb.frame
      rw [hb.idle (by simpa using hidle), hd] at hframe
      cases hframe
  | frame d mapped =>
    simp only [step, frameCallBack, Option.ite_none_right_eq_some] at ht
    obtain ⟨_, ht⟩ := ht
    split at ht
    · cases ht
    · obtain rfl := Option.some.inj ht
      exact fun e he => ⟨_, hfirst, withFrame_encodes hb h e he⟩
  | playAudio =>
    obtain rfl := Option.some.inj ht
    exact h.of_same hfirst rfl
  | stopAudio =>
    obtain rfl := Option.some.inj ht
    exact h.of_same hfirst rfl
  | setAutoLocalRecord value =>
    obtain rfl := Option.some.inj ht
    exact h.of_same hfirst rfl
  | pullThreadEnds =>
    simp only [step, Option.ite_none_right_eq_some, Option.some.injEq] at ht
    obtain ⟨_, rfl⟩ := ht
    exact h.of_same hfirst rfl
  | audioInfo data =>
    simp only [step, Option.ite_none_right_eq_some, Option.some.injEq] at ht
    obtain ⟨_, rfl⟩ := ht
    exact h.of_same hfirst rfl
  | audioData len =>
    simp only [step, Option.ite_none_right_eq_some, Option.some.injEq] at ht
    obtain ⟨_, rfl⟩ := ht
    refine h.of_same hfirst ?_
    unfold audioData
    split
    · rfl
    · rfl

/-- Along a run the encoder of the local record has the rate of the first picture since the
last `stop`. -/
theorem exec_encoder {isAutoLocalRecord : Bool} {adtsHeader : AdtsHeader}
    (hrun : exec step (init isAutoLocalRecord adtsHeader) es = some s) {e : FFmpegEncoder}
    (he : s.ffmpegEncoder = some e) : ∃ d, firstPicture es = some d ∧ e.fps = d.fps := by
  have hboth : Brought es s ∧ Encodes es s :=
    exec_invariant (I := fun es s => Brought es s ∧ Encodes es s) ⟨brought_init .., nofun⟩
      (fun _ _ _ _ h ht => ⟨step_brought h.1 ht, step_encodes h.1 h.2 ht⟩) hrun
  obtain ⟨d, hd, rfl⟩ := hboth.2 e he
  exact ⟨d, hd, rfl⟩

end VideoOutput

end MiniSurveillance
