import MiniSurveillance.Base.Runs

/-!
# The decoder loops

`FFmpeg_Decoder::receiveData` parses its input piece by piece, sends each packet to the
codec and takes the decoded frames out. One `UINT32 ret` holds what the parser and what
the codec returns, so the tests `ret < 0` never hold and `ret >= 0` always does.

A run is the sequence of results the library gives; what the call does between two of them
is one step.

* `parse_does_iff`, `receive_does_iff`: when a result does what it is to do.
* `handled_of_harmless`: what a run without other errors hands on.
* `run_does_iff`: the runs in which every result does what it is to do.
-/

namespace MiniSurveillance
open Runs

/-- `AVERROR(EAGAIN)` and `AVERROR_EOF`. -/
def averrorEagain : Int32 := -11
def averrorEof : Int32 := -541478725

/-- Where a call of `receiveData` waits for the library, or how it ended. -/
inductive DecoderPhase
  | parsing
  | sending
  | receiving
  | returned
  | exited
deriving DecidableEq, Repr

/-- A call of `receiveData`. `parserData` counts from `inputBuf`, `handled` the calls of
`handleOneFrame`. -/
structure FFmpegDecoder where
  phase : DecoderPhase
  parserData : Nat
  len : UInt32
  ret : UInt32
  handled : Nat
deriving DecidableEq, Repr

namespace FFmpegDecoder

/-- What the library returns: `av_parser_parse2` with or without a packet,
`avcodec_send_packet`, `avcodec_receive_frame`. -/
inductive Result
  | parse (ret : Int32) (packet : Bool)
  | send (errcode : Int32)
  | receive (ret : Int32)
deriving DecidableEq, Repr

/-- `while(len > 0)`. -/
def whileLen (s : FFmpegDecoder) : FFmpegDecoder :=
  { s with phase := if s.len > 0 then .parsing else .returned }

/-- `while(ret >= 0)`; behind it the outer loop goes on. -/
def whileRet (s : FFmpegDecoder) : FFmpegDecoder :=
  if s.ret ≥ 0 then { s with phase := .receiving } else s.whileLen

/-- The call behind the copy into `inputBuf`; `ret` is not initialised. -/
def receiveData (len ret : UInt32) : FFmpegDecoder := whileLen ⟨.parsing, 0, len, ret, 0⟩

/-- Behind `av_parser_parse2`. The pointer has 64 bits. -/
def parsed (ret : Int32) (packet : Bool) (s : FFmpegDecoder) : FFmpegDecoder :=
  let s := { s with ret := ret.toUInt32 }
  if s.ret < 0 then { s with phase := .exited }
  else
    let s := { s with parserData := s.parserData + s.ret.toNat, len := s.len - s.ret }
    if packet then { s with phase := .sending } else s.whileLen

/-- Behind `avcodec_send_packet`; `errcode` is an `int`. -/
def sent (errcode : Int32) (s : FFmpegDecoder) : FFmpegDecoder :=
  if errcode < 0 then { s with phase := .exited } else s.whileRet

/-- Behind `avcodec_receive_frame`. The comparisons with the two codes convert these. -/
def received (ret : Int32) (s : FFmpegDecoder) : FFmpegDecoder :=
  let s := { s with ret := ret.toUInt32 }
  if s.ret = averrorEagain.toUInt32 ∨ s.ret = averrorEof.toUInt32 then s.whileLen
  else if s.ret < 0 then s.whileLen
  else { s with handled := s.handled + 1 }.whileRet

def step (s : FFmpegDecoder) : Result → Option FFmpegDecoder
  | .parse ret packet => if s.phase = .parsing then some (s.parsed ret packet) else none
  | .send errcode => if s.phase = .sending then some (s.sent errcode) else none
  | .receive ret => if s.phase = .receiving then some (s.received ret) else none

/-! ## What a result is to do -/

/-- A frame is handed on for a receive result of zero only, any other ends the inner loop,
and a negative parse result moves nothing. -/
def Does (s : FFmpegDecoder) (e : Result) (t : FFmpegDecoder) : Prop :=
  match e with
  | .parse ret _ => t.handled = s.handled ∧
      (ret < 0 → t.parserData = s.parserData ∧ t.len = s.len)
  | .send _ => t.handled = s.handled
  | .receive ret => t.handled = s.handled + (if ret = 0 then 1 else 0) ∧
      (ret ≠ 0 → t.phase ≠ .receiving)

/-- No parse error, and no receive error but the two that are compared with. -/
def Harmless : Result → Prop
  | .parse ret _ => ¬ ret < 0
  | .send _ => True
  | .receive ret => ret = 0 ∨ ret = averrorEagain ∨ ret = averrorEof

instance : DecidablePred Harmless
  | .parse ret _ => inferInstanceAs (Decidable (¬ ret < 0))
  | .send _ => .isTrue trivial
  | .receive ret => inferInstanceAs (Decidable (ret = 0 ∨ ret = averrorEagain ∨ ret = averrorEof))

theorem toUInt32_inj {a b : Int32} : a.toUInt32 = b.toUInt32 ↔ a = b := by
  constructor
  · intro h
    rw [← Int32.toInt32_toUInt32 a, h, Int32.toInt32_toUInt32]
  · exact congrArg _

@[simp] theorem whileLen_handled (s : FFmpegDecoder) : s.whileLen.handled = s.handled := rfl

theorem whileLen_phase (s : FFmpegDecoder) : s.whileLen.phase ≠ .receiving := by
  unfold whileLen
  dsimp only
  split
  · exact nofun
  · exact nofun

/-- The inner loop is never left at its head. -/
theorem whileRet_eq (s : FFmpegDecoder) : s.whileRet = { s with phase := .receiving } :=
  if_pos (UInt32.zero_le)

/-- A parse result always moves the pointer, by its value as an unsigned number. -/
theorem parsed_moves (ret : Int32) (packet : Bool) (s : FFmpegDecoder) :
    (s.parsed ret packet).handled = s.handled ∧
    (s.parsed ret packet).parserData = s.parserData + ret.toUInt32.toNat ∧
    (s.parsed ret packet).len = s.len - ret.toUInt32 := by
  unfold parsed
  dsimp only
  rw [if_neg UInt32.not_lt_zero]
  cases packet with
  | true => exact ⟨rfl, rfl, rfl⟩
  | false => exact ⟨rfl, rfl, rfl⟩

theorem parse_does_iff (ret : Int32) (packet : Bool) (s : FFmpegDecoder) :
    Does s (.parse ret packet) (s.parsed ret packet) ↔ ¬ ret < 0 := by
  obtain ⟨hhandled, hpointer, hlen⟩ := parsed_moves ret packet s
  constructor
  · rintro ⟨_, hstays⟩ hneg
    have hzero : ret.toUInt32.toNat = 0 := by
      have := (hstays hneg).1
      omega
    have hret : ret = 0 := toUInt32_inj.mp (UInt32.toNat_inj.mp hzero)
    rw [hret] at hneg
    exact absurd hneg (by decide)
  · exact fun hpos => ⟨hhandled, fun hneg => absurd hneg hpos⟩

theorem send_does (errcode : Int32) (s : FFmpegDecoder) :
    Does s (.send errcode) (s.sent errcode) := by
  show (s.sent errcode).handled = s.handled
  unfold sent
  split
  · rfl
  · rw [whileRet_eq]

/-- What is compared with is one of the two codes. -/
theorem compared_iff {ret : Int32} :
    (ret.toUInt32 = averrorEagain.toUInt32 ∨ ret.toUInt32 = averrorEof.toUInt32) ↔
      (ret = averrorEagain ∨ ret = averrorEof) := by
  rw [toUInt32_inj, toUInt32_inj]

/-- Every result but the two codes is taken for a frame. -/
theorem received_cases (ret : Int32) (s : FFmpegDecoder) :
    ((ret = averrorEagain ∨ ret = averrorEof) ∧
      (s.received ret).handled = s.handled ∧ (s.received ret).phase ≠ .receiving) ∨
    (¬ (ret = averrorEagain ∨ ret = averrorEof) ∧
      (s.received ret).handled = s.handled + 1 ∧ (s.received ret).phase = .receiving) := by
  unfold received
  dsimp only
  by_cases hcode : ret = averrorEagain ∨ ret = averrorEof
  · rw [if_pos (compared_iff.mpr hcode)]
    exact .inl ⟨hcode, rfl, whileLen_phase _⟩
  · rw [if_neg (mt compared_iff.mp hcode), if_neg UInt32.not_lt_zero, whileRet_eq]
    exact .inr ⟨hcode, rfl, rfl⟩

theorem receive_does_iff (ret : Int32) (s : FFmpegDecoder) :
    Does s (.receive ret) (s.received ret) ↔
      ret = 0 ∨ ret = averrorEagain ∨ ret = averrorEof := by
  simp only [Does]
  rcases received_cases ret s with ⟨hcode, hhandled, hphase⟩ | ⟨hcode, hhandled, hphase⟩
  · have hzero : ret ≠ 0 := by
      rintro rfl
      revert hcode
      decide
    rw [if_neg hzero]
    exact iff_of_true ⟨hhandled, fun _ => hphase⟩ (.inr hcode)
  · rw [hhandled]
    constructor
    · rintro ⟨_, hends⟩
      by_contra hnone
      exact hends (fun hzero => hnone (.inl hzero)) hphase
    · rintro (rfl | hsome)
      · exact ⟨rfl, fun hne => absurd rfl hne⟩
      · exact absurd hsome hcode

theorem step_does_iff {s t : FFmpegDecoder} {e : Result} (h : step s e = some t) :
    Does s e t ↔ Harmless e := by
  cases e with
  | parse ret packet =>
    simp only [step] at h
    split at h
    · obtain rfl := Option.some.inj h
      exact parse_does_iff ret packet s
    · cases h
  | send errcode =>
    simp only [step] at h
    split at h
    · obtain rfl := Option.some.inj h
      exact iff_of_true (send_does errcode s) trivial
    · cases h
  | receive ret =>
    simp only [step] at h
    split at h
    · obtain rfl := Option.some.inj h
      exact receive_does_iff ret s
    · cases h

/-! ## Runs -/

/-- A receive result of zero. -/
def Result.isFrame : Result → Bool
  | .receive ret => ret == 0
  | _ => false

/-- Where every result does what it is to do, as many frames are handed on as there are
receive results of zero. -/
theorem handled_of_harmless {s t : FFmpegDecoder} {es : List Result}
    (hrun : exec step s es = some t) (hes : ∀ e ∈ es, Harmless e) :
    t.handled = s.handled + es.countP Result.isFrame := by
  induction es generalizing s with
  | nil =>
    obtain rfl := Option.some.inj hrun
    rfl
  | cons e es ih =>
    rw [exec_cons] at hrun
    obtain ⟨u, hu, hrun⟩ := Option.bind_eq_some_iff.mp hrun
    have hdoes := (step_does_iff hu).mpr (hes e List.mem_cons_self)
    rw [ih hrun fun e he => hes e (List.mem_cons_of_mem _ he), List.countP_cons]
    cases e with
    | parse ret packet => simp [hdoes.1, Result.isFrame]
    | send errcode => simp [show u.handled = s.handled from hdoes, Result.isFrame]
    | receive ret =>
      rw [hdoes.1]
      simp only [Result.isFrame, beq_iff_eq]
      omega

/-- In a call every result does what it is to do exactly when no parse result is negative
and no receive result is an error but the two that are compared with. -/
theorem run_does_iff {len ret : UInt32} {es : List Result} {s : FFmpegDecoder}
    (hrun : exec step (receiveData len ret) es = some s) :
    (∀ fs e t u, fs ++ [e] <+: es → exec step (receiveData len ret) fs = some t →
      step t e = some u → Does t e u) ↔ ∀ e ∈ es, Harmless e := by
  constructor
  · intro hall e he
    obtain ⟨fs, rest, rfl⟩ := List.append_of_mem he
    have hfirst : fs ++ [e] <+: fs ++ e :: rest := ⟨rest, by simp⟩
    obtain ⟨t, ht⟩ := exec_of_prefix (List.prefix_append fs (e :: rest)) hrun
    obtain ⟨u, hu⟩ := exec_of_prefix hfirst hrun
    rw [exec_snoc_of e ht] at hu
    exact (step_does_iff hu).mp (hall fs e t u hfirst ht hu)
  · intro hes fs e t u hfirst _ hu
    exact (step_does_iff hu).mpr (hes e (hfirst.subset (by simp)))

/-- One packet of four bytes, and one frame in it. -/
theorem run_does_iff_oneFrame :
    ∃ s, exec step (receiveData 4 0) [.parse 4 true, .send 0, .receive 0, .receive averrorEagain] =
        some s ∧ s.phase = .returned ∧
      ((∀ fs e t u, fs ++ [e] <+: [.parse 4 true, .send 0, .receive 0, .receive averrorEagain] →
        exec step (receiveData 4 0) fs = some t → step t e = some u → Does t e u) ↔
        ∀ e ∈ [.parse 4 true, .send 0, .receive 0, .receive averrorEagain], Harmless e) := by
  have hrun : ∃ s, exec step (receiveData 4 0)
      [.parse 4 true, .send 0, .receive 0, .receive averrorEagain] = some s ∧
        s.phase = .returned := ⟨_, rfl, rfl⟩
  obtain ⟨s, hexec, hphase⟩ := hrun
  exact ⟨s, hexec, hphase, run_does_iff hexec⟩

/-- `AVERROR_INVALIDDATA` is taken for a frame, and a parse error of -1 moves the pointer
by 4294967295 bytes and makes the length longer. -/
theorem errors_are_numbers :
    (∃ s t, exec step (receiveData 4 0) [.parse 4 true, .send 0] = some s ∧
      step s (.receive (-1094995529)) = some t ∧ t.handled = 1 ∧ t.phase = .receiving ∧
      ¬ Does s (.receive (-1094995529)) t) ∧
    ∃ t, step (receiveData 4 0) (.parse (-1) false) = some t ∧ t.parserData = 4294967295 ∧
      t.len = 5 ∧ ¬ Does (receiveData 4 0) (.parse (-1) false) t := by
  refine ⟨⟨_, _, rfl, rfl, rfl, rfl, fun h => ?_⟩, _, rfl, rfl, rfl, fun h => ?_⟩
  · exact h.2 (by decide) rfl
  · exact absurd (h.2 (by decide)).1 (by decide)

end FFmpegDecoder

end MiniSurveillance
