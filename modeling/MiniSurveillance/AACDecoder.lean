import Mathlib.Data.List.Induction
import MiniSurveillance.H264Decoder

/-!
# The samples of a decoded audio frame

The AAC decoder leaves the samples of each channel in a plane of its own.
`AACDecoder::handleOneFrame` copies one sample of every channel after another into a buffer
of fixed size and hands on what it has copied.

* `safe_iff`: when the loops use only the pointers of the frame and the bytes of the buffer.
* `handleOneFrame_of_safe`: what is handed on then.
-/

namespace MiniSurveillance

/-- A frame of the codec with what the loops read of the context: `channels`, and the size of
a sample of its format. -/
structure SoundFrame where
  nbSamples : Nat
  channels : Nat
  dataSize : UInt32
  data : Nat → Nat → UInt8

namespace SoundFrame

/-- Sample `i` of channel `ch`. -/
def sample (f : SoundFrame) (i ch : Nat) : List UInt8 :=
  (List.range f.dataSize.toNat).map fun k => f.data ch (i * f.dataSize.toNat + k)

/-- The samples of all channels at one time. -/
def row (f : SoundFrame) (i : Nat) : List UInt8 := (List.range f.channels).flatMap (f.sample i)

def rows (f : SoundFrame) : List (List UInt8) := (List.range f.nbSamples).map f.row

end SoundFrame

namespace AACDecoder

def MAX_BUF_SIZE : Nat := 1024 * 1024

/-- The number of pointers in `AVFrame::data`. -/
def AV_NUM_DATA_POINTERS : Nat := 8

/-- The rounds of the two loops, sample and channel. -/
def rounds (f : SoundFrame) : List (Nat × Nat) :=
  (List.range f.nbSamples).flatMap fun i => (List.range f.channels).map fun ch => (i, ch)

/-- What a round copies to `buf + len`. -/
def copy (f : SoundFrame) (len : UInt32) (p : Nat × Nat) : Copy where
  dst := len.toNat
  src := fun k => f.data p.2 ((f.dataSize * UInt32.ofNat p.1).toNat + k)
  len := f.dataSize.toNat

/-- A round, after the copies so far; it needs a pointer for its channel. -/
def copyRound (f : SoundFrame) (s : List Copy × UInt32) (p : Nat × Nat) :
    Option (List Copy × UInt32) :=
  if p.2 < AV_NUM_DATA_POINTERS then some (s.1 ++ [copy f s.2 p], s.2 + f.dataSize) else none

/-- The copies of the loops, and `len` behind them. `data_size` has no sign, so the check in
front of the loops never returns. -/
def copies (f : SoundFrame) : Option (List Copy × UInt32) :=
  (rounds f).foldlM (copyRound f) ([], 0)

/-- The first bytes of `buf`. -/
def front (buf : Int → UInt8) (n : Nat) : List UInt8 := (List.range n).map fun i : Nat => buf i

/-- What the PCM callback gets. -/
def handleOneFrame (f : SoundFrame) (buf : Int → UInt8) : Option (List UInt8) :=
  (copies f).map fun done =>
    front (done.1.foldl (fun mem c => c.memcpy mem) buf) done.2.toNat

/-- The loops use only the pointers of the frame and write only bytes of the buffer. -/
def Safe (f : SoundFrame) : Prop :=
  ∃ done, copies f = some done ∧
    ∀ c ∈ done.1, ∀ i, c.Writes i → 0 ≤ i ∧ i < MAX_BUF_SIZE

/-- The samples have a pointer for each channel and room in the buffer. -/
def Fits (f : SoundFrame) : Prop :=
  (f.nbSamples = 0 ∨ f.channels ≤ AV_NUM_DATA_POINTERS) ∧
    f.nbSamples * f.channels * f.dataSize.toNat ≤ MAX_BUF_SIZE

instance (f : SoundFrame) : Decidable (Fits f) := inferInstanceAs (Decidable (_ ∧ _))

variable {f : SoundFrame}

/-! ## The copies -/

theorem mem_rounds {p : Nat × Nat} :
    p ∈ rounds f ↔ p.1 < f.nbSamples ∧ p.2 < f.channels := by
  obtain ⟨i, ch⟩ := p
  simp [rounds]

theorem rounds_length (f : SoundFrame) : (rounds f).length = f.nbSamples * f.channels := by
  simp [rounds, List.map_const']

theorem rows_flatten (f : SoundFrame) :
    f.rows.flatten = (rounds f).flatMap fun p => f.sample p.1 p.2 := by
  rw [rounds, List.flatMap_assoc]
  simp only [List.flatMap_map]
  rfl

/-- With a pointer for each channel round `k` copies to `k * data_size`, as 32 bits have it. -/
theorem foldlM_copyRound {ps : List (Nat × Nat)} (hps : ∀ p ∈ ps, p.2 < AV_NUM_DATA_POINTERS) :
    ps.foldlM (copyRound f) ([], 0) =
      some (ps.mapIdx fun k p => copy f (UInt32.ofNat (k * f.dataSize.toNat)) p,
        UInt32.ofNat (ps.length * f.dataSize.toNat)) := by
  induction ps using List.reverseRecOn with
  | nil => simp
  | append_singleton ps p ih =>
    have hlen : UInt32.ofNat (ps.length * f.dataSize.toNat) + f.dataSize =
        UInt32.ofNat ((ps ++ [p]).length * f.dataSize.toNat) := by
      rw [List.length_append, List.length_singleton, Nat.succ_mul, UInt32.ofNat_add,
        UInt32.ofNat_toNat]
    rw [List.foldlM_append, ih fun q hq => hps q (List.mem_append_left _ hq)]
    show (copyRound f _ p).bind some = _
    rw [copyRound, if_pos (hps p (by simp)), hlen, List.mapIdx_concat]
    rfl

/-- A round without a pointer for its channel ends the loops. -/
theorem foldlM_copyRound_none {ps : List (Nat × Nat)} {s : List Copy × UInt32} {p : Nat × Nat}
    (hp : p ∈ ps) (hnone : ¬ p.2 < AV_NUM_DATA_POINTERS) :
    ps.foldlM (copyRound f) s = none := by
  induction ps generalizing s with
  | nil => cases hp
  | cons q ps ih =>
    rw [List.foldlM_cons]
    rcases List.mem_cons.mp hp with rfl | hp
    · rw [copyRound, if_neg hnone]
      rfl
    · cases copyRound f s q with
      | none => rfl
      | some t => exact ih hp

theorem pointers_iff : (∀ p ∈ rounds f, p.2 < AV_NUM_DATA_POINTERS) ↔
    f.nbSamples = 0 ∨ f.channels ≤ AV_NUM_DATA_POINTERS := by
  constructor
  · intro h
    by_contra hnot
    obtain ⟨hsome, hmany⟩ := not_or.mp hnot
    exact Nat.lt_irrefl _ (h (0, AV_NUM_DATA_POINTERS)
      (mem_rounds.mpr ⟨Nat.pos_of_ne_zero hsome, Nat.lt_of_not_le hmany⟩))
  · rintro (hzero | hfew) p hp
    · have := (mem_rounds.mp hp).1
      omega
    · exact Nat.lt_of_lt_of_le (mem_rounds.mp hp).2 hfew

/-- The copy of round `k` of the loops. -/
theorem copies_eq (h : f.nbSamples = 0 ∨ f.channels ≤ AV_NUM_DATA_POINTERS) :
    copies f = some ((rounds f).mapIdx fun k p => copy f (UInt32.ofNat (k * f.dataSize.toNat)) p,
      UInt32.ofNat (f.nbSamples * f.channels * f.dataSize.toNat)) := by
  rw [copies, foldlM_copyRound (pointers_iff.mpr h), rounds_length]

theorem toNat_ofNat_of_le {n : Nat} (h : n ≤ MAX_BUF_SIZE) : (UInt32.ofNat n).toNat = n :=
  UInt32.toNat_ofNat_of_lt' (Nat.lt_of_le_of_lt h (by decide))

/-- The loops are safe exactly when the samples fit: the first copy that does not fit in
starts in the buffer, so what 32 bits make of its place does not matter. -/
theorem safe_iff (f : SoundFrame) : Safe f ↔ Fits f := by
  have hsum (k : Nat) : (k + 1) * f.dataSize.toNat = k * f.dataSize.toNat + f.dataSize.toNat :=
    Nat.succ_mul ..
  constructor
  · rintro ⟨done, hdone, hin⟩
    have hpointers : f.nbSamples = 0 ∨ f.channels ≤ AV_NUM_DATA_POINTERS := by
      refine pointers_iff.mp fun p hp => ?_
      by_contra hnone
      rw [copies, foldlM_copyRound_none hp hnone] at hdone
      cases hdone
    obtain rfl := Option.some.inj ((copies_eq hpointers).symm.trans hdone)
    refine ⟨hpointers, ?_⟩
    rw [← rounds_length]
    -- round by round what is copied so far fits in
    suffices hfits : ∀ n ≤ (rounds f).length, n * f.dataSize.toNat ≤ MAX_BUF_SIZE from
      hfits _ (Nat.le_refl _)
    intro n hn
    induction n with
    | zero => simp
    | succ n ih =>
      have hbefore := ih (by omega)
      by_contra hlarge
      have hcopy := hin (copy f (UInt32.ofNat (n * f.dataSize.toNat)) (rounds f)[n])
        (List.mem_mapIdx.mpr ⟨n, hn, rfl⟩) ((n + 1) * f.dataSize.toNat - 1 : Nat) ?_
      · omega
      · have hdst := toNat_ofNat_of_le hbefore
        rw [hsum] at hlarge ⊢
        constructor <;> simp only [copy] <;> omega
  · rintro ⟨hpointers, hroom⟩
    refine ⟨_, copies_eq hpointers, fun c hc i hi => ?_⟩
    obtain ⟨k, hk, rfl⟩ := List.mem_mapIdx.mp hc
    have hlast : (k + 1) * f.dataSize.toNat ≤ MAX_BUF_SIZE := by
      refine Nat.le_trans (Nat.mul_le_mul_right _ ?_) hroom
      rwa [← rounds_length]
    rw [hsum] at hlast
    have hdst := toNat_ofNat_of_le (n := k * f.dataSize.toNat) (by omega)
    obtain ⟨hfrom, hto⟩ := hi
    simp only [copy] at hfrom hto
    omega

/-! ## What is handed on -/

/-- A copy behind the first `n` bytes puts its own bytes there. -/
theorem front_memcpy (c : Copy) (buf : Int → UInt8) {n : Nat} (hdst : c.dst = n) :
    front (c.memcpy buf) (n + c.len) = front buf n ++ (List.range c.len).map c.src := by
  rw [front, List.range_add, List.map_append, List.map_map]
  congr 1
  · refine List.map_congr_left fun i hi => c.memcpy_outside buf fun hwrites => ?_
    have := List.mem_range.mp hi
    have := hwrites.1
    omega
  · refine List.map_congr_left fun k hk => ?_
    rw [Function.comp_apply, Nat.cast_add, ← hdst]
    exact c.memcpy_inside buf (List.mem_range.mp hk)

theorem front_copies (ps : List (Nat × Nat)) (buf : Int → UInt8)
    (hroom : ps.length * f.dataSize.toNat ≤ MAX_BUF_SIZE) :
    front ((ps.mapIdx fun k p => copy f (UInt32.ofNat (k * f.dataSize.toNat)) p).foldl
        (fun mem c => c.memcpy mem) buf) (ps.length * f.dataSize.toNat) =
      ps.flatMap fun p => (List.range f.dataSize.toNat).map (copy f 0 p).src := by
  induction ps using List.reverseRecOn with
  | nil => simp [front]
  | append_singleton ps p ih =>
    rw [List.length_append, List.length_singleton, Nat.succ_mul] at hroom ⊢
    have hbefore : ps.length * f.dataSize.toNat ≤ MAX_BUF_SIZE := by omega
    rw [List.mapIdx_concat, List.foldl_append, List.flatMap_append, ← ih hbefore]
    exact (front_memcpy _ _ (congrArg Nat.cast (toNat_ofNat_of_le hbefore))).trans (by simp; rfl)

/-- When the samples fit, the callback gets them time by time, one sample of each channel after
the other. -/
theorem handleOneFrame_of_safe (hsafe : Safe f) (buf : Int → UInt8) :
    handleOneFrame f buf = some f.rows.flatten := by
  obtain ⟨hpointers, hroom⟩ := (safe_iff f).mp hsafe
  have hlen := toNat_ofNat_of_le hroom
  have hrounds := (rounds_length f) ▸ hroom
  have hsrc {p : Nat × Nat} (hp : p ∈ rounds f) :
      (List.range f.dataSize.toNat).map (copy f 0 p).src = f.sample p.1 p.2 := by
    obtain ⟨hi, hch⟩ := mem_rounds.mp hp
    have hle : p.1 * f.dataSize.toNat ≤ MAX_BUF_SIZE := by
      refine Nat.le_trans (Nat.mul_le_mul_right _ ?_) hroom
      exact Nat.le_trans (Nat.le_of_lt hi) (Nat.le_mul_of_pos_right _ (Nat.zero_lt_of_lt hch))
    have hoffset : (f.dataSize * UInt32.ofNat p.1).toNat = p.1 * f.dataSize.toNat := by
      rw [← toNat_ofNat_of_le hle, UInt32.ofNat_mul, UInt32.ofNat_toNat, UInt32.mul_comm]
    exact List.map_congr_left fun k _ => by simp only [copy, hoffset]
  rw [handleOneFrame, copies_eq hpointers, Option.map_some, hlen, ← rounds_length,
    front_copies _ buf hrounds, rows_flatten, List.flatMap_def,
    List.map_congr_left fun p hp => hsrc hp]
  rfl

end AACDecoder

end MiniSurveillance
