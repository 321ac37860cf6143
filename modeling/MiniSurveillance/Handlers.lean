import MiniSurveillance.TagBody

/-!
# The body handlers

`VideoCapture.cpp` and `FlvPlayer.cpp` each walk the same bodies: parameter sets
in two counted loops, one frame with a 32-bit length, one audio block up to the
end of the body. The walks are defined here once, over the memory behind the
body pointer, and each class instantiates them under its own names.

`UINT32 offset` is a natural number here: the two loops add at most
`31 * 65537` each, so it never wraps.

* `parameterSets_spec`: on a well-formed run of sets the walk hands on exactly
  the sets and stops behind the last one.
* `parameterSets_within`: a walk that stays inside the body is over a
  well-formed run of sets.
* `spsPps_within_iff`: the two walks stay inside the body exactly when it is a
  sequence header.
* `FrameBody.of_length`: a frame length that stays inside the body makes it a
  frame.
-/

namespace MiniSurveillance
open Bytes

/-- `count` rounds of a parameter-set loop from `offset`: what it does, and the
offset behind the last set. -/
def parameterSets (body : Mem) (type : NaluType) : Nat → Nat → List Access × Nat
  | 0, offset => ([], offset)
  | count + 1, offset =>
    let len := be16 (body offset) (body (offset + 1))
    let (accesses, last) := parameterSets body type count (offset + 2 + len)
    (.read offset :: .read (offset + 1) :: .nalu type (offset + 2) len :: accesses, last)

/-- The SPS loop and the PPS loop, which share one running offset. -/
def spsPps (body : Mem) : List Access :=
  let offset := 10
  let spsNum := (body offset).toNat &&& 0x1F
  let (spsAccesses, offset') := parameterSets body .sps spsNum (offset + 1)
  let ppsNum := (body offset').toNat &&& 0x1F
  let (ppsAccesses, _) := parameterSets body .pps ppsNum (offset' + 1)
  .read offset :: (spsAccesses ++ .read offset' :: ppsAccesses)

/-- The running offset behind the two loops. -/
def spsPpsEnd (body : Mem) : Nat :=
  let offset := 10
  let spsNum := (body offset).toNat &&& 0x1F
  let offset' := (parameterSets body .sps spsNum (offset + 1)).2
  let ppsNum := (body offset').toNat &&& 0x1F
  (parameterSets body .pps ppsNum (offset' + 1)).2

/-- The 32-bit length of a frame. -/
def frameLength (body : Mem) : Nat := be32 (body 5) (body 6) (body 7) (body 8)

/-- The four reads of the length bytes. -/
def frameLengthReads : List Access := [.read 5, .read 6, .read 7, .read 8]

/-- The NALU type of a frame: a first byte of `0x17` marks a key frame. -/
def frameType (body : Mem) : NaluType := if body 0 = 0x17 then .idr else .other

/-- The channels of an audio body. -/
def audioChannel (body : Mem) : AudioChannelType := if body 0 = 0xAE then .mono else .stereo

/-! ## Parameter sets -/

/-- The run of `n` sets laid out from `offset` up to `size`, followed by `rest`. -/
def SetsAt (body : Mem) (size offset : Nat) (sets : List (List UInt8)) (rest : List UInt8) :
    Prop :=
  offset ≤ size ∧ slice body offset (size - offset) = sets.flatMap entry ++ rest

theorem SetsAt.rest_length {body : Mem} {size offset : Nat} {sets : List (List UInt8)}
    {rest : List UInt8} (h : SetsAt body size offset sets rest) :
    offset + (sets.flatMap entry).length + rest.length = size := by
  obtain ⟨hle, hs⟩ := h
  have := congrArg List.length hs
  simp only [slice_length, List.length_append] at this
  omega

/-- The first set of a run: its length bytes, its bytes, and the run behind it. -/
theorem SetsAt.cons {body : Mem} {size offset : Nat} {set : List UInt8}
    {sets : List (List UInt8)} {rest : List UInt8} (hshort : set.length < 65536)
    (h : SetsAt body size offset (set :: sets) rest) :
    be16 (body offset) (body (offset + 1)) = set.length ∧
    slice body (offset + 2) set.length = set ∧
    SetsAt body size (offset + 2 + set.length) sets rest := by
  have hlen := h.rest_length
  obtain ⟨hle, hs⟩ := h
  simp only [List.flatMap_cons, entry, bytes16, List.append_assoc, List.cons_append,
    List.nil_append] at hs
  obtain ⟨h₀, hs⟩ := slice_eq_cons hs
  obtain ⟨h₁, hs⟩ := slice_eq_cons hs
  obtain ⟨hset, hs⟩ := slice_eq_append hs
  simp only [List.flatMap_cons, List.length_append, entry_length] at hlen
  refine ⟨?_, hset, by omega, ?_⟩
  · rw [h₀, h₁]
    exact be16_bytes16 hshort
  · rw [show size - (offset + 2 + set.length) = (sets.flatMap entry ++ rest).length by
      rw [List.length_append]; omega]
    exact hs

/-- On a run of sets the loop hands on exactly the sets, in order, stays inside
the body and stops right behind the last one. -/
theorem parameterSets_spec {body : Mem} {size : Nat} (type : NaluType)
    {sets : List (List UInt8)} {rest : List UInt8} {offset : Nat}
    (hshort : ∀ set ∈ sets, set.length < 65536) (h : SetsAt body size offset sets rest) :
    (parameterSets body type sets.length offset).2 = offset + (sets.flatMap entry).length ∧
    (parameterSets body type sets.length offset).1.filterMap (Access.naluCall body) =
      sets.map (fun set => (type, set)) ∧
    ∀ a ∈ (parameterSets body type sets.length offset).1, a.Within size := by
  induction sets generalizing offset with
  | nil => simp [parameterSets]
  | cons set sets ih =>
    have hset := hshort set (by simp)
    obtain ⟨hlen, hbytes, htail⟩ := h.cons hset
    obtain ⟨hlast, hcalls, hwithin⟩ := ih (fun s hs => hshort s (by simp [hs])) htail
    have hend := htail.rest_length
    simp only [List.length_cons, parameterSets, hlen]
    refine ⟨?_, ?_, ?_⟩
    · rw [hlast]
      simp only [List.flatMap_cons, List.length_append, entry_length]
      omega
    · simp [List.filterMap_cons, Access.naluCall, hbytes, hcalls]
    · intro a ha
      simp only [List.mem_cons] at ha
      rcases ha with rfl | rfl | rfl | ha
      · exact Access.within_read.mpr (by omega)
      · exact Access.within_read.mpr (by omega)
      · refine Access.within_nalu.mpr ⟨by omega, ?_⟩
        unfold inputBufferSize
        omega
      · exact hwithin a ha

/-- A loop that stays inside the body walks over a run of sets. -/
theorem parameterSets_within (body : Mem) (type : NaluType) (count : Nat) {size offset : Nat}
    (hle : offset ≤ size)
    (h : ∀ a ∈ (parameterSets body type count offset).1, a.Within size) :
    ∃ sets : List (List UInt8), sets.length = count ∧ (∀ set ∈ sets, set.length < 65536) ∧
      (parameterSets body type count offset).2 ≤ size ∧
      SetsAt body size offset sets (slice body (parameterSets body type count offset).2
        (size - (parameterSets body type count offset).2)) := by
  induction count generalizing offset with
  | zero => exact ⟨[], rfl, by simp, hle, hle, by simp [parameterSets]⟩
  | succ count ih =>
    simp only [parameterSets] at h ⊢
    generalize hlen : be16 (body offset) (body (offset + 1)) = len at h ⊢
    have hnalu := Access.within_nalu.mp (h (.nalu type (offset + 2) len) (by simp))
    obtain ⟨sets, hcount, hshort, hlast, hat⟩ :=
      ih hnalu.1 (fun a ha => h a (by simp [ha]))
    have hlt : len < 65536 := hlen ▸ be16_lt _ _
    refine ⟨slice body (offset + 2) len :: sets, by simp [hcount], ?_, hlast, hle, ?_⟩
    · intro set hset
      rcases List.mem_cons.mp hset with rfl | hset
      · simpa using hlt
      · exact hshort set hset
    · have hsize : size - offset = 2 + (len + (size - (offset + 2 + len))) := by omega
      rw [hsize, slice_append, slice_append, hat.2]
      simp only [List.flatMap_cons, entry, slice_length, List.append_assoc]
      rw [← hlen, bytes16_be16]
      simp [slice_succ]

/-! ## The sequence header -/

/-- A sequence header lies in memory as its counts and its two runs of sets. -/
theorem SequenceHeader.setsAt {body : Mem} {size : Nat} {h : SequenceHeader}
    (hb : slice body 0 size = h.bytes) :
    body 10 = h.spsCount ∧
    body (11 + (h.sps.flatMap entry).length) = h.ppsCount ∧
    SetsAt body size 11 h.sps (h.ppsCount :: (h.pps.flatMap entry ++ h.rest)) ∧
    SetsAt body size (12 + (h.sps.flatMap entry).length) h.pps h.rest := by
  have hlen := congrArg List.length hb
  simp only [SequenceHeader.bytes, slice_length, List.length_append, List.length_cons,
    h.front_length] at hlen
  obtain ⟨_, hs⟩ := slice_eq_append (by simpa only [SequenceHeader.bytes] using hb)
  rw [h.front_length] at hs
  obtain ⟨hcount, hs⟩ := slice_eq_cons hs
  obtain ⟨_, hs'⟩ := slice_eq_append hs
  obtain ⟨hcount', hs'⟩ := slice_eq_cons hs'
  refine ⟨hcount, hcount', ⟨by omega, ?_⟩, ⟨by omega, ?_⟩⟩
  · rw [show size - 11 = (h.sps.flatMap entry ++
      h.ppsCount :: (h.pps.flatMap entry ++ h.rest)).length by
        simp only [List.length_append, List.length_cons]; omega]
    exact hs
  · rw [show size - (12 + (h.sps.flatMap entry).length) = (h.pps.flatMap entry ++ h.rest).length by
        simp only [List.length_append]; omega,
      show 12 + (h.sps.flatMap entry).length = 0 + 10 + 1 + (h.sps.flatMap entry).length + 1 by
        omega]
    exact hs'

/-- On a sequence header the two loops hand on exactly its sets, in order, and
stay inside the body. -/
theorem spsPps_spec {body : Mem} {size : Nat} {h : SequenceHeader}
    (hb : slice body 0 size = h.bytes) :
    (spsPps body).filterMap (Access.naluCall body) =
      h.sps.map (fun set => (.sps, set)) ++ h.pps.map (fun set => (.pps, set)) ∧
    ∀ a ∈ spsPps body, a.Within size := by
  obtain ⟨hsps, hpps, hspsAt, hppsAt⟩ := SequenceHeader.setsAt hb
  obtain ⟨hlast, hcalls, hwithin⟩ := parameterSets_spec .sps h.sps_short hspsAt
  obtain ⟨_, hcalls', hwithin'⟩ := parameterSets_spec .pps h.pps_short hppsAt
  have hspsEnd := hspsAt.rest_length
  have hoff : 12 + (h.sps.flatMap entry).length = 11 + (h.sps.flatMap entry).length + 1 := by omega
  rw [hoff] at hcalls' hwithin'
  simp only [List.length_cons] at hspsEnd
  simp only [spsPps, hsps, h.sps_count, hlast, hpps, h.pps_count]
  constructor
  · rw [List.filterMap_cons, List.filterMap_append, List.filterMap_cons, hcalls, hcalls']
    rfl
  · intro a ha
    simp only [List.mem_cons, List.mem_append] at ha
    rcases ha with rfl | ha | rfl | ha
    · exact Access.within_read.mpr (by omega)
    · exact hwithin a ha
    · exact Access.within_read.mpr (by omega)
    · exact hwithin' a ha

/-- The two loops stay inside the body exactly when it is a sequence header. -/
theorem spsPps_within_iff {body : Mem} {size : Nat} :
    (∀ a ∈ spsPps body, a.Within size) ↔ ∃ h : SequenceHeader, slice body 0 size = h.bytes := by
  constructor
  · intro hall
    simp only [spsPps] at hall
    generalize hspsNum : (body 10).toNat &&& 0x1F = spsNum at hall
    have h10 := Access.within_read.mp (hall (.read 10) (by simp))
    obtain ⟨sps, hspsLen, hspsShort, hlast, hspsAt⟩ :=
      parameterSets_within body .sps spsNum (show 11 ≤ size by omega) (fun a ha => hall a (by simp [ha]))
    generalize (parameterSets body .sps spsNum (10 + 1)).2 = offset at hall hlast hspsAt
    have hread := Access.within_read.mp (hall (.read offset) (by simp))
    obtain ⟨pps, hppsLen, hppsShort, _, hppsAt⟩ :=
      parameterSets_within body .pps ((body offset).toNat &&& 0x1F)
        (show offset + 1 ≤ size by omega) (fun a ha => hall a (by simp [ha]))
    generalize (parameterSets body .pps ((body offset).toNat &&& 0x1F) (offset + 1)).2 = last at hppsAt
    refine ⟨{
      front := slice body 0 10
      spsCount := body 10
      sps := sps
      ppsCount := body offset
      pps := pps
      rest := slice body last (size - last)
      front_length := by simp
      sps_count := by rw [hspsNum, hspsLen]
      pps_count := hppsLen.symm
      sps_short := hspsShort
      pps_short := hppsShort }, ?_⟩
    have hsize : size = 10 + (1 + (size - 11)) := by omega
    have htail : slice body offset (size - offset) =
        body offset :: slice body (offset + 1) (size - (offset + 1)) := by
      rw [← slice_succ]
      congr 1
      omega
    conv => lhs; rw [hsize, slice_append, slice_append]
    rw [hspsAt.2, htail, hppsAt.2]
    simp [SequenceHeader.bytes, slice_succ]
  · rintro ⟨h, hb⟩
    exact (spsPps_spec hb).2

/-- A parameter-set loop reads and calls the NALU callback, with its own type. -/
theorem parameterSets_mem {body : Mem} {type : NaluType} {count offset : Nat} {a : Access}
    (h : a ∈ (parameterSets body type count offset).1) :
    (∃ i, a = .read i) ∨ ∃ o n, a = .nalu type o n := by
  induction count generalizing offset with
  | zero => cases h
  | succ count ih =>
    simp only [parameterSets, List.mem_cons] at h
    rcases h with rfl | rfl | rfl | h
    · exact .inl ⟨_, rfl⟩
    · exact .inl ⟨_, rfl⟩
    · exact .inr ⟨_, _, rfl⟩
    · exact ih h

theorem spsPps_mem {body : Mem} {a : Access} (h : a ∈ spsPps body) :
    (∃ i, a = .read i) ∨ ∃ type o n, (type = .sps ∨ type = .pps) ∧ a = .nalu type o n := by
  simp only [spsPps, List.mem_cons, List.mem_append] at h
  rcases h with rfl | h | rfl | h
  · exact .inl ⟨_, rfl⟩
  · rcases parameterSets_mem h with hread | ⟨o, n, ha⟩
    · exact .inl hread
    · exact .inr ⟨.sps, o, n, .inl rfl, ha⟩
  · exact .inl ⟨_, rfl⟩
  · rcases parameterSets_mem h with hread | ⟨o, n, ha⟩
    · exact .inl hread
    · exact .inr ⟨.pps, o, n, .inr rfl, ha⟩

/-! ## The frame -/

/-- A frame lies in memory as its length and its NALU. -/
theorem FrameBody.at {body : Mem} {size : Nat} {f : FrameBody}
    (hb : slice body 0 size = f.bytes) :
    frameLength body = f.nalu.length ∧ slice body 9 f.nalu.length = f.nalu ∧
    9 + f.nalu.length ≤ size := by
  have hlen := congrArg List.length hb
  simp only [FrameBody.bytes, slice_length, List.length_append, f.front_length,
    bytes32_length] at hlen
  obtain ⟨_, hs⟩ := slice_eq_append (by simpa only [FrameBody.bytes] using hb)
  rw [f.front_length, bytes32] at hs
  obtain ⟨h₀, hs⟩ := slice_eq_cons hs
  obtain ⟨h₁, hs⟩ := slice_eq_cons hs
  obtain ⟨h₂, hs⟩ := slice_eq_cons hs
  obtain ⟨h₃, hs⟩ := slice_eq_cons hs
  obtain ⟨hnalu, _⟩ := slice_eq_append (by simpa using hs)
  refine ⟨?_, hnalu, by omega⟩
  unfold frameLength
  rw [h₀, h₁, h₂, h₃]
  exact be32_bytes32 f.nalu_short

/-- A frame length that stays inside the body makes the body a frame. -/
theorem FrameBody.of_length {body : Mem} {size : Nat} (h : 9 + frameLength body ≤ size) :
    ∃ f : FrameBody, slice body 0 size = f.bytes ∧ f.nalu.length = frameLength body := by
  refine ⟨⟨slice body 0 5, slice body 9 (frameLength body),
    slice body (9 + frameLength body) (size - (9 + frameLength body)), by simp, ?_⟩, ?_, by simp⟩
  · rw [slice_length]
    exact be32_lt _ _ _ _
  · have hsize : size =
        5 + (4 + (frameLength body + (size - (9 + frameLength body)))) := by omega
    have hlen : slice body 5 4 = bytes32 (frameLength body) := by
      rw [frameLength, bytes32_be32]
      simp [slice_succ]
    conv => lhs; rw [hsize, slice_append, slice_append, slice_append]
    simp only [FrameBody.bytes, slice_length, Nat.zero_add, Nat.reduceAdd]
    rw [hlen]

end MiniSurveillance
