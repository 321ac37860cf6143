import MiniSurveillance.Base.Bytes

/-!
# The header in front of an audio frame

Both controllers keep seven bytes that go to the AAC decoder before each frame. The audio
information sets them anew; each frame patches its own length into them, across three bytes.

* `ofInfo_describes_iff`: the header made from an audio configuration is that of it.
* `announces_iff`: with its length patched in it is the header of a frame.
* `setLength_setLength`: nothing of an earlier length is left.
-/

namespace MiniSurveillance

/-- The two bytes of an audio configuration. -/
structure AudioInfo where
  byte0 : UInt8
  byte1 : UInt8
deriving DecidableEq, Repr

/-- `adts_header`. -/
structure AdtsHeader where
  byte0 : UInt8
  byte1 : UInt8
  byte2 : UInt8
  byte3 : UInt8
  byte4 : UInt8
  byte5 : UInt8
  byte6 : UInt8
deriving DecidableEq, Repr

/-! ## The controllers -/

namespace AudioInfo

/-- The index of the sampling frequency, as the callbacks take it from the bytes. -/
def sampleIdx (data : AudioInfo) : UInt32 :=
  let num0 := data.byte0.toUInt32 &&& 0x7
  let num1 := data.byte1.toUInt32 &&& 0x80
  (num0 <<< 1) ||| (num1 >>> 7)

def channelsIdx (data : AudioInfo) : UInt32 := (data.byte1.toUInt32 &&& 0x78) >>> 3

end AudioInfo

namespace AdtsHeader

/-- The header for two indices. -/
def ofIndices (sampleIdx channelsIdx : UInt32) : AdtsHeader where
  byte0 := 0xFF
  byte1 := 0xF1
  byte2 := (0x40 : UInt8) ||| ((sampleIdx <<< 2) &&& 0x3C).toUInt8 |||
    (((channelsIdx &&& 0x4) >>> 2) &&& 0x1).toUInt8
  byte3 := (0x00 : UInt8) ||| (((channelsIdx &&& 0x3) <<< 6) &&& 0xC0).toUInt8
  byte4 := 0x00
  byte5 := 0x1F
  byte6 := 0xFC

/-- What the callbacks make of `AUDIO_INFO`. -/
def ofInfo (data : AudioInfo) : AdtsHeader := ofIndices data.sampleIdx data.channelsIdx

/-- What they patch in for a frame of `len` bytes. -/
def setLength (len : UInt32) (h : AdtsHeader) : AdtsHeader :=
  let allLen := 7 + len
  let num0 := (((allLen &&& 0x1800) >>> 11) &&& 0x3).toUInt8
  let num1 := (((allLen &&& 0x7F8) >>> 3) &&& 0xFF).toUInt8
  let num2 := (((allLen &&& 0x7) <<< 5) &&& 0xE0).toUInt8
  { h with
    byte3 := (h.byte3 &&& 0xFC) ||| num0
    byte4 := (h.byte4 &&& 0x00) ||| num1
    byte5 := (h.byte5 &&& 0x1F) ||| num2 }

end AdtsHeader

/-! ## The fields by the standard -/

namespace AudioInfo

/-- The two bytes as one number. -/
def value (data : AudioInfo) : Nat := data.byte0.toNat * 2 ^ 8 + data.byte1.toNat

/-- Five bits; 2 stands for AAC-LC. -/
def audioObjectType (data : AudioInfo) : Nat := data.value / 2 ^ 11 % 2 ^ 5

def samplingFrequencyIndex (data : AudioInfo) : Nat := data.value / 2 ^ 7 % 2 ^ 4

def channelConfiguration (data : AudioInfo) : Nat := data.value / 2 ^ 3 % 2 ^ 4

end AudioInfo

namespace AdtsHeader

/-- The seven bytes as one number of 56 bits. -/
def value (h : AdtsHeader) : Nat :=
  h.byte0.toNat * 2 ^ 48 + h.byte1.toNat * 2 ^ 40 + h.byte2.toNat * 2 ^ 32 +
    h.byte3.toNat * 2 ^ 24 + h.byte4.toNat * 2 ^ 16 + h.byte5.toNat * 2 ^ 8 + h.byte6.toNat

/-- `width` bits from bit `offset` on, the first bit being the highest. -/
def field (h : AdtsHeader) (offset width : Nat) : Nat :=
  h.value / 2 ^ (56 - offset - width) % 2 ^ width

/-- The header is one without a checksum for one frame coded by `data`, whatever its length. -/
structure Describes (h : AdtsHeader) (data : AudioInfo) : Prop where
  syncword : h.field 0 12 = 0xFFF
  layer : h.field 13 2 = 0
  protectionAbsent : h.field 15 1 = 1
  profile : h.field 16 2 + 1 = data.audioObjectType
  samplingFrequencyIndex : h.field 18 4 = data.samplingFrequencyIndex
  channelConfiguration : h.field 23 3 = data.channelConfiguration
  rawDataBlocks : h.field 54 2 = 0

theorem describes_iff {h : AdtsHeader} {data : AudioInfo} : h.Describes data ↔
    h.field 0 12 = 0xFFF ∧ h.field 13 2 = 0 ∧ h.field 15 1 = 1 ∧
      h.field 16 2 + 1 = data.audioObjectType ∧ h.field 18 4 = data.samplingFrequencyIndex ∧
      h.field 23 3 = data.channelConfiguration ∧ h.field 54 2 = 0 :=
  ⟨fun ⟨h0, h1, h2, h3, h4, h5, h6⟩ => ⟨h0, h1, h2, h3, h4, h5, h6⟩,
    fun ⟨h0, h1, h2, h3, h4, h5, h6⟩ => ⟨h0, h1, h2, h3, h4, h5, h6⟩⟩

instance (h : AdtsHeader) (data : AudioInfo) : Decidable (h.Describes data) :=
  decidable_of_iff _ describes_iff.symm

/-- The header is the one of a frame of `len` bytes coded by `data`. -/
def Announces (h : AdtsHeader) (data : AudioInfo) (len : UInt32) : Prop :=
  h.Describes data ∧ h.field 30 13 = 7 + len.toNat

instance (h : AdtsHeader) (data : AudioInfo) (len : UInt32) : Decidable (h.Announces data len) :=
  inferInstanceAs (Decidable (_ ∧ _))

end AdtsHeader

/-! ## The patched bytes -/

section Patch

/-- `b & 0xFC` keeps all but the two low bits. -/
theorem patch_low (b n : UInt8) (hn : n.toNat < 4) :
    ((b &&& 0xFC) ||| n).toNat = b.toNat / 4 * 4 + n.toNat := by
  have hall : ∀ (b : Fin 256) (n : Fin 4), ((UInt8.ofNat b &&& 0xFC) ||| UInt8.ofNat n).toNat =
      b / 4 * 4 + n := by decide +kernel
  simpa using hall ⟨b.toNat, b.toNat_lt⟩ ⟨n.toNat, hn⟩

/-- `b & 0x1F` keeps the five low bits. -/
theorem patch_high (b n : UInt8) (hn : n.toNat % 32 = 0) :
    ((b &&& 0x1F) ||| n).toNat = b.toNat % 32 + n.toNat := by
  have hall : ∀ (b : Fin 256) (n : Fin 8),
      ((UInt8.ofNat b &&& 0x1F) ||| UInt8.ofNat (32 * n)).toNat = b % 32 + 32 * n := by
    decide +kernel
  have hlt := n.toNat_lt
  have h := hall ⟨b.toNat, b.toNat_lt⟩ ⟨n.toNat / 32, by omega⟩
  simpa [show 32 * (n.toNat / 32) = n.toNat by omega] using h

/-- A window of `w` bits, cut out with a mask, moved down and cut out again. -/
theorem toNat_window (n mask shift low : UInt32) {k w : Nat}
    (hmask : mask >>> shift = low) (hlow : low.toNat = 2 ^ w - 1) (hshift : shift.toNat % 32 = k)
    (hw : 2 ^ w ≤ 2 ^ 8) :
    (((n &&& mask) >>> shift) &&& low).toUInt8.toNat = n.toNat / 2 ^ k % 2 ^ w := by
  have hlt : n.toNat / 2 ^ k % 2 ^ w < 2 ^ 8 :=
    Nat.lt_of_lt_of_le (Nat.mod_lt _ (Nat.two_pow_pos w)) hw
  rw [UInt32.shiftRight_and, hmask, UInt32.and_assoc, UInt32.and_self, UInt32.toNat_toUInt8,
    UInt32.toNat_and, UInt32.toNat_shiftRight, hlow, hshift, Nat.and_two_pow_sub_one_eq_mod,
    Nat.shiftRight_eq_div_pow, Nat.mod_eq_of_lt hlt]

/-- The three low bits, moved to the top of a byte. -/
theorem toNat_low (n : UInt32) :
    (((n &&& 0x7) <<< 5) &&& 0xE0).toUInt8.toNat = n.toNat % 8 * 32 := by
  have hall : ∀ k : Fin 8, ((UInt32.ofNat k <<< 5) &&& 0xE0).toUInt8.toNat = k * 32 := by decide
  have hmod : n &&& 7 = UInt32.ofNat (n.toNat % 8) := by
    apply UInt32.toNat_inj.mp
    rw [UInt32.toNat_and, UInt32.toNat_ofNat_of_lt' (by rw [UInt32.size]; omega)]
    exact Nat.and_two_pow_sub_one_eq_mod _ 3
  rw [hmod]
  exact hall ⟨n.toNat % 8, Nat.mod_lt _ (by decide)⟩

end Patch

namespace AdtsHeader

variable (h : AdtsHeader) (len : UInt32)

theorem setLength_byte3 : (h.setLength len).byte3.toNat =
    h.byte3.toNat / 4 * 4 + (7 + len).toNat / 2 ^ 11 % 2 ^ 2 := by
  have hnum := toNat_window (7 + len) 0x1800 11 0x3 (k := 11) (w := 2) rfl rfl rfl (by decide)
  unfold setLength
  rw [patch_low _ _ (by rw [hnum]; omega), hnum]

theorem setLength_byte4 : (h.setLength len).byte4.toNat = (7 + len).toNat / 2 ^ 3 % 2 ^ 8 := by
  have hnum := toNat_window (7 + len) 0x7F8 3 0xFF (k := 3) (w := 8) rfl rfl rfl (by decide)
  show ((h.byte4 &&& 0x00) ||| _).toNat = _
  rw [UInt8.and_zero, UInt8.zero_or, hnum]

theorem setLength_byte5 : (h.setLength len).byte5.toNat =
    h.byte5.toNat % 32 + (7 + len).toNat % 8 * 32 := by
  have hnum := toNat_low (7 + len)
  unfold setLength
  rw [patch_high _ _ (by rw [hnum]; omega), hnum]

/-- The field of the length is what was patched in, for any header. -/
theorem setLength_length : (h.setLength len).field 30 13 = (7 + len).toNat % 2 ^ 13 := by
  have h3 := setLength_byte3 h len
  have h4 := setLength_byte4 h len
  have h5 := setLength_byte5 h len
  have h6 := (h.setLength len).byte6.toNat_lt
  unfold field value
  omega

/-- The 30 bits in front of the length. -/
theorem setLength_front : (h.setLength len).value / 2 ^ 26 = h.value / 2 ^ 26 := by
  have h3 := setLength_byte3 h len
  have h4 := h.byte4.toNat_lt
  have h5 := h.byte5.toNat_lt
  have h6 := h.byte6.toNat_lt
  have h4' := (h.setLength len).byte4.toNat_lt
  have h5' := (h.setLength len).byte5.toNat_lt
  unfold value
  show (h.byte0.toNat * 2 ^ 48 + h.byte1.toNat * 2 ^ 40 + h.byte2.toNat * 2 ^ 32 +
    _ + _ + _ + h.byte6.toNat) / 2 ^ 26 = _
  omega

theorem field_congr {g h : AdtsHeader} (hfront : g.value / 2 ^ 26 = h.value / 2 ^ 26)
    {offset width : Nat} (hin : offset + width ≤ 30) :
    g.field offset width = h.field offset width := by
  have hsplit : 56 - offset - width = 26 + (30 - offset - width) := by omega
  rw [field, field, hsplit, Nat.pow_add, ← Nat.div_div_eq_div_mul, hfront,
    Nat.div_div_eq_div_mul]

theorem field_last (h : AdtsHeader) : h.field 54 2 = h.byte6.toNat % 2 ^ 2 := by
  show h.value / 1 % 2 ^ 2 = _
  unfold value
  omega

/-- Nothing else is touched. -/
theorem setLength_describes {data : AudioInfo} :
    (h.setLength len).Describes data ↔ h.Describes data := by
  have hfront {offset width : Nat} (hin : offset + width ≤ 30) :
      (h.setLength len).field offset width = h.field offset width :=
    field_congr (setLength_front h len) hin
  have hback : (h.setLength len).field 54 2 = h.field 54 2 := by
    rw [field_last, field_last]
    rfl
  rw [describes_iff, describes_iff, hfront (by decide), hfront (by decide), hfront (by decide),
    hfront (by decide), hfront (by decide), hfront (by decide), hback]

/-- Nothing of an earlier length is left. -/
theorem setLength_setLength (m : UInt32) :
    (h.setLength m).setLength len = h.setLength len := by
  have h3 : ((h.setLength m).setLength len).byte3 = (h.setLength len).byte3 := by
    have hold := setLength_byte3 h m
    apply UInt8.toNat_inj.mp
    rw [setLength_byte3 (h.setLength m), setLength_byte3 h len, hold]
    omega
  have h5 : ((h.setLength m).setLength len).byte5 = (h.setLength len).byte5 := by
    have hold := setLength_byte5 h m
    apply UInt8.toNat_inj.mp
    rw [setLength_byte5 (h.setLength m), setLength_byte5 h len, hold]
    omega
  have h4 : ((h.setLength m).setLength len).byte4 = (h.setLength len).byte4 := by
    apply UInt8.toNat_inj.mp
    rw [setLength_byte4, setLength_byte4]
  exact (AdtsHeader.mk.injEq ..).mpr ⟨rfl, rfl, rfl, h3, h4, h5, rfl⟩

end AdtsHeader

/-! ## The header of a configuration -/

namespace AudioInfo

theorem sampleIdx_eq (data : AudioInfo) :
    data.sampleIdx = UInt32.ofNat data.samplingFrequencyIndex := by
  have hhigh : ∀ b : Fin 256,
      ((UInt8.ofNat b).toUInt32 &&& 0x7) <<< 1 = UInt32.ofNat (b % 8 * 2) := by decide +kernel
  have hlow : ∀ b : Fin 256,
      ((UInt8.ofNat b).toUInt32 &&& 0x80) >>> 7 = UInt32.ofNat (b / 128) := by decide +kernel
  have hor : ∀ (x : Fin 8) (y : Fin 2),
      UInt32.ofNat (x * 2) ||| UInt32.ofNat y = UInt32.ofNat (x * 2 + y) := by decide
  have h0 := hhigh ⟨data.byte0.toNat, data.byte0.toNat_lt⟩
  have h1 := hlow ⟨data.byte1.toNat, data.byte1.toNat_lt⟩
  have hlt := data.byte1.toNat_lt
  rw [UInt8.ofNat_toNat] at h0 h1
  have hsum : data.samplingFrequencyIndex = data.byte0.toNat % 8 * 2 + data.byte1.toNat / 128 := by
    unfold samplingFrequencyIndex value
    omega
  rw [sampleIdx, h0, h1, hsum]
  exact hor ⟨_, Nat.mod_lt _ (by decide)⟩ ⟨_, by omega⟩

theorem channelsIdx_eq (data : AudioInfo) :
    data.channelsIdx = UInt32.ofNat data.channelConfiguration := by
  have hall : ∀ b : Fin 256,
      ((UInt8.ofNat b).toUInt32 &&& 0x78) >>> 3 = UInt32.ofNat (b / 8 % 16) := by decide +kernel
  have h := hall ⟨data.byte1.toNat, data.byte1.toNat_lt⟩
  rw [UInt8.ofNat_toNat] at h
  have hidx : data.channelConfiguration = data.byte1.toNat / 8 % 16 := by
    unfold channelConfiguration value
    omega
  rw [channelsIdx, h, hidx]

end AudioInfo

namespace AdtsHeader

/-- The bytes of the header for two indices of four bits; of the channels three remain. -/
theorem ofIndices_eq {s c : Nat} (hs : s < 16) (hc : c < 16) :
    ofIndices (UInt32.ofNat s) (UInt32.ofNat c) =
      ⟨0xFF, 0xF1, UInt8.ofNat (64 + s * 4 + c / 4 % 2), UInt8.ofNat (c % 4 * 64), 0, 0x1F,
        0xFC⟩ := by
  have hall : ∀ s c : Fin 16, ofIndices (UInt32.ofNat s) (UInt32.ofNat c) =
      ⟨0xFF, 0xF1, UInt8.ofNat (64 + s * 4 + c / 4 % 2), UInt8.ofNat (c % 4 * 64), 0, 0x1F,
        0xFC⟩ := by decide +kernel
  exact hall ⟨s, hs⟩ ⟨c, hc⟩

/-- The fields of the header made from a configuration; of the channels three bits remain. -/
theorem ofInfo_fields (data : AudioInfo) :
    (ofInfo data).field 0 12 = 0xFFF ∧ (ofInfo data).field 13 2 = 0 ∧
      (ofInfo data).field 15 1 = 1 ∧ (ofInfo data).field 16 2 = 1 ∧
      (ofInfo data).field 18 4 = data.samplingFrequencyIndex ∧
      (ofInfo data).field 23 3 = data.channelConfiguration % 8 ∧ (ofInfo data).field 54 2 = 0 := by
  have hall : ∀ s c : Fin 16,
      let h : AdtsHeader := ⟨0xFF, 0xF1, UInt8.ofNat (64 + s * 4 + c / 4 % 2),
        UInt8.ofNat (c % 4 * 64), 0, 0x1F, 0xFC⟩
      h.field 0 12 = 0xFFF ∧ h.field 13 2 = 0 ∧ h.field 15 1 = 1 ∧ h.field 16 2 = 1 ∧
        h.field 18 4 = s ∧ h.field 23 3 = c % 8 ∧ h.field 54 2 = 0 := by
    decide +kernel
  have hs : data.samplingFrequencyIndex < 16 := Nat.mod_lt _ (by decide)
  have hc : data.channelConfiguration < 16 := Nat.mod_lt _ (by decide)
  rw [ofInfo, AudioInfo.sampleIdx_eq, AudioInfo.channelsIdx_eq, ofIndices_eq hs hc]
  exact hall ⟨_, hs⟩ ⟨_, hc⟩

/-- The header made from an AAC-LC configuration describes it, unless its channels need a
fourth bit. -/
theorem ofInfo_describes_iff {data : AudioInfo} (hlc : data.audioObjectType = 2) :
    (ofInfo data).Describes data ↔ data.channelConfiguration < 8 := by
  obtain ⟨h0, h1, h2, h3, h4, h5, h6⟩ := ofInfo_fields data
  constructor
  · intro h
    have hchannel := h.channelConfiguration
    omega
  · intro hlt
    exact ⟨h0, h1, h2, by rw [h3, hlc], h4, by rw [h5, Nat.mod_eq_of_lt hlt], h6⟩

/-- Two configurations make the same header when the fields they fill are the same. -/
theorem setLength_ofInfo_inj {data data' : AudioInfo} {len : UInt32} :
    (ofInfo data).setLength len = (ofInfo data').setLength len ↔
      data.samplingFrequencyIndex = data'.samplingFrequencyIndex ∧
      data.channelConfiguration % 8 = data'.channelConfiguration % 8 := by
  obtain ⟨_, _, _, _, hs, hc, _⟩ := ofInfo_fields data
  obtain ⟨_, _, _, _, hs', hc', _⟩ := ofInfo_fields data'
  constructor
  · intro h
    have hfield {offset width : Nat} (hin : offset + width ≤ 30) :
        (ofInfo data).field offset width = (ofInfo data').field offset width := by
      rw [← field_congr (setLength_front _ len) hin, h, field_congr (setLength_front _ len) hin]
    exact ⟨hs.symm.trans ((hfield (by decide)).trans hs'),
      hc.symm.trans ((hfield (by decide)).trans hc')⟩
  · rintro ⟨hsame, hchannels⟩
    have hlt : data.samplingFrequencyIndex < 16 := Nat.mod_lt _ (by decide)
    have hlt' : data'.samplingFrequencyIndex < 16 := Nat.mod_lt _ (by decide)
    have hc : data.channelConfiguration < 16 := Nat.mod_lt _ (by decide)
    have hc' : data'.channelConfiguration < 16 := Nat.mod_lt _ (by decide)
    have hbit : data.channelConfiguration / 4 % 2 = data'.channelConfiguration / 4 % 2 := by omega
    have hlow : data.channelConfiguration % 4 = data'.channelConfiguration % 4 := by omega
    rw [ofInfo, ofInfo, AudioInfo.sampleIdx_eq, AudioInfo.sampleIdx_eq, AudioInfo.channelsIdx_eq,
      AudioInfo.channelsIdx_eq, ofIndices_eq hlt hc, ofIndices_eq hlt' hc', hsame, hbit, hlow]

/-- A header that describes a configuration announces each frame of it once the length is
patched in, however often that was done before. -/
theorem announces_iff {h : AdtsHeader} {data : AudioInfo} {len : UInt32} (hlen : len ≤ 8184) :
    (h.setLength len).Announces data len ↔ h.Describes data := by
  have hle : len.toNat ≤ 8184 := UInt32.le_iff_toNat_le.mp hlen
  have hall : (7 + len).toNat % 2 ^ 13 = 7 + len.toNat := by
    rw [UInt32.toNat_add]
    show (7 + len.toNat) % 2 ^ 32 % 2 ^ 13 = _
    omega
  rw [Announces, setLength_describes, setLength_length, hall]
  exact and_iff_left rfl

end AdtsHeader

end MiniSurveillance
