import Mathlib.Tactic.Linarith
import Mathlib.Tactic.Ring

/-!
# The picture of a decoded frame

`H264Decoder::handleOneFrame` copies the three planes of a frame into one buffer of fixed
size and hands that on. Each plane is copied as one block, whatever its stride; the sizes
are computed in 32 bits.

* `inBuffer_iff`: when no byte is written outside of the buffer.
* `out_of_fits`: what the buffer holds then.
* `packed_iff`: when the buffer holds the image, for any contents of the planes.
-/

namespace MiniSurveillance

/-- The formats a frame is converted from; `other` stands for any further one. -/
inductive AVPixelFormat
  | yuv444p
  | yuv422p
  | yuv420p
  | yuyv422
  | uyvy422
  | bgr24
  | bgr32
  | rgb24
  | rgb32
  | bgr555
  | bgr565
  | nv12
  | nv21
  | other
deriving DecidableEq, Repr

/-- A frame of the codec: `width` and `height` are not negative, row `r` of plane `p` starts
at `data p (r * linesize p)`. -/
structure AVFrame where
  width : Nat
  height : Nat
  width_lt : width < 2 ^ 31
  height_lt : height < 2 ^ 31
  linesize : Fin 3 → Nat
  data : Fin 3 → Nat → UInt8

/-- What the frame callback gets. The bytes count from the pointer. -/
structure DecodedFrame where
  data : Int → UInt8
  len : UInt32
  width : UInt32
  height : UInt32
  fps : UInt32
  pixFmt : AVPixelFormat

/-- A call of `memcpy` with its target as a distance from `buf`. -/
structure Copy where
  dst : Int
  src : Nat → UInt8
  len : Nat

namespace Copy

def Writes (c : Copy) (i : Int) : Prop := c.dst ≤ i ∧ i < c.dst + c.len

instance (c : Copy) (i : Int) : Decidable (c.Writes i) := inferInstanceAs (Decidable (_ ∧ _))

def memcpy (c : Copy) (mem : Int → UInt8) : Int → UInt8 :=
  fun i => if c.Writes i then c.src (i - c.dst).toNat else mem i

theorem memcpy_inside (c : Copy) (mem : Int → UInt8) {k : Nat} (hk : k < c.len) :
    c.memcpy mem (c.dst + k) = c.src k := by
  have hwrites : c.Writes (c.dst + k) := ⟨by omega, by omega⟩
  rw [memcpy, if_pos hwrites, add_sub_cancel_left, Int.toNat_natCast]

theorem memcpy_outside (c : Copy) (mem : Int → UInt8) {i : Int} (hi : ¬ c.Writes i) :
    c.memcpy mem i = mem i := if_neg hi

end Copy

/-- An `int` where a `size_t` is expected. -/
def sizeT (n : Int32) : Nat := (n.toInt % 2 ^ 64).toNat

namespace H264Decoder

def MAX_BUF_SIZE : Nat := 1920 * 1080 * 3 / 2

def ysize (f : AVFrame) : Int32 := (UInt32.ofNat f.width * UInt32.ofNat f.height).toInt32

def uvsize (f : AVFrame) : Int32 := ysize f >>> 2

def bufsize (f : AVFrame) : Int32 := ysize f + (uvsize f <<< 1)

def luma (f : AVFrame) : Copy := ⟨0, f.data 0, sizeT (ysize f)⟩

def cb (f : AVFrame) : Copy := ⟨(ysize f).toInt, f.data 1, sizeT (uvsize f)⟩

def cr (f : AVFrame) : Copy := ⟨(ysize f).toInt + (uvsize f).toInt, f.data 2, sizeT (uvsize f)⟩

def copies (f : AVFrame) : List Copy := [luma f, cb f, cr f]

/-- `fps` and `pixFmt` are the codec's. -/
def handleOneFrame (f : AVFrame) (fps : UInt32) (pixFmt : AVPixelFormat) (buf : Int → UInt8) :
    DecodedFrame where
  data := (copies f).foldl (fun mem c => c.memcpy mem) buf
  len := (bufsize f).toUInt32
  width := UInt32.ofNat f.width
  height := UInt32.ofNat f.height
  fps := fps
  pixFmt := pixFmt

/-! ## What the buffer is to hold -/

/-- From `at` on the rows of a plane stand one behind the other. -/
def Plane (out : Int → UInt8) (start : Int) (rows cols stride : Nat) (src : Nat → UInt8) : Prop :=
  ∀ r < rows, ∀ c < cols, out (start + (r * cols + c : Nat)) = src (r * stride + c)

/-- The luma bytes, and behind them those of the two chroma planes. -/
def Packed (f : AVFrame) (out : Int → UInt8) : Prop :=
  Plane out 0 f.height f.width (f.linesize 0) (f.data 0) ∧
  Plane out (f.width * f.height : Nat) (f.height / 2) (f.width / 2) (f.linesize 1) (f.data 1) ∧
  Plane out (f.width * f.height + f.width / 2 * (f.height / 2) : Nat) (f.height / 2) (f.width / 2)
    (f.linesize 2) (f.data 2)

/-- No byte is written outside of the buffer. -/
def InBuffer (f : AVFrame) : Prop :=
  ∀ c ∈ copies f, ∀ i, c.Writes i → 0 ≤ i ∧ i < MAX_BUF_SIZE

/-- The image has no more bytes than the buffer. -/
def Fits (f : AVFrame) : Prop := f.width * f.height * 3 / 2 ≤ MAX_BUF_SIZE

/-- The rows of a plane have no gap between them. -/
def Tight (rows cols stride : Nat) : Prop := rows ≤ 1 ∨ cols = 0 ∨ stride = cols

instance (f : AVFrame) : Decidable (Fits f) := inferInstanceAs (Decidable (_ ≤ _))

instance (rows cols stride : Nat) : Decidable (Tight rows cols stride) :=
  inferInstanceAs (Decidable (_ ∨ _ ∨ _))

/-! ## The sizes -/

theorem ysize_toInt (f : AVFrame) :
    (ysize f).toInt = ((f.width * f.height : Nat) : Int).bmod (2 ^ 32) := by
  show (UInt32.ofNat f.width * UInt32.ofNat f.height).toBitVec.toInt = _
  rw [BitVec.toInt_eq_toNat_bmod, UInt32.toNat_toBitVec, UInt32.toNat_mul, UInt32.toNat_ofNat',
    UInt32.toNat_ofNat', ← Nat.mul_mod, Int.natCast_mod]
  exact Int.emod_bmod ..

theorem uvsize_toInt (f : AVFrame) : (uvsize f).toInt = (ysize f).toInt / 4 := by
  rw [uvsize]
  generalize ysize f = y
  show (BitVec.sshiftRight y.toBitVec 2).toInt = _
  rw [BitVec.toInt_sshiftRight, Int.shiftRight_eq_div_pow]
  rfl

/-- Below 2^31 the size is that of the image. -/
theorem ysize_of_lt {f : AVFrame} (h : f.width * f.height < 2 ^ 31) :
    (ysize f).toInt = (f.width * f.height : Nat) := by
  rw [ysize_toInt]
  exact Int.bmod_eq_of_le (by omega) (by omega)

/-- From 2^31 on it is negative, or smaller by 2^32 at least. -/
theorem ysize_of_ge {f : AVFrame} (h : 2 ^ 31 ≤ f.width * f.height)
    (hnonneg : 0 ≤ (ysize f).toInt) : 2 ^ 32 ≤ f.width * f.height := by
  by_contra hsmall
  rw [ysize_toInt, Int.bmod_def] at hnonneg
  omega

theorem sizeT_of_nonneg {n : Int32} (h : 0 ≤ n.toInt) : (sizeT n : Int) = n.toInt := by
  have hlt := n.toInt_lt
  rw [sizeT, Int.emod_eq_of_lt h (by omega), Int.toNat_of_nonneg h]

/-- A negative length is a huge one. -/
theorem sizeT_of_neg {n : Int32} (h : n.toInt < 0) : 2 ^ 63 ≤ sizeT n := by
  have hle := n.le_toInt
  rw [sizeT]
  omega

/-- No byte is written outside of the buffer when the sizes, as they are computed, have
no sign and fit into it. -/
theorem inBuffer_iff (f : AVFrame) :
    InBuffer f ↔ 0 ≤ (ysize f).toInt ∧
      (ysize f).toInt + 2 * (uvsize f).toInt ≤ MAX_BUF_SIZE := by
  have huv := uvsize_toInt f
  have hmax : MAX_BUF_SIZE = 3110400 := rfl
  constructor
  · intro hin
    have hnonneg : 0 ≤ (ysize f).toInt := by
      by_contra hneg
      have hlen := sizeT_of_neg (Int.not_le.mp hneg)
      have hwrites : (luma f).Writes MAX_BUF_SIZE :=
        ⟨Int.natCast_nonneg _, by simp only [luma]; omega⟩
      exact Int.lt_irrefl _ (hin (luma f) (by simp [copies]) _ hwrites).2
    refine ⟨hnonneg, ?_⟩
    by_contra hlarge
    have hlen := sizeT_of_nonneg (n := uvsize f) (by omega)
    have hwrites : (cr f).Writes ((ysize f).toInt + 2 * (uvsize f).toInt - 1) := by
      constructor <;> simp only [cr] <;> omega
    have := (hin (cr f) (by simp [copies]) _ hwrites).2
    omega
  · rintro ⟨hnonneg, hsize⟩ c hc i ⟨hfrom, hto⟩
    have hylen := sizeT_of_nonneg hnonneg
    have huvlen := sizeT_of_nonneg (n := uvsize f) (by omega)
    simp only [copies, List.mem_cons, List.not_mem_nil, or_false] at hc
    rcases hc with rfl | rfl | rfl
    · simp only [luma] at hfrom hto
      omega
    · simp only [cb] at hfrom hto
      omega
    · simp only [cr] at hfrom hto
      omega

/-! ## What the buffer holds -/

variable {f : AVFrame} {fps : UInt32} {pixFmt : AVPixelFormat} {buf : Int → UInt8}

theorem luma_held (hin : InBuffer f) {k : Nat} (hk : k < (ysize f).toInt) :
    (handleOneFrame f fps pixFmt buf).data (0 + k : Int) = f.data 0 k := by
  obtain ⟨hnonneg, _⟩ := (inBuffer_iff f).mp hin
  have hlen := sizeT_of_nonneg hnonneg
  have huv := uvsize_toInt f
  have hcb : ¬ (cb f).Writes (0 + k : Int) := fun h => by
    have := h.1
    simp only [cb] at this
    omega
  have hcr : ¬ (cr f).Writes (0 + k : Int) := fun h => by
    have := h.1
    simp only [cr] at this
    omega
  show (cr f).memcpy ((cb f).memcpy ((luma f).memcpy buf)) _ = _
  rw [Copy.memcpy_outside _ _ hcr, Copy.memcpy_outside _ _ hcb]
  exact (luma f).memcpy_inside buf (by simp only [luma]; omega)

theorem cb_held {k : Nat} (hk : k < (uvsize f).toInt) :
    (handleOneFrame f fps pixFmt buf).data ((ysize f).toInt + k) = f.data 1 k := by
  have hlen := sizeT_of_nonneg (n := uvsize f) (by omega)
  have hcr : ¬ (cr f).Writes ((ysize f).toInt + k) := fun h => by
    have := h.1
    simp only [cr] at this
    omega
  show (cr f).memcpy ((cb f).memcpy ((luma f).memcpy buf)) _ = _
  rw [Copy.memcpy_outside _ _ hcr]
  exact (cb f).memcpy_inside _ (by simp only [cb]; omega)

theorem cr_held {k : Nat} (hk : k < (uvsize f).toInt) :
    (handleOneFrame f fps pixFmt buf).data ((ysize f).toInt + (uvsize f).toInt + k) =
      f.data 2 k := by
  have hlen := sizeT_of_nonneg (n := uvsize f) (by omega)
  exact (cr f).memcpy_inside _ (by simp only [cr]; omega)

/-- Behind the buffer nothing changes. -/
theorem not_written (hin : InBuffer f) {i : Int} (hi : MAX_BUF_SIZE ≤ i) :
    (handleOneFrame f fps pixFmt buf).data i = buf i := by
  have hnot (c : Copy) (hc : c ∈ copies f) : ¬ c.Writes i := fun hwrites => by
    have := (hin c hc i hwrites).2
    omega
  show (cr f).memcpy ((cb f).memcpy ((luma f).memcpy buf)) i = _
  rw [Copy.memcpy_outside _ _ (hnot (cr f) (by simp [copies])),
    Copy.memcpy_outside _ _ (hnot (cb f) (by simp [copies])),
    Copy.memcpy_outside _ _ (hnot (luma f) (by simp [copies]))]

/-! ## Rows without gaps -/

variable {out : Int → UInt8} {start : Int} {rows cols stride : Nat} {src : Nat → UInt8}

/-- The byte of row `r` and column `c` lies in the block of the plane. -/
theorem cell_lt {r c : Nat} (hr : r < rows) (hc : c < cols) : r * cols + c < rows * cols := by
  calc r * cols + c < (r + 1) * cols := by rw [Nat.succ_mul]; omega
    _ ≤ rows * cols := Nat.mul_le_mul_right cols hr

theorem plane_of_tight (hout : ∀ k < rows * cols, out (start + k) = src k)
    (htight : Tight rows cols stride) : Plane out start rows cols stride src := by
  intro r hr c hc
  rw [hout _ (cell_lt hr hc)]
  rcases htight with hrow | hempty | hstride
  · obtain rfl : r = 0 := by omega
    rw [Nat.zero_mul, Nat.zero_mul]
  · omega
  · rw [hstride]

/-- A plane that is 0 but at the place where the second row is to be read. -/
def marked (cols : Nat) : Nat → UInt8 := fun i => if i = cols then 1 else 0

theorem tight_of_plane (hout : ∀ k < rows * cols, out (start + k) = marked cols k)
    (hplane : Plane out start rows cols stride (marked cols)) : Tight rows cols stride := by
  by_contra hgap
  simp only [Tight, not_or] at hgap
  have hrow : 1 < rows := by omega
  have hcol : 0 < cols := by omega
  have hcell := hplane 1 hrow 0 hcol
  rw [hout _ (cell_lt hrow hcol), Nat.one_mul, Nat.one_mul, Nat.add_zero, Nat.add_zero, marked,
    marked, if_pos rfl, if_neg hgap.2.2] at hcell
  exact absurd hcell (by decide)

/-! ## The frames that are handed on whole -/

/-- An image with even sides has four luma bytes for each byte of a chroma plane. -/
theorem area (hwidth : 2 ∣ f.width) (hheight : 2 ∣ f.height) :
    f.width * f.height = 4 * (f.height / 2 * (f.width / 2)) := by
  obtain ⟨w, hw⟩ := hwidth
  obtain ⟨h, hh⟩ := hheight
  rw [hw, hh, Nat.mul_div_cancel_left w (by decide), Nat.mul_div_cancel_left h (by decide)]
  ring

/-- The sizes of an image that fits are computed as they are. -/
theorem sizes_of_fits (hwidth : 2 ∣ f.width) (hheight : 2 ∣ f.height) (hfits : Fits f) :
    InBuffer f ∧ (ysize f).toInt = (f.width * f.height : Nat) ∧
      (uvsize f).toInt = (f.height / 2 * (f.width / 2) : Nat) := by
  have hmax : MAX_BUF_SIZE = 3110400 := rfl
  have harea := area hwidth hheight
  unfold Fits at hfits
  have hy := ysize_of_lt (f := f) (by omega)
  have huv := uvsize_toInt f
  rw [hy] at huv
  exact ⟨(inBuffer_iff f).mpr ⟨by omega, by omega⟩, hy, by omega⟩

/-- The bytes of the three planes stand one behind the other, as many as the image has. -/
theorem out_of_fits (fps : UInt32) (pixFmt : AVPixelFormat) (buf : Int → UInt8)
    (hwidth : 2 ∣ f.width) (hheight : 2 ∣ f.height) (hfits : Fits f) :
    (∀ k < f.height * f.width,
      (handleOneFrame f fps pixFmt buf).data (0 + k : Int) = f.data 0 k) ∧
    (∀ k < f.height / 2 * (f.width / 2), (handleOneFrame f fps pixFmt buf).data
      ((f.width * f.height : Nat) + k : Int) = f.data 1 k) ∧
    ∀ k < f.height / 2 * (f.width / 2), (handleOneFrame f fps pixFmt buf).data
      ((f.width * f.height + f.width / 2 * (f.height / 2) : Nat) + k : Int) = f.data 2 k := by
  obtain ⟨hin, hy, huv⟩ := sizes_of_fits hwidth hheight hfits
  refine ⟨fun k hk => luma_held hin ?_, fun k hk => ?_, fun k hk => ?_⟩
  · rw [hy, Nat.mul_comm]
    exact_mod_cast hk
  · rw [← hy]
    exact cb_held (by rw [huv]; exact_mod_cast hk)
  · rw [Nat.cast_add, ← hy, Nat.mul_comm (f.width / 2), ← huv]
    exact cr_held (by rw [huv]; exact_mod_cast hk)

theorem packed_of_fits (hwidth : 2 ∣ f.width) (hheight : 2 ∣ f.height) (hfits : Fits f)
    (hluma : Tight f.height f.width (f.linesize 0))
    (hcb : Tight (f.height / 2) (f.width / 2) (f.linesize 1))
    (hcr : Tight (f.height / 2) (f.width / 2) (f.linesize 2)) :
    Packed f (handleOneFrame f fps pixFmt buf).data := by
  obtain ⟨h0, h1, h2⟩ := out_of_fits fps pixFmt buf hwidth hheight hfits
  exact ⟨plane_of_tight h0 hluma, plane_of_tight h1 hcb, plane_of_tight h2 hcr⟩

/-- If the image, of whatever contents, is handed on whole, it fits: otherwise a size that
wrapped leaves the last luma byte as it was. -/
theorem fits_of_packed (hwidth : 2 ∣ f.width) (hheight : 2 ∣ f.height)
    (h : ∀ data, Packed { f with data } (handleOneFrame { f with data } fps pixFmt buf).data ∧
      InBuffer { f with data }) : Fits f := by
  have hmax : MAX_BUF_SIZE = 3110400 := rfl
  have harea := area hwidth hheight
  obtain ⟨hnonneg, hsize⟩ := (inBuffer_iff f).mp (h f.data).2
  have huv := uvsize_toInt f
  unfold Fits
  by_cases hsmall : f.width * f.height < 2 ^ 31
  · have hy := ysize_of_lt hsmall
    omega
  · have hlarge := ysize_of_ge (Nat.le_of_not_lt hsmall) hnonneg
    obtain ⟨hcol, hrow⟩ : 0 < f.width ∧ 0 < f.height :=
      CanonicallyOrderedAdd.mul_pos.mp (Nat.lt_of_lt_of_le (by decide) hlarge)
    have hlast : (f.height - 1) * f.width + (f.width - 1) = f.width * f.height - 1 := by
      rw [Nat.sub_mul, Nat.one_mul, Nat.mul_comm f.height]
      have : f.width ≤ f.width * f.height := Nat.le_mul_of_pos_right _ hrow
      omega
    -- a plane whose bytes all differ from what the last byte's place held
    obtain ⟨hpacked, hin⟩ := h fun _ _ => buf (f.width * f.height - 1 : Nat) + 1
    have hcell := hpacked.1 (f.height - 1) (by show _ < f.height; omega)
      (f.width - 1) (by show _ < f.width; omega)
    simp only [hlast, zero_add] at hcell
    rw [not_written hin (by omega)] at hcell
    exact absurd hcell (by simp)

/-- The buffer holds the image, whatever the planes contain, and no byte is written outside
of it, exactly when the image fits and no plane has a gap between its rows. -/
theorem packed_iff (hwidth : 2 ∣ f.width) (hheight : 2 ∣ f.height) (fps : UInt32)
    (pixFmt : AVPixelFormat) (buf : Int → UInt8) :
    (∀ data, Packed { f with data } (handleOneFrame { f with data } fps pixFmt buf).data ∧
      InBuffer { f with data }) ↔
    Fits f ∧ Tight f.height f.width (f.linesize 0) ∧
      Tight (f.height / 2) (f.width / 2) (f.linesize 1) ∧
      Tight (f.height / 2) (f.width / 2) (f.linesize 2) := by
  constructor
  · intro h
    have hfits := fits_of_packed hwidth hheight h
    -- each plane with its own mark
    let g : AVFrame := { f with
      data := fun p => if p = 0 then marked f.width else marked (f.width / 2) }
    obtain ⟨h0, h1, h2⟩ := out_of_fits (f := g) fps pixFmt buf hwidth hheight hfits
    obtain ⟨hluma, hcb, hcr⟩ := (h g.data).1
    exact ⟨hfits, tight_of_plane h0 hluma, tight_of_plane h1 hcb, tight_of_plane h2 hcr⟩
  · rintro ⟨hfits, hluma, hcb, hcr⟩ data
    exact ⟨packed_of_fits (f := { f with data }) hwidth hheight hfits hluma hcb hcr,
      (sizes_of_fits (f := { f with data }) hwidth hheight hfits).1⟩

/-- A frame of 640 by 360 without gaps. -/
def tightFrame : AVFrame where
  width := 640
  height := 360
  width_lt := by decide
  height_lt := by decide
  linesize := fun p => if p = 0 then 640 else 320
  data := fun _ _ => 0

theorem packed_iff_tightFrame :
    Fits tightFrame ∧ ∀ data, Packed { tightFrame with data }
        (handleOneFrame { tightFrame with data } 25 .yuv420p fun _ => 0).data ∧
      InBuffer { tightFrame with data } :=
  ⟨by decide, (packed_iff (f := tightFrame) (by decide) (by decide) 25 .yuv420p fun _ => 0).mpr
    (by decide)⟩

/-- A frame of 854 by 480 with padded rows, the first luma byte of the second row is 1. -/
def paddedFrame : AVFrame where
  width := 854
  height := 480
  width_lt := by decide
  height_lt := by decide
  linesize := fun p => if p = 0 then 896 else 448
  data := fun p i => if p = 0 ∧ i = 896 then 1 else 0

/-- A frame of 2560 by 1440. -/
def largeFrame : AVFrame where
  width := 2560
  height := 1440
  width_lt := by decide
  height_lt := by decide
  linesize := fun p => if p = 0 then 2560 else 1280
  data := fun _ _ => 0

/-- The padding is copied along with the rows, and a large image runs over the buffer. -/
theorem padding_copied :
    ¬ Packed paddedFrame (handleOneFrame paddedFrame 25 .yuv420p fun _ => 0).data ∧
      ¬ InBuffer largeFrame := by
  constructor
  · intro hpacked
    have hcell := hpacked.1 1 (by decide) 0 (by decide)
    exact absurd hcell (by decide)
  · intro hin
    exact absurd ((inBuffer_iff largeFrame).mp hin).2 (by decide)

end H264Decoder

end MiniSurveillance
