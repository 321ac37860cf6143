import Mathlib.Algebra.Group.Nat.Even
import Mathlib.Tactic.Ring
import MiniSurveillance.Base.Scatter

/-!
# From YUYV to I420

Before a frame is encoded, `VideoChannel::encodeData` spreads the bytes of a YUYV
image over the three planes of the encoder's picture: every luma byte, and the
chroma bytes of every second row. The sizes come from `setVideoEncoderParams`.

The loops are given by their assignments (`stores`): which byte of which plane is
written and which byte of the image is read. `toYuv420p` makes them one after
another and stops at an access outside the image or the planes. Arithmetic is in
`int`; what leaves it is `none`.

* `stores_eq`: as long as no offset leaves `int`, the loops make the assignments of
  the 4:2:0 layout.
* `writesEachOnce_layout`, `src_of_mem_layout`: the layout covers the planes and reads
  the image only.
* `converts_iff`: an image is converted exactly when its bytes can be counted in `int`.
-/

namespace MiniSurveillance
namespace VideoChannel
open Scatter

/-- A value computed in `int`. -/
def intOf (x : Int) : Option Int :=
  if -2147483648 ≤ x ∧ x < 2147483648 then some x else none

/-- `x << k` in `int`. A bit may move into the sign, not past it. -/
def shiftLeft (x : Int) (k : Nat) : Option Int :=
  if 0 ≤ x ∧ x * 2 ^ k < 4294967296 then some ((x * 2 ^ k).bmod 4294967296) else none

/-- The sizes a `VideoChannel` keeps. -/
structure Sizes where
  width : Int
  height : Int
  yByteCount : Int
  uvByteCount : Int
deriving DecidableEq, Repr

/-- The sizes `setVideoEncoderParams` sets. -/
def setVideoEncoderParams (width height : Int) : Option Sizes := do
  let yByteCount ← intOf (width * height)
  some { width, height, yByteCount, uvByteCount := yByteCount >>> (2 : Nat) }

/-- `img.plane[0]`, `img.plane[1]` and `img.plane[2]`. -/
inductive Plane
  | y | u | v
deriving DecidableEq, Repr

/-- The bytes a plane has by the kept counts. -/
def Sizes.count (c : Sizes) : Plane → Int
  | .y => c.yByteCount
  | .u | .v => c.uvByteCount

/-- One assignment of the loops: byte `src` of the image goes to byte `dst` of a plane. -/
structure Store where
  plane : Plane
  dst : Int
  src : Int
deriving DecidableEq, Repr

/-- The loop over the luma bytes. -/
def lumaStores (c : Sizes) : Option (List Store) :=
  (List.range c.yByteCount.toNat).mapM fun (i : Nat) => do
    let src ← intOf (i * 2)
    some { plane := .y, dst := i, src := src }

/-- A round of the inner chroma loop: two bytes of one pixel pair. -/
def chromaPair (c : Sizes) (i j : Nat) : Option (List Store) := do
  let row ← intOf (i * (c.width >>> (1 : Nat)))
  let line ← intOf (i * (← shiftLeft c.width 2))
  let pair ← shiftLeft j 2
  some [{ plane := .u, dst := row + j, src := line + pair + 1 },
    { plane := .v, dst := row + j, src := line + pair + 3 }]

/-- The nested loops over the chroma bytes. -/
def chromaStores (c : Sizes) : Option (List Store) := do
  let rows ← (List.range (c.height >>> (1 : Nat)).toNat).mapM fun (i : Nat) => do
    let pairs ← (List.range (c.width >>> (1 : Nat)).toNat).mapM fun (j : Nat) => chromaPair c i j
    some pairs.flatten
  some rows.flatten

/-- What the loops of `encodeData` assign, in order. -/
def stores (c : Sizes) : Option (List Store) := do
  let luma ← lumaStores c
  let chroma ← chromaStores c
  some (luma ++ chroma)

/-- The picture's planes: how many bytes each has, and the bytes. -/
structure Picture where
  size : Plane → Int
  bytes : Plane × Int → UInt8

/-- The planes `x264_picture_alloc` gives an I420 picture: the chroma is halved
both ways. -/
def Picture.I420 (pic : Picture) (w h : Nat) : Prop :=
  pic.size .y = (w * h : Nat) ∧ pic.size .u = (w / 2 * (h / 2) : Nat) ∧
    pic.size .v = (w / 2 * (h / 2) : Nat)

/-- One assignment, inside the image and inside the plane. -/
def assign (data : List UInt8) (pic : Picture) (s : Store) : Option Picture :=
  if 0 ≤ s.src ∧ s.src < data.length ∧ 0 ≤ s.dst ∧ s.dst < pic.size s.plane then
    some { pic with
      bytes := Function.update pic.bytes (s.plane, s.dst) (data.getD s.src.toNat 0) }
  else none

/-- The loops of `encodeData` over an image. -/
def toYuv420p (c : Sizes) (data : List UInt8) (pic : Picture) : Option Picture := do
  (← stores c).foldlM (assign data) pic

/-! ## What the conversion is for -/

/-- Each byte of each plane is written once: the offsets written are `0`, `1`, … up
to the plane's count. -/
def WritesEachOnce (c : Sizes) (ss : List Store) : Prop :=
  ∀ plane, (ss.filter fun s => s.plane = plane).map (·.dst) =
    (List.range (c.count plane).toNat).map Int.ofNat

/-- Where pixel pair `j` of image row `r` starts. Its bytes are Y, U, Y, V. -/
def pairAt (w r j : Nat) : Nat := 2 * w * r + 4 * j

/-- The planes hold the image: every luma byte, and the chroma of the even rows. -/
structure Holds (w h : Nat) (data : List UInt8) (pic : Picture) : Prop where
  luma : ∀ r < h, ∀ c < w,
    data[2 * (r * w + c)]? = some (pic.bytes (.y, (r * w + c : Nat)))
  chromaU : ∀ i < h / 2, ∀ j < w / 2,
    data[pairAt w (2 * i) j + 1]? = some (pic.bytes (.u, (i * (w / 2) + j : Nat)))
  chromaV : ∀ i < h / 2, ∀ j < w / 2,
    data[pairAt w (2 * i) j + 3]? = some (pic.bytes (.v, (i * (w / 2) + j : Nat)))

/-- Every YUYV image of `w` by `h` pixels is converted: the loops read bytes of the
image only, write each byte of each plane once, and leave the image in the planes. -/
def Converts (w h : Nat) : Prop :=
  ∀ (data : List UInt8) (pic : Picture), data.length = 2 * w * h → pic.I420 w h →
    ∃ c ss pic', setVideoEncoderParams w h = some c ∧ stores c = some ss ∧
      toYuv420p c data pic = some pic' ∧ (∀ s ∈ ss, 0 ≤ s.src ∧ s.src < data.length) ∧
      WritesEachOnce c ss ∧ Holds w h data pic'

/-! ## The assignments of the layout -/

theorem intOf_eq {x : Int} (hlow : -2147483648 ≤ x) (hhigh : x < 2147483648) :
    intOf x = some x := if_pos ⟨hlow, hhigh⟩

/-- What `int` computed is the value, and fits. -/
theorem eq_of_intOf {x y : Int} (h : intOf x = some y) : y = x ∧ x < 2147483648 := by
  unfold intOf at h
  split at h
  · next hfits => exact ⟨(Option.some.inj h).symm, hfits.2⟩
  · cases h

/-- A shift by two is a multiplication by four where the result is an `int`. -/
theorem shiftLeft_two {n : Nat} (h : 4 * n < 2147483648) :
    shiftLeft n 2 = some ((4 * n : Nat) : Int) := by
  rw [shiftLeft, if_pos (by omega), Int.bmod_eq_of_le (by omega) (by omega)]
  congr 1
  omega

theorem ofNat_shiftRight (n k : Nat) : (n : Int) >>> k = (n / 2 ^ k : Nat) := by
  rw [Int.shiftRight_eq_div_pow]
  norm_cast

/-- A chroma row reads one line, and skips one. -/
theorem line_le {w h i : Nat} (hh : Even h) (hi : i < h / 2) :
    i * (4 * w) + 4 * w ≤ 2 * w * h := by
  obtain ⟨b, rfl⟩ := hh
  calc i * (4 * w) + 4 * w = (i + 1) * (4 * w) := by ring
    _ ≤ b * (4 * w) := Nat.mul_le_mul_right _ (by omega)
    _ = 2 * w * (b + b) := by ring

/-- The line offset of chroma row `i`. A line as long as an `int` can count has its
sign bit set, and there is one chroma row then, the first. -/
theorem line_eq {w h i : Nat} (hh : Even h) (hsize : 2 * w * h ≤ 2147483648)
    (hi : i < h / 2) : (shiftLeft w 2).bind (fun line => intOf (i * line)) =
      some ((i * (4 * w) : Nat) : Int) := by
  have hle := line_le (w := w) hh hi
  rcases Nat.eq_zero_or_pos i with rfl | hpos
  · rw [shiftLeft, if_pos (by omega)]
    simp [intOf]
  · rcases Nat.eq_zero_or_pos w with rfl | hwpos
    · simp [shiftLeft, intOf]
    · have hw : 4 * w ≤ i * (4 * w) := Nat.le_mul_of_pos_left _ hpos
      rw [shiftLeft_two (by omega), Option.bind_some, ← Int.natCast_mul,
        intOf_eq (by omega) (by omega)]

def lumaStore (i : Nat) : Store := { plane := .y, dst := i, src := (2 * i : Nat) }

def uStore (w i j : Nat) : Store :=
  { plane := .u, dst := (i * (w / 2) + j : Nat), src := (pairAt w (2 * i) j + 1 : Nat) }

def vStore (w i j : Nat) : Store :=
  { plane := .v, dst := (i * (w / 2) + j : Nat), src := (pairAt w (2 * i) j + 3 : Nat) }

/-- The chroma assignments of row `i`. -/
def chromaRow (w i : Nat) : List Store :=
  (List.range (w / 2)).flatMap fun j => [uStore w i j, vStore w i j]

/-- The assignments that make the 4:2:0 picture of a YUYV image. -/
def layout (w h : Nat) : List Store :=
  (List.range (w * h)).map lumaStore ++ (List.range (h / 2)).flatMap (chromaRow w)

theorem chromaPair_eq {w h i j : Nat} (hh : Even h) (hsize : 2 * w * h ≤ 2147483648) {c : Sizes}
    (hc : c.width = w) (hi : i < h / 2) (hj : j < w / 2) :
    chromaPair c i j = some [uStore w i j, vStore w i j] := by
  have hle := line_le (w := w) hh hi
  have hpair : i * (w / 2) + 4 * j < 2147483648 := by
    have hrow : i * (w / 2) ≤ i * (4 * w) := Nat.mul_le_mul_left i (by omega)
    omega
  obtain ⟨line, hshift, hint⟩ := Option.bind_eq_some_iff.mp (line_eq hh hsize hi)
  have hline : i * (4 * w) = 2 * w * (2 * i) := by ring
  rw [chromaPair, hc, ofNat_shiftRight, pow_one, ← Int.natCast_mul, intOf_eq (by omega) (by omega)]
  simp [hshift, hint, shiftLeft_two (n := j) (by omega), uStore, vStore, pairAt, hline]

theorem chromaStores_eq {w h : Nat} (hh : Even h) (hsize : 2 * w * h ≤ 2147483648) {c : Sizes}
    (hw : c.width = w) (hc : c.height = h) :
    chromaStores c = some ((List.range (h / 2)).flatMap (chromaRow w)) := by
  have hrows : (List.range (c.height >>> (1 : Nat)).toNat).mapM (fun i => do
      let pairs ← (List.range (c.width >>> (1 : Nat)).toNat).mapM fun j => chromaPair c i j
      some pairs.flatten) = some ((List.range (h / 2)).map (chromaRow w)) := by
    rw [mapM_eq_some_iff, List.map_map, hc, ofNat_shiftRight]
    refine List.map_congr_left fun i hi => ?_
    have hpairs : (List.range (c.width >>> (1 : Nat)).toNat).mapM (chromaPair c i) =
        some ((List.range (w / 2)).map fun j => [uStore w i j, vStore w i j]) := by
      rw [mapM_eq_some_iff, List.map_map, hw, ofNat_shiftRight]
      exact List.map_congr_left fun j hj =>
        chromaPair_eq hh hsize hw (List.mem_range.mp hi) (List.mem_range.mp hj)
    rw [hpairs]
    rfl
  rw [chromaStores, hrows]
  rfl

theorem lumaStores_eq {n : Nat} {c : Sizes} (hc : c.yByteCount = n) (hsize : 2 * n ≤ 2147483648) :
    lumaStores c = some ((List.range n).map lumaStore) := by
  rw [lumaStores, mapM_eq_some_iff, hc, Int.toNat_natCast, List.map_map]
  refine List.map_congr_left fun i hi => ?_
  have hlt := List.mem_range.mp hi
  rw [intOf_eq (by omega) (by omega), Option.bind_eq_bind, Option.bind_some, Function.comp_apply,
    lumaStore, mul_comm]
  rfl

/-- The sizes of a `w` by `h` picture. -/
def sizesOf (w h : Nat) : Sizes where
  width := w
  height := h
  yByteCount := (w * h : Nat)
  uvByteCount := (h / 2 * (w / 2) : Nat)

theorem quarter_eq {w h : Nat} (hw : Even w) (hh : Even h) : w * h / 4 = h / 2 * (w / 2) := by
  obtain ⟨a, rfl⟩ := hw
  obtain ⟨b, rfl⟩ := hh
  have hfour : (a + a) * (b + b) = b * a * 4 := by ring
  have ha : (a + a) / 2 = a := by omega
  have hb : (b + b) / 2 = b := by omega
  rw [hfour, Nat.mul_div_cancel _ (by omega), ha, hb]

theorem setVideoEncoderParams_eq {w h : Nat} (hw : Even w) (hh : Even h)
    (hsize : w * h < 2147483648) : setVideoEncoderParams w h = some (sizesOf w h) := by
  rw [setVideoEncoderParams, ← Int.natCast_mul, intOf_eq (by omega) (by omega),
    Option.bind_eq_bind, Option.bind_some, ofNat_shiftRight, sizesOf, ← quarter_eq hw hh]
  rfl

theorem stores_eq {w h : Nat} (hh : Even h) (hsize : 2 * w * h ≤ 2147483648) :
    stores (sizesOf w h) = some (layout w h) := by
  have hluma : lumaStores (sizesOf w h) = some ((List.range (w * h)).map lumaStore) :=
    lumaStores_eq rfl (by rwa [← mul_assoc])
  rw [stores, hluma, chromaStores_eq hh hsize rfl rfl]
  rfl

/-! ## The layout covers the planes -/

theorem mem_chroma {w h : Nat} {s : Store} : s ∈ (List.range (h / 2)).flatMap (chromaRow w) ↔
    ∃ i < h / 2, ∃ j < w / 2, s = uStore w i j ∨ s = vStore w i j := by
  simp [chromaRow]

theorem mem_layout {w h : Nat} {s : Store} : s ∈ layout w h ↔ (∃ i < w * h, lumaStore i = s) ∨
    ∃ i < h / 2, ∃ j < w / 2, s = uStore w i j ∨ s = vStore w i j := by
  rw [layout, List.mem_append, mem_chroma]
  simp

theorem filter_luma (n : Nat) (plane : Plane) :
    ((List.range n).map lumaStore).filter (fun s => s.plane = plane) =
      if plane = .y then (List.range n).map lumaStore else [] := by
  split
  · next h => exact List.filter_eq_self.mpr (by simp [lumaStore, h])
  · next h => exact List.filter_eq_nil_iff.mpr (by simp [lumaStore, Ne.symm h])

/-- One of the two stores of each chroma round covers its plane. -/
theorem filter_chroma {w h : Nat} {plane : Plane} {f : Nat → Nat → Store}
    (hpair : ∀ i j, [uStore w i j, vStore w i j].filter (fun s => s.plane = plane) = [f i j])
    (hdst : ∀ i j, (f i j).dst = (i * (w / 2) + j : Nat)) :
    (((List.range (h / 2)).flatMap (chromaRow w)).filter fun s => s.plane = plane).map (·.dst) =
      (List.range (h / 2 * (w / 2))).map Int.ofNat := by
  have hrow : ∀ i, (((chromaRow w i).filter fun s => s.plane = plane).map (·.dst)) =
      ((List.range (w / 2)).map fun j => i * (w / 2) + j).map Int.ofNat := by
    intro i
    rw [chromaRow, List.filter_flatMap, List.map_flatMap, List.map_map]
    simp only [hpair, List.map_cons, List.map_nil, hdst]
    rw [← List.map_eq_flatMap]
    rfl
  rw [List.filter_flatMap, List.map_flatMap, ← flatMap_rows, List.map_flatMap]
  exact congrArg (List.flatMap · _) (funext hrow)

theorem writesEachOnce_layout (w h : Nat) : WritesEachOnce (sizesOf w h) (layout w h) := by
  intro plane
  rw [layout, List.filter_append, List.map_append, filter_luma]
  cases plane with
  | y =>
    have hchroma : ((List.range (h / 2)).flatMap (chromaRow w)).filter
        (fun s => s.plane = Plane.y) = [] :=
      List.filter_eq_nil_iff.mpr fun s hs => by
        obtain ⟨i, -, j, -, rfl | rfl⟩ := mem_chroma.mp hs <;> simp [uStore, vStore]
    rw [hchroma, if_pos rfl, List.map_nil, List.append_nil, List.map_map]
    rfl
  | u => exact filter_chroma (f := uStore w) (fun i j => rfl) fun i j => rfl
  | v => exact filter_chroma (f := vStore w) (fun i j => rfl) fun i j => rfl

theorem entry_lt {m n i j : Nat} (hi : i < m) (hj : j < n) : i * n + j < m * n :=
  calc i * n + j < i * n + n := Nat.add_lt_add_left hj _
    _ = (i + 1) * n := (Nat.succ_mul i n).symm
    _ ≤ m * n := Nat.mul_le_mul_right n hi

/-- The layout reads bytes of the image. -/
theorem src_of_mem_layout {w h : Nat} (hh : Even h) {s : Store} (hs : s ∈ layout w h) :
    0 ≤ s.src ∧ s.src < (2 * w * h : Nat) := by
  rcases mem_layout.mp hs with ⟨i, hi, rfl⟩ | ⟨i, hi, j, hj, hs⟩
  · have hluma : (lumaStore i).src = (2 * i : Nat) := rfl
    rw [hluma, mul_assoc]
    omega
  · have hle := line_le (w := w) hh hi
    have hline : 2 * w * (2 * i) = i * (4 * w) := by ring
    rcases hs with rfl | rfl <;> simp only [uStore, vStore, pairAt, hline] <;> omega

/-- The layout writes bytes of the planes. -/
theorem dst_of_mem_layout {w h : Nat} {pic : Picture} (hpic : pic.I420 w h) {s : Store}
    (hs : s ∈ layout w h) : 0 ≤ s.dst ∧ s.dst < pic.size s.plane := by
  obtain ⟨hy, hu, hv⟩ := hpic
  rcases mem_layout.mp hs with ⟨i, hi, rfl⟩ | ⟨i, hi, j, hj, hs⟩
  · exact ⟨Int.natCast_nonneg i, hy ▸ Int.ofNat_lt.mpr hi⟩
  · have hlt := Int.ofNat_lt.mpr (entry_lt hi hj)
    rw [Nat.mul_comm (h / 2)] at hlt
    rcases hs with rfl | rfl
    · exact ⟨Int.natCast_nonneg _, hu ▸ hlt⟩
    · exact ⟨Int.natCast_nonneg _, hv ▸ hlt⟩

/-! ## Making the assignments -/

/-- Assignments inside the image and the planes are all made. -/
theorem foldlM_assign {data : List UInt8} {ss : List Store} {pic : Picture}
    (hsrc : ∀ s ∈ ss, 0 ≤ s.src ∧ s.src < data.length)
    (hdst : ∀ s ∈ ss, 0 ≤ s.dst ∧ s.dst < pic.size s.plane) :
    ss.foldlM (assign data) pic = some { pic with
      bytes := fill pic.bytes (ss.map fun s => ((s.plane, s.dst), data.getD s.src.toNat 0)) } := by
  induction ss generalizing pic with
  | nil => rfl
  | cons s ss ih =>
    obtain ⟨hs, hsrc⟩ := List.forall_mem_cons.mp hsrc
    obtain ⟨hd, hdst⟩ := List.forall_mem_cons.mp hdst
    rw [List.foldlM_cons, assign, if_pos ⟨hs.1, hs.2, hd⟩, Option.bind_eq_bind, Option.bind_some]
    exact ih hsrc hdst

/-- Assignments that write each byte once write no byte twice. -/
theorem WritesEachOnce.nodup {c : Sizes} {ss : List Store} (h : WritesEachOnce c ss) :
    (ss.map fun s => (s.plane, s.dst)).Nodup := by
  rw [List.Nodup, List.pairwise_map, List.pairwise_iff_getElem]
  intro i j hi hj hij heq
  have hplane := h ss[i].plane
  have hnodup : ((ss.filter fun s => s.plane = ss[i].plane).map (·.dst)).Nodup := by
    rw [hplane]
    exact List.nodup_range.map fun a b => Int.ofNat.inj
  rw [List.Nodup, List.pairwise_map, List.pairwise_filter, List.pairwise_iff_getElem] at hnodup
  have := hnodup i j hi hj hij (by simp) (by simpa using (congrArg Prod.fst heq).symm)
  exact this (congrArg Prod.snd heq)

/-- After assignments that write each byte once, a written byte is the one read for it. -/
theorem getElem?_src {c : Sizes} {ss : List Store} (honce : WritesEachOnce c ss)
    {data : List UInt8} (hsrc : ∀ s ∈ ss, 0 ≤ s.src ∧ s.src < data.length) {s : Store}
    (hs : s ∈ ss) (bytes : Plane × Int → UInt8) : data[s.src.toNat]? =
      some (fill bytes (ss.map fun s => ((s.plane, s.dst), data.getD s.src.toNat 0))
        (s.plane, s.dst)) := by
  have hnodup : ((ss.map fun s => ((s.plane, s.dst), data.getD s.src.toNat 0)).map
      Prod.fst).Nodup := by
    rw [List.map_map]
    exact honce.nodup
  have hlt : s.src.toNat < data.length := by
    have := hsrc s hs
    omega
  have hmem := List.mem_map_of_mem
    (f := fun s : Store => ((s.plane, s.dst), data.getD s.src.toNat 0)) hs
  rw [fill_of_mem hnodup hmem, List.getElem?_eq_getElem hlt, List.getD_eq_getElem?_getD,
    List.getElem?_eq_getElem hlt, Option.getD_some]

/-- The loops leave the image in the planes. -/
theorem holds_of_layout {w h : Nat} {data : List UInt8} {pic' : Picture}
    (hread : ∀ s ∈ layout w h, data[s.src.toNat]? = some (pic'.bytes (s.plane, s.dst))) :
    Holds w h data pic' where
  luma r hr c hc := by
    have hlt : r * w + c < w * h := (entry_lt hr hc).trans_eq (Nat.mul_comm h w)
    exact hread (lumaStore (r * w + c)) (mem_layout.mpr (.inl ⟨_, hlt, rfl⟩))
  chromaU i hi j hj :=
    hread (uStore w i j) (mem_layout.mpr (.inr ⟨i, hi, j, hj, .inl rfl⟩))
  chromaV i hi j hj :=
    hread (vStore w i j) (mem_layout.mpr (.inr ⟨i, hi, j, hj, .inr rfl⟩))

/-- An image whose bytes can be counted in `int` is converted. -/
theorem converts {w h : Nat} (hw : Even w) (hh : Even h) (hsize : 2 * w * h ≤ 2147483648) :
    Converts w h := by
  intro data pic hdata hpic
  have hset := setVideoEncoderParams_eq hw hh (by rw [mul_assoc] at hsize; omega)
  have honce := writesEachOnce_layout w h
  have hsrc : ∀ s ∈ layout w h, 0 ≤ s.src ∧ s.src < data.length := by
    rw [hdata]
    exact fun s hs => src_of_mem_layout hh hs
  have hmade := foldlM_assign hsrc fun s hs => dst_of_mem_layout hpic hs
  have hloops := (congrArg (·.bind fun ss => ss.foldlM (assign data) pic)
    (stores_eq hh hsize)).trans hmade
  exact ⟨_, _, _, hset, stores_eq hh hsize, hloops, hsrc, honce,
    holds_of_layout fun s hs => getElem?_src honce hsrc hs pic.bytes⟩

/-- The luma count is the product of the sizes. -/
theorem setVideoEncoderParams_count {w h : Nat} {c : Sizes}
    (hset : setVideoEncoderParams w h = some c) : c.yByteCount = (w * h : Nat) := by
  unfold setVideoEncoderParams at hset
  obtain ⟨count, hcount, hc⟩ := Option.bind_eq_some_iff.mp hset
  rw [← Option.some.inj hc, Int.natCast_mul]
  exact (eq_of_intOf hcount).1

/-- Loops that run to their end read luma bytes an `int` can count. -/
theorem stores_luma {c : Sizes} {ss : List Store} (hss : stores c = some ss) {i : Nat}
    (hi : i < c.yByteCount.toNat) : 2 * i < 2147483648 := by
  obtain ⟨luma, hluma, -⟩ := Option.bind_eq_some_iff.mp hss
  have hround := List.mem_map_of_mem (f := fun (i : Nat) => do
    let src ← intOf (i * 2)
    some { plane := .y, dst := i, src := src : Store}) (List.mem_range.mpr hi)
  rw [mapM_eq_some_iff.mp hluma] at hround
  obtain ⟨s, -, hs⟩ := List.mem_map.mp hround
  obtain ⟨src, hsrc, -⟩ := Option.bind_eq_some_iff.mp hs.symm
  have := (eq_of_intOf hsrc).2
  omega

/-- Larger images are not converted: `int` overflows first. -/
theorem size_of_converts {w h : Nat} (hconverts : Converts w h) :
    2 * w * h ≤ 2147483648 := by
  obtain ⟨c, ss, -, hset, hss, -⟩ := hconverts (List.replicate (2 * w * h) 0)
    ⟨fun plane => if plane = .y then (w * h : Nat) else (w / 2 * (h / 2) : Nat), fun _ => 0⟩
    List.length_replicate ⟨rfl, rfl, rfl⟩
  have hcount := setVideoEncoderParams_count hset
  by_contra hlarge
  rw [mul_assoc] at hlarge
  have := stores_luma hss (i := 1073741824) (by omega)
  omega

/-- An image is converted exactly when its bytes can be counted in `int`. -/
theorem converts_iff {w h : Nat} (hw : Even w) (hh : Even h) :
    Converts w h ↔ 2 * w * h ≤ 2147483648 :=
  ⟨size_of_converts, converts hw hh⟩

/-- The size the program sets. -/
theorem converts_640_360 : Converts 640 360 :=
  (converts_iff (by decide) (by decide)).mpr (by decide)

/-- The luma count of a larger image leaves `int`. -/
theorem not_converts_65536 : Even 65536 ∧ ¬ Converts 65536 65536 :=
  ⟨by decide, fun hconverts => absurd (size_of_converts hconverts) (by decide)⟩

end VideoChannel
end MiniSurveillance
