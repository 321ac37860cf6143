import Mathlib.Algebra.Ring.Nat

/-!
# Bytes behind a pointer

A `char*` is the memory from that address on: `Mem` gives the byte at every
offset, whether or not the program owns it. `slice` is the run of bytes an
`(offset, length)` pair names, `write` is `memcpy` or `read` into the memory.

Big-endian numbers are read with `be16`, `be24` and `be32`, spelled with shifts
and ors as C++ code spells them, and laid out with `bytes16` and `bytes32`.
-/

namespace Bytes

/-- The bytes from a pointer on. -/
abbrev Mem := Nat → UInt8

/-- The `len` bytes from `off` on. -/
def slice (m : Mem) (off len : Nat) : List UInt8 :=
  (List.range' off len).map m

/-- A memory that starts with the given bytes. What follows them is zero. -/
def ofList (bs : List UInt8) : Mem := fun i => bs.getD i 0

/-- Copy bytes into the memory at `off`. -/
def write (m : Mem) (off : Nat) (bs : List UInt8) : Mem := fun i =>
  if off ≤ i ∧ i < off + bs.length then bs.getD (i - off) 0 else m i

/-! ## Slices -/

@[simp] theorem slice_length (m : Mem) (off len : Nat) : (slice m off len).length = len := by
  simp [slice]

@[simp] theorem slice_zero (m : Mem) (off : Nat) : slice m off 0 = [] := rfl

theorem slice_succ (m : Mem) (off len : Nat) :
    slice m off (len + 1) = m off :: slice m (off + 1) len := by
  simp [slice, List.range'_succ]

theorem slice_append (m : Mem) (off a b : Nat) :
    slice m off (a + b) = slice m off a ++ slice m (off + a) b := by
  simp [slice, ← List.map_append, List.range'_append_1]

theorem slice_getElem? {m : Mem} {off len i : Nat} (h : i < len) :
    (slice m off len)[i]? = some (m (off + i)) := by
  simp [slice, h]

/-- The byte a slice has at an index is the byte of the memory. -/
theorem slice_byte {m : Mem} {len i : Nat} {bs : List UInt8} {b : UInt8}
    (h : slice m 0 len = bs) (hi : bs[i]? = some b) : i < len ∧ m i = b := by
  subst h
  have hlt := (List.getElem?_eq_some_iff.mp hi).1
  rw [slice_length] at hlt
  rw [slice_getElem? hlt, Nat.zero_add] at hi
  exact ⟨hlt, Option.some.inj hi⟩

/-- A slice that equals a concatenation splits at the same place. -/
theorem slice_eq_append {m : Mem} {off len : Nat} {xs ys : List UInt8}
    (h : slice m off len = xs ++ ys) :
    slice m off xs.length = xs ∧ slice m (off + xs.length) ys.length = ys := by
  have hlen : len = xs.length + ys.length := by
    have := congrArg List.length h
    simpa using this
  rw [hlen, slice_append] at h
  exact List.append_inj h (by simp)

theorem slice_eq_cons {m : Mem} {off len : Nat} {b : UInt8} {ys : List UInt8}
    (h : slice m off len = b :: ys) :
    m off = b ∧ slice m (off + 1) ys.length = ys := by
  have h' : slice m off len = [b] ++ ys := h
  have h' := slice_eq_append h'
  simp only [List.length_singleton, slice_succ, slice_zero, List.cons.injEq, and_true] at h'
  exact h'

/-! ## Memories made of bytes -/

theorem slice_ofList (bs : List UInt8) : slice (ofList bs) 0 bs.length = bs := by
  apply List.ext_getElem?
  intro i
  rcases Nat.lt_or_ge i bs.length with h | h
  · rw [slice_getElem? h]
    simp [ofList, List.getD, h]
  · rw [List.getElem?_eq_none (by simpa using h), List.getElem?_eq_none h]

theorem write_of_mem {m : Mem} {off i : Nat} {bs : List UInt8} (h : i < bs.length) :
    write m off bs (off + i) = bs[i] := by
  unfold write
  rw [if_pos (by omega), Nat.add_sub_cancel_left]
  simp [List.getD, h]

theorem write_of_not_mem {m : Mem} {off i : Nat} {bs : List UInt8}
    (h : i < off ∨ off + bs.length ≤ i) : write m off bs i = m i := by
  unfold write
  rw [if_neg (by omega)]

theorem write_zero_of_lt {m : Mem} {i : Nat} {bs : List UInt8} (h : i < bs.length) :
    write m 0 bs i = bs.getD i 0 := by
  unfold write
  rw [if_pos (by omega), Nat.sub_zero]

/-- What was copied in can be read back. -/
theorem slice_write (m : Mem) (off : Nat) (bs : List UInt8) :
    slice (write m off bs) off bs.length = bs := by
  apply List.ext_getElem?
  intro i
  rcases Nat.lt_or_ge i bs.length with h | h
  · rw [slice_getElem? h, write_of_mem h, List.getElem?_eq_getElem h]
  · rw [List.getElem?_eq_none (by simpa using h), List.getElem?_eq_none h]

/-! ## Big-endian numbers -/

/-- `(num0 << 8) | num1`. -/
def be16 (b₀ b₁ : UInt8) : Nat := (b₀.toNat <<< 8) ||| b₁.toNat

/-- `(num0 << 16) | (num1 << 8) | num2`. -/
def be24 (b₀ b₁ b₂ : UInt8) : Nat := (b₀.toNat <<< 16) ||| (b₁.toNat <<< 8) ||| b₂.toNat

/-- `(num0 << 24) | (num1 << 16) | (num2 << 8) | num3`. -/
def be32 (b₀ b₁ b₂ b₃ : UInt8) : Nat :=
  (b₀.toNat <<< 24) ||| (b₁.toNat <<< 16) ||| (b₂.toNat <<< 8) ||| b₃.toNat

/-- Shifting left and or-ing in a smaller number adds it. -/
theorem shiftLeft_or (a : Nat) {b k : Nat} (h : b < 2 ^ k) : (a <<< k) ||| b = a * 2 ^ k + b := by
  rw [← Nat.shiftLeft_add_eq_or_of_lt h, Nat.shiftLeft_eq]

theorem be16_eq (b₀ b₁ : UInt8) : be16 b₀ b₁ = b₀.toNat * 256 + b₁.toNat := by
  have h₁ := b₁.toNat_lt
  exact shiftLeft_or b₀.toNat h₁

theorem be32_eq (b₀ b₁ b₂ b₃ : UInt8) :
    be32 b₀ b₁ b₂ b₃ =
      b₀.toNat * 16777216 + b₁.toNat * 65536 + b₂.toNat * 256 + b₃.toNat := by
  have h₁ := b₁.toNat_lt
  have h₂ := b₂.toNat_lt
  have h₃ := b₃.toNat_lt
  unfold be32
  rw [Nat.or_assoc, Nat.or_assoc, shiftLeft_or b₂.toNat h₃,
    shiftLeft_or b₁.toNat (show b₂.toNat * 2 ^ 8 + b₃.toNat < 2 ^ 16 by omega),
    shiftLeft_or b₀.toNat
      (show b₁.toNat * 2 ^ 16 + (b₂.toNat * 2 ^ 8 + b₃.toNat) < 2 ^ 24 by omega)]
  omega

theorem be16_lt (b₀ b₁ : UInt8) : be16 b₀ b₁ < 65536 := by
  have h₀ := b₀.toNat_lt
  have h₁ := b₁.toNat_lt
  rw [be16_eq]
  omega

theorem be32_lt (b₀ b₁ b₂ b₃ : UInt8) : be32 b₀ b₁ b₂ b₃ < 4294967296 := by
  have h₀ := b₀.toNat_lt
  have h₁ := b₁.toNat_lt
  have h₂ := b₂.toNat_lt
  have h₃ := b₃.toNat_lt
  rw [be32_eq]
  omega

/-- The two bytes of a 16-bit length, most significant first. -/
def bytes16 (n : Nat) : List UInt8 := [UInt8.ofNat (n >>> 8), UInt8.ofNat n]

/-- The four bytes of a 32-bit length, most significant first. -/
def bytes32 (n : Nat) : List UInt8 :=
  [UInt8.ofNat (n >>> 24), UInt8.ofNat (n >>> 16), UInt8.ofNat (n >>> 8), UInt8.ofNat n]

@[simp] theorem bytes16_length (n : Nat) : (bytes16 n).length = 2 := rfl

@[simp] theorem bytes32_length (n : Nat) : (bytes32 n).length = 4 := rfl

/-- A 16-bit length is read back as it was laid out. -/
theorem be16_bytes16 {n : Nat} (h : n < 65536) :
    be16 (UInt8.ofNat (n >>> 8)) (UInt8.ofNat n) = n := by
  rw [be16_eq, UInt8.toNat_ofNat', UInt8.toNat_ofNat', Nat.shiftRight_eq_div_pow]
  omega

/-- A 32-bit length is read back as it was laid out. -/
theorem be32_bytes32 {n : Nat} (h : n < 4294967296) :
    be32 (UInt8.ofNat (n >>> 24)) (UInt8.ofNat (n >>> 16)) (UInt8.ofNat (n >>> 8))
      (UInt8.ofNat n) = n := by
  rw [be32_eq, UInt8.toNat_ofNat', UInt8.toNat_ofNat', UInt8.toNat_ofNat', UInt8.toNat_ofNat',
    Nat.shiftRight_eq_div_pow, Nat.shiftRight_eq_div_pow, Nat.shiftRight_eq_div_pow]
  omega

/-- Any two bytes are the layout of the number they spell. -/
theorem bytes16_be16 (b₀ b₁ : UInt8) : bytes16 (be16 b₀ b₁) = [b₀, b₁] := by
  have h₀ := b₀.toNat_lt
  have h₁ := b₁.toNat_lt
  unfold bytes16
  rw [be16_eq, Nat.shiftRight_eq_div_pow]
  congr 1
  · apply UInt8.toNat_inj.mp
    rw [UInt8.toNat_ofNat']
    omega
  · congr 1
    apply UInt8.toNat_inj.mp
    rw [UInt8.toNat_ofNat']
    omega

/-- Any four bytes are the layout of the number they spell. -/
theorem bytes32_be32 (b₀ b₁ b₂ b₃ : UInt8) :
    bytes32 (be32 b₀ b₁ b₂ b₃) = [b₀, b₁, b₂, b₃] := by
  have h₀ := b₀.toNat_lt
  have h₁ := b₁.toNat_lt
  have h₂ := b₂.toNat_lt
  have h₃ := b₃.toNat_lt
  have hb : ∀ {n : Nat} {b : UInt8}, n % 256 = b.toNat → UInt8.ofNat n = b := by
    intro n b h
    apply UInt8.toNat_inj.mp
    rw [UInt8.toNat_ofNat']
    exact h
  unfold bytes32
  rw [be32_eq, Nat.shiftRight_eq_div_pow, Nat.shiftRight_eq_div_pow, Nat.shiftRight_eq_div_pow,
    hb (b := b₀) (by omega), hb (b := b₁) (by omega), hb (b := b₂) (by omega),
    hb (b := b₃) (by omega)]

end Bytes
