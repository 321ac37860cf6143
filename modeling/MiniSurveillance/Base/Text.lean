import Mathlib.Algebra.Ring.Nat

/-!
# Text

Text that passes between character arrays, UTF-16 and UTF-8: `cStr` is what is
left of a string behind `c_str()`, `utf16Length` the length a UTF-16 string class
reports, `utf8` the bytes of the converted string, and `substr` the byte range a
string class cuts out. `substr_last_isSome`: the last `n` units of a text exist as
bytes as soon as it has `n` units. `utf16Length_eq_utf8_iff`: only for ASCII do bytes and
units agree.
-/

namespace Text

/-- The text up to the first NUL. -/
def cStr (s : String) : String := String.ofList (s.toList.takeWhile (· ≠ '\x00'))

/-- How many UTF-16 code units a character takes. -/
def utf16Units (c : Char) : Nat := if c.val < 0x10000 then 1 else 2

def utf16Length (s : String) : Nat := (s.toList.map utf16Units).sum

def utf8 (s : String) : List UInt8 := s.toList.flatMap String.utf8EncodeChar

/-- Up to `n` bytes from a signed position on; `none` when the position lies behind
the end. A negative position becomes a huge unsigned one. -/
def substr (bytes : List UInt8) (pos : Int) (n : Nat) : Option (List UInt8) :=
  if pos < 0 ∨ (bytes.length : Int) < pos then none else some ((bytes.drop pos.toNat).take n)

theorem one_le_utf16Units (c : Char) : 1 ≤ utf16Units c := by
  unfold utf16Units
  split <;> omega

/-- A character that needs a surrogate pair is no single byte. -/
theorem utf16Units_le (c : Char) : utf16Units c ≤ (String.utf8EncodeChar c).length := by
  rw [String.length_utf8EncodeChar, utf16Units]
  have hpos := Char.utf8Size_pos c
  split
  · omega
  · next hlarge =>
    have hone : c.utf8Size ≠ 1 := by
      rw [ne_eq, Char.utf8Size_eq_one_iff, UInt32.le_iff_toNat_le]
      rw [UInt32.lt_iff_toNat_lt] at hlarge
      simp only [UInt32.reduceToNat] at hlarge ⊢
      omega
    omega

theorem length_le_utf16Length (s : String) : s.length ≤ utf16Length s := by
  rw [utf16Length, ← String.length_toList]
  induction s.toList with
  | nil => simp
  | cons c cs ih =>
    have hc := one_le_utf16Units c
    simp only [List.length_cons, List.map_cons, List.sum_cons]
    omega

theorem utf16Length_le_utf8 (s : String) : utf16Length s ≤ (utf8 s).length := by
  rw [utf16Length, utf8]
  induction s.toList with
  | nil => simp
  | cons c cs ih =>
    have hc := utf16Units_le c
    simp only [List.map_cons, List.sum_cons, List.flatMap_cons, List.length_append]
    omega

/-- Cutting at `n` UTF-16 units before the end raises exactly on a text that is
shorter than that. -/
theorem substr_last_isSome (s : String) (n k : Nat) :
    (substr (utf8 s) ((utf16Length s : Int) - n) k).isSome = true ↔ n ≤ utf16Length s := by
  have hle := utf16Length_le_utf8 s
  unfold substr
  split
  · simp only [Option.isSome_none, Bool.false_eq_true, false_iff]
    omega
  · simp only [Option.isSome_some, true_iff]
    omega

/-! ## ASCII -/

/-- Every character is a single byte. -/
def Ascii (s : String) : Prop := ∀ c ∈ s.toList, c.val ≤ 0x7f

instance (s : String) : Decidable (Ascii s) :=
  inferInstanceAs (Decidable (∀ c ∈ s.toList, c.val ≤ 0x7f))

theorem utf8_append (s t : String) : utf8 (s ++ t) = utf8 s ++ utf8 t := by
  rw [utf8, String.toList_append, List.flatMap_append, utf8, utf8]

theorem utf16Length_append (s t : String) :
    utf16Length (s ++ t) = utf16Length s + utf16Length t := by
  rw [utf16Length, String.toList_append, List.map_append, List.sum_append, utf16Length, utf16Length]

theorem utf16Units_of_ascii {c : Char} (h : c.val ≤ 0x7f) : utf16Units c = 1 := by
  rw [UInt32.le_iff_toNat_le] at h
  rw [utf16Units, if_pos (by
    rw [UInt32.lt_iff_toNat_lt]
    simp only [UInt32.reduceToNat] at h ⊢
    omega)]

/-- Behind ASCII a character takes more bytes than UTF-16 units. -/
theorem utf16Units_lt {c : Char} (h : ¬ c.val ≤ 0x7f) :
    utf16Units c < (String.utf8EncodeChar c).length := by
  rw [String.length_utf8EncodeChar, utf16Units]
  have hpos := Char.utf8Size_pos c
  have hone : c.utf8Size ≠ 1 := fun hone => h (Char.utf8Size_eq_one_iff.mp hone)
  split
  · omega
  · next hlarge =>
    have htwo : c.utf8Size ≠ 2 := by
      intro htwo
      have hle := (Char.utf8Size_eq_two_iff.mp htwo).2
      rw [UInt32.le_iff_toNat_le] at hle
      rw [UInt32.lt_iff_toNat_lt] at hlarge
      simp only [UInt32.reduceToNat] at hlarge hle
      omega
    omega

/-- The bytes and the UTF-16 units of a text are as many exactly for ASCII. -/
theorem utf16Length_eq_utf8_iff (s : String) : utf16Length s = (utf8 s).length ↔ Ascii s := by
  rw [utf16Length, utf8, Ascii]
  induction s.toList with
  | nil => simp
  | cons c cs ih =>
    have hle := utf16Length_le_utf8 (String.ofList cs)
    rw [utf16Length, utf8, String.toList_ofList] at hle
    rw [List.forall_mem_cons, ← ih]
    simp only [List.map_cons, List.sum_cons, List.flatMap_cons, List.length_append]
    by_cases hc : c.val ≤ 0x7f
    · have hbyte : (String.utf8EncodeChar c).length = 1 := by
        rw [String.length_utf8EncodeChar, Char.utf8Size_eq_one_iff]
        exact hc
      rw [utf16Units_of_ascii hc, hbyte]
      simp [hc]
    · have hlt := utf16Units_lt hc
      refine iff_of_false (by omega) fun h => hc h.1

/-- A text has as many bytes as characters exactly for ASCII. -/
theorem length_eq_utf8_iff (s : String) : s.length = (utf8 s).length ↔ Ascii s := by
  have hchars := length_le_utf16Length s
  have hunits := utf16Length_le_utf8 s
  constructor
  · intro h
    exact (utf16Length_eq_utf8_iff s).mp (by omega)
  · intro h
    rw [← (utf16Length_eq_utf8_iff s).mpr h, utf16Length, ← String.length_toList]
    have hones : s.toList.map utf16Units = s.toList.map fun _ => 1 :=
      List.map_congr_left fun c hc => utf16Units_of_ascii (h c hc)
    rw [hones, List.map_const', List.sum_replicate_nat, Nat.mul_one]

end Text
