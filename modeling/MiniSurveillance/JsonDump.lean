import Mathlib.Data.Nat.Digits.Lemmas
import MiniSurveillance.Base.Bytes
import MiniSurveillance.Base.Utf8

/-!
# The text of a JSON value

`dump` of the vendored library as this program calls it: no indentation, no
`ensure_ascii`, and an exception on a string that is not UTF-8. Strings go through
`dump_escaped`, which decodes them byte by byte into a buffer of 512 bytes that it
hands on when it is nearly full; integers go through `dump_integer`, which fills its
buffer from the back.

`dumpEscaped_eq_ok_iff`: exactly the UTF-8 strings are written, one `escape` for each
character; `dumpEscaped_ne_overrun`: the buffer is never overrun. `dumpUnsigned_eq` and
`dumpSigned_of_neg`: the buffer holds the sign and the decimal digits, with no gap, and
`length_dumpSigned_lt` that they fit it.
-/

namespace MiniSurveillance
open Bytes

/-- `nlohmann::basic_json` over the type of its floating-point numbers. A string is a
`std::string`, an object the entries of its `std::map` in their order. -/
inductive BasicJson (F : Type)
  | null
  | boolean (b : Bool)
  | numberInteger (n : Int64)
  | numberUnsigned (n : UInt64)
  | numberFloat (x : F)
  | string (s : List UInt8)
  | array (elements : List (BasicJson F))
  | object (fields : List (List UInt8 × BasicJson F))

/-- What the C library does with floating-point numbers, for `dump_float` and the lexer, and
the part in front of the point, for conversions. -/
structure FloatLib (F : Type) where
  dumpFloat : F → List UInt8
  strtof : List UInt8 → F
  isfinite : F → Bool
  decimalPoint : UInt8
  trunc : F → Int

/-- The byte of an ASCII character. -/
def chr (c : Char) : UInt8 := UInt8.ofNat c.toNat

def ascii (cs : List Char) : List UInt8 := cs.map chr

def quote : UInt8 := 0x22
def backslash : UInt8 := 0x5C

/-! ## Strings -/

inductive DumpError
  /-- `type_error` 316, "invalid UTF-8 byte at index". -/
  | invalidByte (index : Nat) (byte : UInt8)
  /-- `type_error` 316, "incomplete UTF-8 string; last byte". -/
  | incomplete (last : UInt8)
  /-- A write behind the end of `string_buffer`. -/
  | overrun
deriving DecidableEq, Repr

def utf8Accept : UInt8 := 0
def utf8Reject : UInt8 := 1

/-- The class of every byte, then a row of 16 for each state. -/
def utf8d : List UInt8 := [
  0, 0, 0, 0, 0, 0, 0, 0, 0, 0, 0, 0, 0, 0, 0, 0, 0, 0, 0, 0, 0, 0, 0, 0, 0, 0, 0, 0, 0, 0, 0, 0,
  0, 0, 0, 0, 0, 0, 0, 0, 0, 0, 0, 0, 0, 0, 0, 0, 0, 0, 0, 0, 0, 0, 0, 0, 0, 0, 0, 0, 0, 0, 0, 0,
  0, 0, 0, 0, 0, 0, 0, 0, 0, 0, 0, 0, 0, 0, 0, 0, 0, 0, 0, 0, 0, 0, 0, 0, 0, 0, 0, 0, 0, 0, 0, 0,
  0, 0, 0, 0, 0, 0, 0, 0, 0, 0, 0, 0, 0, 0, 0, 0, 0, 0, 0, 0, 0, 0, 0, 0, 0, 0, 0, 0, 0, 0, 0, 0,
  1, 1, 1, 1, 1, 1, 1, 1, 1, 1, 1, 1, 1, 1, 1, 1, 9, 9, 9, 9, 9, 9, 9, 9, 9, 9, 9, 9, 9, 9, 9, 9,
  7, 7, 7, 7, 7, 7, 7, 7, 7, 7, 7, 7, 7, 7, 7, 7, 7, 7, 7, 7, 7, 7, 7, 7, 7, 7, 7, 7, 7, 7, 7, 7,
  8, 8, 2, 2, 2, 2, 2, 2, 2, 2, 2, 2, 2, 2, 2, 2, 2, 2, 2, 2, 2, 2, 2, 2, 2, 2, 2, 2, 2, 2, 2, 2,
  0xA, 0x3, 0x3, 0x3, 0x3, 0x3, 0x3, 0x3, 0x3, 0x3, 0x3, 0x3, 0x3, 0x4, 0x3, 0x3,
  0xB, 0x6, 0x6, 0x6, 0x5, 0x8, 0x8, 0x8, 0x8, 0x8, 0x8, 0x8, 0x8, 0x8, 0x8, 0x8,
  0x0, 0x1, 0x2, 0x3, 0x5, 0x8, 0x7, 0x1, 0x1, 0x1, 0x4, 0x6, 0x1, 0x1, 0x1, 0x1,
  1, 1, 1, 1, 1, 1, 1, 1, 1, 1, 1, 1, 1, 1, 1, 1, 1, 0, 1, 1, 1, 1, 1, 0, 1, 0, 1, 1, 1, 1, 1, 1,
  1, 2, 1, 1, 1, 1, 1, 2, 1, 2, 1, 1, 1, 1, 1, 1, 1, 1, 1, 1, 1, 1, 1, 2, 1, 1, 1, 1, 1, 1, 1, 1,
  1, 2, 1, 1, 1, 1, 1, 1, 1, 2, 1, 1, 1, 1, 1, 1, 1, 1, 1, 1, 1, 1, 1, 3, 1, 3, 1, 1, 1, 1, 1, 1,
  1, 3, 1, 1, 1, 1, 1, 3, 1, 3, 1, 1, 1, 1, 1, 1, 1, 3, 1, 1, 1, 1, 1, 1, 1, 1, 1, 1, 1, 1, 1, 1]

/-- `decode`: the new state and the code point so far. -/
def decode (state : UInt8) (codep : UInt32) (byte : UInt8) : UInt8 × UInt32 :=
  let type := utf8d.getD byte.toNat 0
  (utf8d.getD (256 + state.toNat * 16 + type.toNat) utf8Reject,
    if state ≠ utf8Accept then (byte &&& 0x3F).toUInt32 ||| (codep <<< 6)
    else ((0xFF : UInt32) >>> type.toUInt32) &&& byte.toUInt32)

/-- The sizes of `string_buffer` and `number_buffer`. -/
def stringBufferSize : Nat := 512
def numberBufferSize : Nat := 64

/-- A digit of `%x`. -/
def hexDigit (n : Nat) : UInt8 := UInt8.ofNat (if n < 10 then 0x30 + n else 0x57 + n)

/-- `\\u%04x`. -/
def unicodeEscape (n : Nat) : List UInt8 :=
  backslash :: ascii ['u'] ++ [hexDigit (n / 4096 % 16), hexDigit (n / 256 % 16),
    hexDigit (n / 16 % 16), hexDigit (n % 16)]

/-- What an accepted code point puts into the buffer, and the room that takes:
`snprintf` ends its text with a NUL. -/
def accepted (codepoint : UInt32) (byte : UInt8) : List UInt8 × Nat :=
  if codepoint = 0x08 then (backslash :: ascii ['b'], 2)
  else if codepoint = 0x09 then (backslash :: ascii ['t'], 2)
  else if codepoint = 0x0A then (backslash :: ascii ['n'], 2)
  else if codepoint = 0x0C then (backslash :: ascii ['f'], 2)
  else if codepoint = 0x0D then (backslash :: ascii ['r'], 2)
  else if codepoint = 0x22 then ([backslash, quote], 2)
  else if codepoint = 0x5C then ([backslash, backslash], 2)
  else if codepoint ≤ 0x1F then (unicodeEscape codepoint.toNat, 7)
  else ([byte], 1)

/-- The locals of `dump_escaped`. `buffer` is `string_buffer` up to `bytes`, `written`
what the output adapter has been given. -/
structure DumpState where
  written : List UInt8 := []
  buffer : List UInt8 := []
  state : UInt8 := utf8Accept
  codepoint : UInt32 := 0
deriving DecidableEq, Repr

def put (buffer bs : List UInt8) (room : Nat) : Except DumpError (List UInt8) :=
  if buffer.length + room ≤ stringBufferSize then .ok (buffer ++ bs) else .error .overrun

/-- One round of the loop over the bytes. -/
def dumpByte (i : Nat) (st : DumpState) (byte : UInt8) : Except DumpError DumpState :=
  let (state, codepoint) := decode st.state st.codepoint byte
  if state = utf8Accept then do
    let (bs, room) := accepted codepoint byte
    let buffer ← put st.buffer bs room
    if stringBufferSize - buffer.length < 13 then
      .ok { written := st.written ++ buffer, buffer := [], state, codepoint }
    else .ok { st with buffer, state, codepoint }
  else if state = utf8Reject then .error (.invalidByte i byte)
  else do
    let buffer ← put st.buffer [byte] 1
    .ok { st with buffer, state, codepoint }

def dumpBytes : Nat → DumpState → List UInt8 → Except DumpError DumpState
  | _, st, [] => .ok st
  | i, st, byte :: rest => do dumpBytes (i + 1) (← dumpByte i st byte) rest

def dumpEscaped (s : List UInt8) : Except DumpError (List UInt8) := do
  let st ← dumpBytes 0 {} s
  if st.state = utf8Accept then .ok (st.written ++ st.buffer)
  else .error (.incomplete (s.getLastD 0))

/-! ### The machine and the table -/

section
open Utf8

/-- The ranges of the bytes a state still waits for; `utf8Reject` waits for none. -/
def owed (state : Nat) : Option (List Range) :=
  match state with
  | 0 => some []
  | 2 => some [tail]
  | 3 => some [tail, tail]
  | 4 => some [(0xA0, 0xBF), tail]
  | 5 => some [(0x80, 0x9F), tail]
  | 6 => some [(0x90, 0xBF), tail, tail]
  | 7 => some [tail, tail, tail]
  | 8 => some [(0x80, 0x8F), tail, tail]
  | _ => none

/-- What is owed behind one more byte. -/
def owedAfter (byte : UInt8) : List Range → Option (List Range)
  | [] => follow byte
  | r :: rs => if r.Has byte then some rs else none

/-- The ranges that can be owed next. -/
def seconds : List Range := [tail, (0xA0, 0xBF), (0x80, 0x9F), (0x90, 0xBF), (0x80, 0x8F)]

/-- A byte of each class. -/
def classByte (type : Nat) : UInt8 :=
  [0x00, 0x80, 0xC2, 0xE1, 0xED, 0xF4, 0xF1, 0xA0, 0xC0, 0x90, 0xE0, 0xF0].getD type 0

/-- The first rows of `utf8d`: the bytes of a class begin the same sequences and lie in the
same ranges. -/
theorem class_rows : ∀ p ∈ (utf8d.take 256).zipIdx, p.1.toNat < 12 ∧
    follow (UInt8.ofNat p.2) = follow (classByte p.1.toNat) ∧
    ∀ r ∈ seconds, r.Has (UInt8.ofNat p.2) ↔ r.Has (classByte p.1.toNat) := by
  decide +kernel

/-- The other rows of `utf8d`: a state owes less behind a byte of what it owes. -/
theorem state_rows : ∀ p ∈ (utf8d.drop 256).zipIdx, p.2 % 16 < 12 → p.1.toNat < 9 ∧
    ∀ ranges ∈ owed (p.2 / 16),
      owed p.1.toNat = owedAfter (classByte (p.2 % 16)) ranges := by
  decide +kernel

/-- A first byte is stripped of its mark. -/
theorem mask_rows : ∀ p ∈ (utf8d.take 256).zipIdx, ∀ ranges ∈ follow (UInt8.ofNat p.2),
    (((0xFF : UInt32) >>> p.1.toUInt32) &&& (UInt8.ofNat p.2).toUInt32).toNat =
      p.2 - mark ranges.length := by
  decide +kernel

theorem utf8d_length : utf8d.length = 400 := by
  decide +kernel

theorem class_row (byte : UInt8) :
    (utf8d.getD byte.toNat 0, byte.toNat) ∈ (utf8d.take 256).zipIdx := by
  have hbyte := byte.toNat_lt
  rw [List.mem_zipIdx_iff_getElem?, List.getElem?_take_of_lt hbyte,
    List.getD_eq_getElem?_getD]
  have hlt : byte.toNat < utf8d.length := by rw [utf8d_length]; omega
  rw [List.getElem?_eq_getElem hlt]
  rfl

theorem state_row {i : Nat} (h : i < 144) :
    (utf8d.getD (256 + i) utf8Reject, i) ∈ (utf8d.drop 256).zipIdx := by
  rw [List.mem_zipIdx_iff_getElem?, List.getElem?_drop, List.getD_eq_getElem?_getD]
  have hlt : 256 + i < utf8d.length := by rw [utf8d_length]; omega
  rw [List.getElem?_eq_getElem hlt]
  rfl

theorem owed_head {state : Nat} {ranges : List Range} (h : ranges ∈ owed state) :
    state < 9 ∧ ∀ r rs, ranges = r :: rs → r ∈ seconds := by
  unfold owed at h
  split at h <;> cases h <;> simp [seconds]

theorem owedAfter_class {byte : UInt8} {ranges : List Range}
    (h : ∀ r rs, ranges = r :: rs → r ∈ seconds) :
    owedAfter byte ranges = owedAfter (classByte (utf8d.getD byte.toNat 0).toNat) ranges := by
  obtain ⟨-, hfollow, hranges⟩ := class_rows _ (class_row byte)
  rw [UInt8.ofNat_toNat] at hfollow
  cases ranges with
  | nil => exact hfollow
  | cons r rs =>
    have hhas := hranges r (h r rs rfl)
    rw [UInt8.ofNat_toNat] at hhas
    simp only [owedAfter, hhas]

/-- `decode` goes by the table of well-formed sequences. -/
theorem decode_owed {state : UInt8} {ranges : List Range} (h : owed state.toNat = some ranges)
    (codep : UInt32) (byte : UInt8) :
    owed (decode state codep byte).1.toNat = owedAfter byte ranges ∧
      (decode state codep byte).1.toNat < 9 := by
  obtain ⟨hstate, hhead⟩ := owed_head h
  have htype : (utf8d.getD byte.toNat 0).toNat < 12 := (class_rows _ (class_row byte)).1
  have hrow := state_rows _ (state_row
    (i := state.toNat * 16 + (utf8d.getD byte.toNat 0).toNat) (by omega))
    (by dsimp only; omega)
  have hindex : (state.toNat * 16 + (utf8d.getD byte.toNat 0).toNat) / 16 = state.toNat := by omega
  have hclass : (state.toNat * 16 + (utf8d.getD byte.toNat 0).toNat) % 16 =
      (utf8d.getD byte.toNat 0).toNat := by omega
  dsimp only at hrow
  rw [hindex, hclass, ← Nat.add_assoc] at hrow
  rw [owedAfter_class hhead]
  exact ⟨hrow.2 ranges h, hrow.1⟩

theorem decode_lead {codep : UInt32} {byte : UInt8} {ranges : List Range}
    (h : follow byte = some ranges) :
    (decode utf8Accept codep byte).2.toNat = byte.toNat - mark ranges.length := by
  have hrow := mask_rows _ (class_row byte) ranges
  rw [UInt8.ofNat_toNat] at hrow
  exact hrow h

theorem decode_tail {state : UInt8} {codep : UInt32} {byte : UInt8} (hstate : state ≠ utf8Accept)
    (hcodep : codep.toNat < 0x4000000) :
    (decode state codep byte).2.toNat = push codep.toNat byte := by
  have hlow : (byte &&& 0x3F).toNat = byte.toNat % 64 := by
    rw [UInt8.toNat_and]
    exact Nat.and_two_pow_sub_one_eq_mod byte.toNat 6
  have hhigh : (codep <<< 6).toNat = codep.toNat <<< 6 := by
    rw [UInt32.toNat_shiftLeft]
    exact Nat.mod_eq_of_lt (show codep.toNat <<< 6 < 2 ^ 32 by rw [Nat.shiftLeft_eq]; omega)
  rw [decode, if_pos hstate, UInt32.toNat_or, UInt8.toNat_toUInt32, hlow, hhigh, Nat.or_comm,
    shiftLeft_or codep.toNat (k := 6) (by omega), push]
  rfl

theorem state_rows_of_owed : ∀ state < 9,
    (owed state = some [] → UInt8.ofNat state = utf8Accept) ∧
    (owed state = none → UInt8.ofNat state = utf8Reject) ∧
    ((owed state).getD [] ≠ [] →
      UInt8.ofNat state ≠ utf8Accept ∧ UInt8.ofNat state ≠ utf8Reject) := by
  decide

/-- `utf8Accept` owes nothing, and `utf8Reject` is the state without a way on. -/
theorem state_of_owed {state : UInt8} {ranges : Option (List Range)}
    (h : owed state.toNat = ranges ∧ state.toNat < 9) :
    (ranges = some [] → state = utf8Accept) ∧ (ranges = none → state = utf8Reject) ∧
    (ranges.getD [] ≠ [] → state ≠ utf8Accept ∧ state ≠ utf8Reject) := by
  obtain ⟨rfl, hlt⟩ := h
  have hrow := state_rows_of_owed _ hlt
  rwa [UInt8.ofNat_toNat] at hrow

end

/-! ### One character -/

/-- The letter behind the backslash of a short escape. -/
def shorthand : Nat → Option UInt8
  | 0x08 => some 0x62
  | 0x09 => some 0x74
  | 0x0A => some 0x6E
  | 0x0C => some 0x66
  | 0x0D => some 0x72
  | 0x22 => some quote
  | 0x5C => some backslash
  | _ => none

/-- The text of a character inside a string. -/
def escape (c : Char) : List UInt8 :=
  match shorthand c.val.toNat with
  | some letter => [backslash, letter]
  | none => if c.val.toNat < 0x20 then unicodeEscape c.val.toNat else String.utf8EncodeChar c

/-- What `dump_escaped` has written so far. -/
def DumpState.text (st : DumpState) : List UInt8 := st.written ++ st.buffer

/-- Between two characters there is room for the longest escape. -/
structure DumpState.Ready (st : DumpState) : Prop where
  state : st.state = utf8Accept
  room : st.buffer.length ≤ stringBufferSize - 13

theorem accepted_ascii : ∀ v < 128,
    (accepted (UInt32.ofNat v) (UInt8.ofNat v)).2 ≤ 7 ∧
    (accepted (UInt32.ofNat v) (UInt8.ofNat v)).1.length ≤
      (accepted (UInt32.ofNat v) (UInt8.ofNat v)).2 ∧
    (accepted (UInt32.ofNat v) (UInt8.ofNat v)).1 =
      match shorthand v with
      | some letter => [backslash, letter]
      | none => if v < 0x20 then unicodeEscape v else [UInt8.ofNat v] := by
  decide +kernel

theorem accepted_of_ge {codepoint : UInt32} (byte : UInt8) (h : 0x80 ≤ codepoint.toNat) :
    accepted codepoint byte = ([byte], 1) := by
  have hne {k : UInt32} (hk : k.toNat < 0x80) : codepoint ≠ k := by
    rintro rfl
    omega
  have hnle : ¬ codepoint ≤ 0x1F := by
    rw [UInt32.le_iff_toNat_le]
    exact Nat.not_le.mpr (Nat.lt_of_lt_of_le (by decide) h)
  rw [accepted, if_neg (hne (by decide)), if_neg (hne (by decide)), if_neg (hne (by decide)),
    if_neg (hne (by decide)), if_neg (hne (by decide)), if_neg (hne (by decide)),
    if_neg (hne (by decide)), if_neg hnle]

theorem escape_of_ge {c : Char} (h : 0x80 ≤ c.val.toNat) :
    escape c = String.utf8EncodeChar c := by
  have hshort : shorthand c.val.toNat = none := by
    unfold shorthand
    split <;> first | omega | rfl
  rw [escape, hshort]
  exact if_neg (by omega)

theorem put_ok {buffer bs : List UInt8} {room : Nat}
    (h : buffer.length + room ≤ stringBufferSize) : put buffer bs room = .ok (buffer ++ bs) :=
  if_pos h

/-- The round that ends a character leaves room for the next one. -/
theorem dumpByte_accept {st : DumpState} {byte : UInt8} (i : Nat)
    (hstate : (decode st.state st.codepoint byte).1 = utf8Accept)
    (hroom : st.buffer.length + (accepted (decode st.state st.codepoint byte).2 byte).2 ≤
      stringBufferSize) :
    ∃ t, dumpByte i st byte = .ok t ∧ t.Ready ∧
      t.text = st.text ++ (accepted (decode st.state st.codepoint byte).2 byte).1 := by
  generalize haccepted : accepted (decode st.state st.codepoint byte).2 byte = bs at hroom
  simp only [dumpByte, hstate, if_true, haccepted, put_ok hroom]
  by_cases hflush : stringBufferSize - (st.buffer ++ bs.1).length < 13
  · refine ⟨_, if_pos hflush, ⟨rfl, Nat.zero_le _⟩, ?_⟩
    simp [DumpState.text]
  · refine ⟨_, if_neg hflush, ⟨rfl, ?_⟩, ?_⟩
    · dsimp only
      omega
    · simp [DumpState.text]

/-- The locals behind a byte that does not end a character. -/
def DumpState.copied (st : DumpState) (byte : UInt8) : DumpState :=
  { st with
    buffer := st.buffer ++ [byte]
    state := (decode st.state st.codepoint byte).1
    codepoint := (decode st.state st.codepoint byte).2 }

theorem DumpState.copied_text (st : DumpState) (byte : UInt8) :
    (st.copied byte).text = st.text ++ [byte] := by
  simp [text, copied]

theorem DumpState.copied_length (st : DumpState) (byte : UInt8) :
    (st.copied byte).buffer.length = st.buffer.length + 1 := by
  simp [copied]

/-- A round inside a character copies the byte. -/
theorem dumpByte_owed {st : DumpState} {byte : UInt8} (i : Nat)
    (haccept : (decode st.state st.codepoint byte).1 ≠ utf8Accept)
    (hreject : (decode st.state st.codepoint byte).1 ≠ utf8Reject)
    (hroom : st.buffer.length + 1 ≤ stringBufferSize) :
    dumpByte i st byte = .ok (st.copied byte) := by
  simp only [dumpByte, if_neg haccept, if_neg hreject, put_ok hroom]
  rfl

theorem le_foldl_push (rest : List UInt8) (k : Nat) : k ≤ rest.foldl Utf8.push k := by
  induction rest generalizing k with
  | nil => exact Nat.le_refl k
  | cons byte rest ih =>
    have hpush : k ≤ Utf8.push k byte := by
      unfold Utf8.push
      omega
    exact hpush.trans (ih _)

/-- Behind the first byte of a longer sequence the other bytes are copied as they are. -/
theorem dumpBytes_rest {ranges : List Utf8.Range} {rest : List UInt8} (t : List UInt8)
    (hrest : List.Forall₂ Utf8.Range.Has ranges rest) (hne : ranges ≠ []) (i : Nat)
    {st : DumpState} (howed : owed st.state.toNat = some ranges)
    (hlow : 0x80 ≤ rest.foldl Utf8.push st.codepoint.toNat)
    (hhigh : rest.foldl Utf8.push st.codepoint.toNat < 0x110000)
    (hroom : st.buffer.length + rest.length ≤ stringBufferSize) :
    ∃ u, dumpBytes i st (rest ++ t) = dumpBytes (i + rest.length) u t ∧ u.Ready ∧
      u.text = st.text ++ rest := by
  induction hrest generalizing i st with
  | nil => exact absurd rfl hne
  | @cons r byte ranges rest hbyte hrest ih =>
    rw [List.foldl_cons] at hlow hhigh
    rw [List.length_cons] at hroom
    have hnext := decode_owed howed st.codepoint byte
    rw [owedAfter, if_pos hbyte] at hnext
    obtain ⟨hdone, -, hmore⟩ := state_of_owed hnext
    have hstate : st.state ≠ utf8Accept := by
      rintro heq
      rw [heq] at howed
      cases howed
    have hcodep : (decode st.state st.codepoint byte).2.toNat =
        Utf8.push st.codepoint.toNat byte := by
      refine decode_tail hstate ?_
      have hle : st.codepoint.toNat * 64 + byte.toNat % 64 ≤
          rest.foldl Utf8.push (Utf8.push st.codepoint.toNat byte) := le_foldl_push rest _
      omega
    cases hrest with
    | nil =>
      have hlarge : 0x80 ≤ (decode st.state st.codepoint byte).2.toNat := hcodep ▸ hlow
      have haccepted := accepted_of_ge byte hlarge
      obtain ⟨u, hround, hready, htext⟩ :=
        dumpByte_accept i (hdone rfl) (by rw [haccepted]; exact hroom)
      rw [haccepted] at htext
      refine ⟨u, ?_, hready, htext⟩
      rw [List.singleton_append, dumpBytes, hround]
      rfl
    | cons hsecond hrest =>
      obtain ⟨haccept, hreject⟩ := hmore (List.cons_ne_nil _ _)
      have hround : dumpByte i st byte = .ok (st.copied byte) :=
        dumpByte_owed i haccept hreject (by omega)
      have hstate' : (st.copied byte).codepoint.toNat = Utf8.push st.codepoint.toNat byte := hcodep
      have hlength := st.copied_length byte
      obtain ⟨u, hu, hready, htext⟩ := ih (List.cons_ne_nil _ _) (i + 1) hnext.1
        (by rw [hstate']; exact hlow) (by rw [hstate']; exact hhigh)
        (by simp only [List.length_cons] at hroom ⊢; omega)
      refine ⟨u, ?_, hready, ?_⟩
      · rw [List.cons_append, dumpBytes, hround]
        refine Eq.trans hu ?_
        congr 1
        simp only [List.length_cons]
        omega
      · rw [htext, st.copied_text, List.append_assoc, List.singleton_append]

theorem lt_of_encode {c : Char} {lead byte : UInt8} {rest : List UInt8}
    (h : String.utf8EncodeChar c = lead :: byte :: rest) : 0x80 ≤ c.val.toNat := by
  by_contra hlt
  rw [String.utf8EncodeChar, if_pos (by omega)] at h
  cases h

/-- One character is written as its `escape`. -/
theorem dumpBytes_char (c : Char) (t : List UInt8) (i : Nat) {st : DumpState} (hst : st.Ready) :
    ∃ u j, dumpBytes i st (String.utf8EncodeChar c ++ t) = dumpBytes j u t ∧ u.Ready ∧
      u.text = st.text ++ escape c := by
  obtain ⟨lead, rest, hencode, ⟨ranges, hfollow, hrest⟩, hcode⟩ := Utf8.encode_follows c
  obtain ⟨hstate, hroom⟩ := hst
  have hroom : st.buffer.length ≤ 499 := hroom
  have hbetween : owed st.state.toNat = some [] := by rw [hstate]; rfl
  have howed := decode_owed hbetween st.codepoint lead
  rw [owedAfter, hfollow] at howed
  obtain ⟨hdone, -, hmore⟩ := state_of_owed howed
  have hlead : (decode st.state st.codepoint lead).2.toNat =
      lead.toNat - Utf8.mark ranges.length := by
    rw [hstate]
    exact decode_lead hfollow
  rw [hencode, List.cons_append, dumpBytes]
  cases hrest with
  | nil =>
    have hval : lead.toNat = c.val.toNat := hcode
    have hascii : c.val.toNat < 128 := by
      rcases Utf8.follow_cases hfollow with ⟨hone, -⟩ | ⟨-, -, hnil⟩ | ⟨-, -, hnil⟩ | ⟨-, -, hnil⟩
      · omega
      · cases hnil
      · cases hnil
      · cases hnil
    obtain ⟨hseven, -, hescape⟩ := accepted_ascii _ hascii
    have hcodepoint : (decode st.state st.codepoint lead).2 = UInt32.ofNat c.val.toNat := by
      rw [← hval, ← UInt32.toNat_inj, hlead, UInt32.toNat_ofNat']
      have hlt := lead.toNat_lt
      exact (Nat.mod_eq_of_lt (by omega)).symm
    have hbyte : lead = UInt8.ofNat c.val.toNat := by rw [← hval, UInt8.ofNat_toNat]
    rw [← hbyte, ← hcodepoint] at hseven hescape
    obtain ⟨u, hround, hready, htext⟩ := dumpByte_accept i (hdone rfl)
      (Nat.le_trans (Nat.add_le_add hroom hseven) (by decide))
    refine ⟨u, i + 1, by rw [hround]; rfl, hready, ?_⟩
    rw [htext, hescape, escape, hencode]
  | @cons r byte ranges rest hsecond hrest =>
    have hlarge := lt_of_encode hencode
    have hvalid : c.val.toNat < 0xD800 ∨ 0xDFFF < c.val.toNat ∧ c.val.toNat < 0x110000 := c.valid
    have hlength : rest.length ≤ 2 := by
      rw [← hrest.length_eq]
      rcases Utf8.follow_cases hfollow with ⟨-, hnil⟩ | ⟨-, -, hnil⟩ | ⟨-, -, hnil⟩ | ⟨-, -, hnil⟩
      all_goals cases hnil <;> decide
    obtain ⟨haccept, hreject⟩ := hmore (List.cons_ne_nil _ _)
    have hround : dumpByte i st lead = .ok (st.copied lead) := dumpByte_owed i haccept hreject
      (Nat.le_trans (Nat.add_le_add_right hroom 1) (by decide))
    have hfold : (byte :: rest).foldl Utf8.push (st.copied lead).codepoint.toNat = c.val.toNat := by
      have hcodepoint : (st.copied lead).codepoint.toNat =
          lead.toNat - Utf8.mark ranges.length.succ := hlead
      rw [hcodepoint, ← hcode, Utf8.code, (List.Forall₂.cons hsecond hrest).length_eq.symm]
      rfl
    have hbuffer := st.copied_length lead
    obtain ⟨u, hu, hready, htext⟩ := dumpBytes_rest t (.cons hsecond hrest) (List.cons_ne_nil _ _)
      (i + 1) howed.1 (by rw [hfold]; exact hlarge) (by rw [hfold]; omega)
      (by simp only [List.length_cons, stringBufferSize]; omega)
    refine ⟨u, _, by rw [hround]; exact hu, hready, ?_⟩
    rw [htext, escape_of_ge hlarge, hencode, st.copied_text, List.append_assoc,
      List.singleton_append]

/-! ### Whole strings -/

theorem dumpBytes_chars (cs : List Char) (i : Nat) {st : DumpState} (hst : st.Ready) :
    ∃ u, dumpBytes i st (cs.flatMap String.utf8EncodeChar) = .ok u ∧ u.Ready ∧
      u.text = st.text ++ cs.flatMap escape := by
  induction cs generalizing i st with
  | nil => exact ⟨st, rfl, hst, by simp⟩
  | cons c cs ih =>
    obtain ⟨u, j, hu, hready, htext⟩ :=
      dumpBytes_char c (cs.flatMap String.utf8EncodeChar) i hst
    obtain ⟨v, hv, hready', htext'⟩ := ih j hready
    refine ⟨v, ?_, hready', ?_⟩
    · rw [List.flatMap_cons, hu, hv]
    · rw [htext', htext, List.flatMap_cons, List.append_assoc]

theorem dumpEscaped_utf8 (t : String) :
    dumpEscaped (Text.utf8 t) = .ok (t.toList.flatMap escape) := by
  obtain ⟨u, hu, hready, htext⟩ := @dumpBytes_chars t.toList 0 {} ⟨rfl, Nat.zero_le _⟩
  simp only [dumpEscaped, Text.utf8, hu]
  refine Eq.trans (if_pos hready.state) ?_
  exact congrArg Except.ok htext

/-- In the middle of a string there is room for what the state still owes, and then for
the longest escape. -/
structure DumpState.Owes (st : DumpState) (ranges : List Utf8.Range) : Prop where
  state : owed st.state.toNat = some ranges
  room : st.buffer.length + ranges.length ≤ stringBufferSize - 9
  between : ranges = [] → st.buffer.length ≤ stringBufferSize - 13

theorem accepted_room (codepoint : UInt32) (byte : UInt8) :
    (accepted codepoint byte).2 ≤ 7 := by
  unfold accepted
  repeat' split
  all_goals simp

theorem follow_length {lead : UInt8} {ranges : List Utf8.Range}
    (h : Utf8.follow lead = some ranges) : ranges.length ≤ 3 := by
  rcases Utf8.follow_cases h with ⟨-, rfl⟩ | ⟨-, -, rfl⟩ | ⟨-, -, rfl⟩ | ⟨-, -, rfl⟩
  all_goals simp

/-- A round goes on while the bytes go by the table, and raises where they stop to. -/
theorem dumpByte_cases {st : DumpState} {ranges : List Utf8.Range} (hst : st.Owes ranges)
    (i : Nat) (byte : UInt8) :
    (∃ next t, owedAfter byte ranges = some next ∧ dumpByte i st byte = .ok t ∧ t.Owes next) ∨
    (owedAfter byte ranges = none ∧ dumpByte i st byte = .error (.invalidByte i byte)) := by
  have hroom : st.buffer.length + ranges.length ≤ 503 := hst.room
  have hbetween : ranges = [] → st.buffer.length ≤ 499 := hst.between
  have hnext := decode_owed hst.state st.codepoint byte
  obtain ⟨hdone, hreject, hmore⟩ := state_of_owed hnext
  have hlength {next : List Utf8.Range} (h : owedAfter byte ranges = some next) :
      st.buffer.length + 1 + next.length ≤ 503 := by
    cases ranges with
    | nil =>
      have hfollow := follow_length h
      have := hbetween rfl
      omega
    | cons r rs =>
      obtain ⟨-, heq⟩ := Option.ite_none_right_eq_some.mp h
      obtain rfl := Option.some.inj heq
      rw [List.length_cons] at hroom
      omega
  cases hafter : owedAfter byte ranges with
  | none =>
    refine .inr ⟨rfl, ?_⟩
    simp only [dumpByte, hreject hafter]
    rfl
  | some next =>
    have hlength := hlength hafter
    refine .inl ⟨next, ?_⟩
    cases next with
    | nil =>
      have hseven := accepted_room (decode st.state st.codepoint byte).2 byte
      obtain ⟨t, hround, hready, -⟩ := dumpByte_accept i (hdone hafter)
        (by simp only [List.length_nil, stringBufferSize] at hlength ⊢; omega)
      have hbuffer := hready.room
      refine ⟨t, rfl, hround, ⟨by rw [hready.state]; rfl, ?_, fun _ => hbuffer⟩⟩
      exact Nat.le_trans hbuffer (by decide)
    | cons r rs =>
      obtain ⟨haccept, hreject⟩ := hmore (by simp [hafter])
      have hone : st.buffer.length + 1 ≤ stringBufferSize := by
        simp only [stringBufferSize]
        omega
      refine ⟨_, rfl, dumpByte_owed i haccept hreject hone, ⟨hnext.1.trans hafter, ?_, ?_⟩⟩
      · rw [st.copied_length]
        exact hlength
      · exact fun h => absurd h (List.cons_ne_nil _ _)

/-- What the loop has read completes the sequence under way and goes on in UTF-8, when it
ends between two characters. -/
theorem dumpBytes_cases (s : List UInt8) (i : Nat) {st : DumpState} {ranges : List Utf8.Range}
    (hst : st.Owes ranges) :
    (∃ t next, dumpBytes i st s = .ok t ∧ t.Owes next ∧ (next = [] →
      ∃ rest u, s = rest ++ u ∧ List.Forall₂ Utf8.Range.Has ranges rest ∧ Utf8.WellFormed u)) ∨
    (∃ j byte, dumpBytes i st s = .error (.invalidByte j byte)) := by
  induction s generalizing i st ranges with
  | nil =>
    refine .inl ⟨st, ranges, rfl, hst, ?_⟩
    rintro rfl
    exact ⟨[], [], rfl, .nil, Utf8.wellFormed_nil⟩
  | cons byte s ih =>
    rcases dumpByte_cases hst i byte with ⟨next, t, hafter, hround, ht⟩ | ⟨-, hround⟩
    · rw [dumpBytes, hround]
      rcases ih (i + 1) ht with ⟨u, last, hu, howes, hread⟩ | herror
      · refine .inl ⟨u, last, hu, howes, fun hlast => ?_⟩
        obtain ⟨rest, v, rfl, hrest, hv⟩ := hread hlast
        cases ranges with
        | nil =>
          have hutf8 : Utf8.WellFormed (byte :: (rest ++ v)) :=
            Utf8.wellFormed_cons_iff.mpr ⟨rest, v, rfl, ⟨next, hafter, hrest⟩, hv⟩
          exact ⟨[], _, rfl, .nil, hutf8⟩
        | cons r rs =>
          obtain ⟨hhas, heq⟩ := Option.ite_none_right_eq_some.mp hafter
          obtain rfl := Option.some.inj heq
          exact ⟨byte :: rest, v, rfl, .cons hhas hrest, hv⟩
      · exact .inr herror
    · exact .inr ⟨i, byte, by rw [dumpBytes, hround]; rfl⟩

theorem dumpEscaped_cases (s : List UInt8) :
    (∃ t : String, Text.utf8 t = s ∧ dumpEscaped s = .ok (t.toList.flatMap escape)) ∨
    (¬ Utf8.WellFormed s ∧ ∃ e, dumpEscaped s = .error e ∧ e ≠ .overrun) := by
  by_cases hutf8 : Utf8.WellFormed s
  · obtain ⟨t, rfl⟩ := hutf8
    exact .inl ⟨t, rfl, dumpEscaped_utf8 t⟩
  · refine .inr ⟨hutf8, ?_⟩
    have hstart : DumpState.Owes {} [] := ⟨rfl, by decide, fun _ => by decide⟩
    rcases dumpBytes_cases s 0 hstart with
      ⟨t, next, hread, howes, hwhole⟩ | ⟨j, byte, herror⟩
    · have hstate : t.state ≠ utf8Accept := by
        intro heq
        have hnext := howes.state
        rw [heq] at hnext
        obtain ⟨rest, u, rfl, hrest, hu⟩ := hwhole (Option.some.inj hnext).symm
        cases hrest
        exact hutf8 hu
      refine ⟨.incomplete (s.getLastD 0), ?_, by simp⟩
      simp only [dumpEscaped, hread]
      exact if_neg hstate
    · refine ⟨.invalidByte j byte, ?_, by simp⟩
      simp only [dumpEscaped, herror]
      rfl

theorem dumpEscaped_ne_overrun (s : List UInt8) : dumpEscaped s ≠ .error .overrun := by
  rcases dumpEscaped_cases s with ⟨t, -, hdump⟩ | ⟨-, e, hdump, hne⟩
  · rw [hdump]
    exact nofun
  · rw [hdump]
    exact fun heq => hne (Except.error.inj heq)

/-- `dump_escaped` returns on UTF-8 only, with one `escape` for each character. -/
theorem dumpEscaped_eq_ok_iff {s out : List UInt8} :
    dumpEscaped s = .ok out ↔
      ∃ t : String, Text.utf8 t = s ∧ t.toList.flatMap escape = out := by
  constructor
  · intro h
    rcases dumpEscaped_cases s with ⟨t, ht, hdump⟩ | ⟨-, e, hdump, -⟩
    · exact ⟨t, ht, Except.ok.inj (hdump.symm.trans h)⟩
    · rw [hdump] at h
      cases h
  · rintro ⟨t, rfl, rfl⟩
    exact dumpEscaped_utf8 t

/-! ## Integers -/

/-- `digits_to_99`. -/
def digitsTo99 (n : Nat) : List UInt8 := [UInt8.ofNat (0x30 + n / 10), UInt8.ofNat (0x30 + n % 10)]

/-- `count_digits`. -/
def countDigits (x : Nat) : Nat :=
  if x < 10 then 1
  else if x < 100 then 2
  else if x < 1000 then 3
  else if x < 10000 then 4
  else countDigits (x / 10000) + 4

/-- The loop that fills `number_buffer` from the back, down to `buffer_ptr`. -/
def fillDigits (absValue bufferPtr : Nat) (numberBuffer : Mem) : Mem :=
  if 100 ≤ absValue then
    fillDigits (absValue / 100) (bufferPtr - 2)
      (write numberBuffer (bufferPtr - 2) (digitsTo99 (absValue % 100)))
  else if 10 ≤ absValue then write numberBuffer (bufferPtr - 2) (digitsTo99 absValue)
  else write numberBuffer (bufferPtr - 1) [UInt8.ofNat (0x30 + absValue)]
termination_by absValue

/-- `dump_integer` on an unsigned number; `numberBuffer` is what the last number left. -/
def dumpUnsigned (numberBuffer : Mem) (x : UInt64) : List UInt8 :=
  if x = 0 then ascii ['0']
  else slice (fillDigits x.toNat (countDigits x.toNat) numberBuffer) 0 (countDigits x.toNat)

/-- `remove_sign`: the absolute value of a negative number. -/
def removeSign (x : Int64) : UInt64 := (-(x + 1)).toUInt64 + 1

/-- `dump_integer` on a signed number. -/
def dumpSigned (numberBuffer : Mem) (x : Int64) : List UInt8 :=
  if x < 0 then
    let absValue := (removeSign x).toNat
    let nChars := 1 + countDigits absValue
    slice (fillDigits absValue nChars (write numberBuffer 0 (ascii ['-']))) 0 nChars
  else dumpUnsigned numberBuffer x.toUInt64

/-- The decimal digits of a number. -/
def decimal (n : Nat) : List UInt8 :=
  if n = 0 then ascii ['0'] else (Nat.digits 10 n).reverse.map fun d => UInt8.ofNat (0x30 + d)

theorem decimal_of_lt_ten {n : Nat} (h : n < 10) : decimal n = [UInt8.ofNat (0x30 + n)] := by
  unfold decimal
  split
  · next hzero => rw [hzero]; rfl
  · next hzero => rw [Nat.digits_of_lt 10 n hzero h]; rfl

theorem decimal_of_ge_ten {n : Nat} (h : 10 ≤ n) :
    decimal n = decimal (n / 10) ++ [UInt8.ofNat (0x30 + n % 10)] := by
  rw [decimal, decimal, if_neg (by omega), if_neg (by omega),
    Nat.digits_def' (by decide) (by omega), List.reverse_cons, List.map_append]
  rfl

theorem decimal_of_lt_hundred {n : Nat} (hten : 10 ≤ n) (h : n < 100) :
    decimal n = digitsTo99 n := by
  rw [decimal_of_ge_ten hten, decimal_of_lt_ten (by omega)]
  rfl

theorem decimal_of_ge_hundred {n : Nat} (h : 100 ≤ n) :
    decimal n = decimal (n / 100) ++ digitsTo99 (n % 100) := by
  have htens : n / 10 % 10 = n % 100 / 10 := by omega
  have hones : n % 10 = n % 100 % 10 := by omega
  rw [decimal_of_ge_ten (by omega), decimal_of_ge_ten (by omega), Nat.div_div_eq_div_mul,
    List.append_assoc, htens, hones]
  rfl

theorem countDigits_eq (n : Nat) : countDigits n = (decimal n).length := by
  induction n using Nat.strongRecOn with
  | ind n ih =>
    unfold countDigits
    split
    · next h => rw [decimal_of_lt_ten h]; rfl
    split
    · next hten h => rw [decimal_of_lt_hundred (by omega) h]; rfl
    split
    · next hhundred h =>
      rw [decimal_of_ge_hundred (by omega), decimal_of_lt_ten (by omega)]
      rfl
    split
    · next hthousand h =>
      rw [decimal_of_ge_hundred (by omega), decimal_of_lt_hundred (by omega) (by omega)]
      rfl
    · next hmore =>
      rw [ih (n / 10000) (by omega), decimal_of_ge_hundred (n := n) (by omega),
        decimal_of_ge_hundred (n := n / 100) (by omega), Nat.div_div_eq_div_mul]
      simp only [List.length_append]
      rfl

/-- A write in front of a slice makes it longer. -/
theorem slice_write_front (m : Mem) {off : Nat} (bs : List UInt8) (h : bs.length ≤ off) (n : Nat) :
    slice (write m (off - bs.length) bs) (off - bs.length) (bs.length + n) =
      bs ++ slice m off n := by
  rw [slice_append, slice_write, Nat.sub_add_cancel h]
  congr 1
  refine List.map_congr_left fun i hi => write_of_not_mem (.inr ?_)
  have hle := (List.mem_range'_1.mp hi).1
  omega

/-- The digits end up in front of what stood behind the pointer, and nothing below them
is touched. -/
theorem fillDigits_spec {n : Nat} {ptr : Nat} (m : Mem) (h : (decimal n).length ≤ ptr) (k : Nat) :
    slice (fillDigits n ptr m) (ptr - (decimal n).length) ((decimal n).length + k) =
      decimal n ++ slice m ptr k ∧
    ∀ i < ptr - (decimal n).length, fillDigits n ptr m i = m i := by
  induction n using Nat.strongRecOn generalizing ptr m k with
  | ind n ih =>
    unfold fillDigits
    split
    · next hhundred =>
      have hdecimal := decimal_of_ge_hundred hhundred
      have hlength : (decimal n).length = (decimal (n / 100)).length + 2 := by
        rw [hdecimal, List.length_append]
        rfl
      have hshorter : (decimal (n / 100)).length ≤ ptr - 2 := by omega
      obtain ⟨hslice, hbelow⟩ := ih (n / 100) (by omega)
        (write m (ptr - 2) (digitsTo99 (n % 100))) hshorter (2 + k)
      have htwo : (digitsTo99 (n % 100)).length ≤ ptr := show 2 ≤ ptr by omega
      have hfront := slice_write_front m (digitsTo99 (n % 100)) htwo k
      have hptr : ptr - (decimal n).length = ptr - 2 - (decimal (n / 100)).length := by omega
      constructor
      · rw [hptr, hlength, Nat.add_assoc, hslice, hdecimal, List.append_assoc]
        exact congrArg _ hfront
      · intro i hi
        rw [hbelow i (by omega)]
        exact write_of_not_mem (.inl (by omega))
    · next hhundred =>
      split
      · next hten =>
        rw [decimal_of_lt_hundred hten (by omega)] at h ⊢
        exact ⟨slice_write_front m _ h k, fun i hi => write_of_not_mem (.inl hi)⟩
      · next hten =>
        rw [decimal_of_lt_ten (by omega)] at h ⊢
        exact ⟨slice_write_front m _ h k, fun i hi => write_of_not_mem (.inl hi)⟩

theorem dumpUnsigned_eq (m : Mem) (x : UInt64) : dumpUnsigned m x = decimal x.toNat := by
  unfold dumpUnsigned
  split
  · next h => rw [h]; rfl
  · next h =>
    have hslice := (fillDigits_spec (n := x.toNat) m (Nat.le_refl _) 0).1
    rw [countDigits_eq]
    simpa using hslice

/-- The sign of a number and what its bits are as an unsigned number. -/
theorem toInt_cases (x : Int64) :
    (x < 0 ∧ x.toInt = x.toUInt64.toNat - 18446744073709551616) ∨
    (¬ x < 0 ∧ x.toInt = x.toUInt64.toNat) := by
  have hbmod : x.toInt = Int.bmod x.toUInt64.toNat (2 ^ 64) := x.toBitVec.toInt_eq_toNat_bmod
  have hlt := x.toUInt64.toNat_lt
  rw [Int64.lt_iff_toInt_lt, Int64.toInt_zero, hbmod, Int.bmod_def]
  split
  · exact .inr ⟨by omega, by omega⟩
  · exact .inl ⟨by omega, by omega⟩

theorem toNat_removeSign {x : Int64} (h : x < 0) : (removeSign x).toNat = x.toInt.natAbs := by
  have hone : (Int64.toUInt64 1).toNat = 1 := rfl
  have hlt := x.toUInt64.toNat_lt
  have hle := x.le_toInt
  rcases toInt_cases x with ⟨-, heq⟩ | ⟨hnonneg, -⟩
  · rw [heq] at hle
    rw [removeSign, Int64.toUInt64_neg, Int64.toUInt64_add, UInt64.toNat_add, UInt64.toNat_neg,
      UInt64.toNat_add, hone, heq, UInt64.toNat_one]
    simp only [UInt64.size]
    omega
  · exact absurd h hnonneg

theorem dumpSigned_of_neg {x : Int64} (m : Mem) (h : x < 0) :
    dumpSigned m x = ascii ['-'] ++ decimal x.toInt.natAbs := by
  rw [dumpSigned, if_pos h]
  dsimp only
  rw [toNat_removeSign h, countDigits_eq]
  obtain ⟨hslice, hbelow⟩ := fillDigits_spec (n := x.toInt.natAbs) (write m 0 (ascii ['-']))
    (Nat.le_add_left _ 1) 0
  rw [Nat.add_sub_cancel] at hslice hbelow
  rw [slice_append, Nat.zero_add]
  refine congrArg₂ _ ?_ (hslice.trans (List.append_nil _))
  exact congrArg (fun b => [b]) (hbelow 0 Nat.one_pos)

theorem dumpSigned_of_nonneg {x : Int64} (m : Mem) (h : ¬ x < 0) :
    dumpSigned m x = decimal x.toInt.toNat := by
  rcases toInt_cases x with ⟨hneg, -⟩ | ⟨-, heq⟩
  · exact absurd hneg h
  · rw [dumpSigned, if_neg h, dumpUnsigned_eq, heq, Int.toNat_natCast]

/-- Numbers of 64 bits have 20 digits at most. -/
theorem length_decimal_le {n : Nat} (h : n < 10 ^ 20) : (decimal n).length ≤ 20 := by
  unfold decimal
  split
  · decide
  · rw [List.length_map, List.length_reverse]
    exact (Nat.digits_length_le_iff (by decide) n).mpr h

/-- What `dump_integer` asserts of `number_buffer`. -/
theorem length_dumpUnsigned_lt (m : Mem) (x : UInt64) :
    (dumpUnsigned m x).length < numberBufferSize - 1 := by
  rw [dumpUnsigned_eq]
  have hlt := x.toNat_lt
  have hle := length_decimal_le (n := x.toNat) (by omega)
  exact Nat.lt_of_le_of_lt hle (by decide)

theorem length_dumpSigned_lt (m : Mem) (x : Int64) :
    (dumpSigned m x).length < numberBufferSize - 1 := by
  by_cases hneg : x < 0
  · have hlow := x.le_toInt
    have hle := length_decimal_le (n := x.toInt.natAbs) (by
      rw [Int64.lt_iff_toInt_lt, Int64.toInt_zero] at hneg
      omega)
    rw [dumpSigned_of_neg m hneg, List.length_append]
    exact Nat.lt_of_le_of_lt (Nat.add_le_add_left hle 1) (by decide)
  · rw [dumpSigned, if_neg hneg]
    exact length_dumpUnsigned_lt m _

/-! ## Values -/

section
variable {F : Type} (lib : FloatLib F)

/-- What stands behind an element: nothing behind the last one. -/
def comma {α : Type} : List α → List UInt8
  | [] => []
  | _ :: _ => ascii [',']

mutual

/-- `serializer::dump` without `pretty_print`. What `number_buffer` holds at first makes no
difference (`dumpUnsigned_eq`). -/
def BasicJson.dump : BasicJson F → Except DumpError (List UInt8)
  | .null => .ok (ascii ['n', 'u', 'l', 'l'])
  | .boolean true => .ok (ascii ['t', 'r', 'u', 'e'])
  | .boolean false => .ok (ascii ['f', 'a', 'l', 's', 'e'])
  | .numberInteger n => .ok (dumpSigned (fun _ => 0) n)
  | .numberUnsigned n => .ok (dumpUnsigned (fun _ => 0) n)
  | .numberFloat x => .ok (lib.dumpFloat x)
  | .string s => do .ok (quote :: (← dumpEscaped s) ++ [quote])
  | .array elements => do .ok (ascii ['['] ++ (← dumpElements elements) ++ ascii [']'])
  | .object fields => do
    .ok (0x7B :: (← dumpFields fields) ++ [0x7D])

def BasicJson.dumpElements : List (BasicJson F) → Except DumpError (List UInt8)
  | [] => .ok []
  | element :: rest => do .ok ((← element.dump) ++ comma rest ++ (← dumpElements rest))

def BasicJson.dumpFields : List (List UInt8 × BasicJson F) → Except DumpError (List UInt8)
  | [] => .ok []
  | (key, value) :: rest => do
    .ok (quote :: (← dumpEscaped key) ++ quote :: ascii [':'] ++ (← value.dump) ++ comma rest ++
      (← dumpFields rest))

end

end

end MiniSurveillance
