import MiniSurveillance.Base.Loops
import MiniSurveillance.JsonDump

/-!
# The tokens of a JSON text

The lexer of the vendored library. `scanString` unescapes a string and refuses bytes
that are not UTF-8; `scanNumber` is the machine of `scan_number` and the conversion
behind it; `scan` skips white space and takes the next token. What is not read yet
is the rest of a list, so `unget` leaves a byte in it and reading behind its end
finds the end of the input again.

`scanString_escaped`: a string is read back from the text `dump_escaped` writes, and
`scanString_sound`: whatever is read is UTF-8. `scan_decimal` and `scan_negative`
read back what `dump_integer` writes.
-/

namespace MiniSurveillance

/-- `token_type`, with the value that `get_string` or `get_number_…` returns behind it. -/
inductive Token (F : Type)
  | literalTrue
  | literalFalse
  | literalNull
  | valueString (s : List UInt8)
  | valueUnsigned (n : UInt64)
  | valueInteger (n : Int64)
  | valueFloat (x : F)
  | beginArray
  | beginObject
  | endArray
  | endObject
  | nameSeparator
  | valueSeparator
  | parseError
  | endOfInput

/-! ## Strings -/

def hexValue (b : UInt8) : Option Nat :=
  if chr '0' ≤ b ∧ b ≤ chr '9' then some (b.toNat - 0x30)
  else if chr 'A' ≤ b ∧ b ≤ chr 'F' then some (b.toNat - 0x37)
  else if chr 'a' ≤ b ∧ b ≤ chr 'f' then some (b.toNat - 0x57)
  else none

/-- `get_codepoint`; `none` for its -1. -/
def getCodepoint : List UInt8 → Option (Nat × List UInt8)
  | a :: b :: c :: d :: rest => do
    some (((← hexValue a) <<< 12) + ((← hexValue b) <<< 8) + ((← hexValue c) <<< 4) +
      ((← hexValue d) <<< 0), rest)
  | _ => none

/-- The code point of a `\u` escape, or of two that make up a surrogate pair. -/
def scanUnicode (input : List UInt8) : Option (Nat × List UInt8) := do
  let (codepoint1, rest) ← getCodepoint input
  if 0xD800 ≤ codepoint1 ∧ codepoint1 ≤ 0xDBFF then
    match rest with
    | 0x5C :: 0x75 :: rest =>
      let (codepoint2, rest) ← getCodepoint rest
      if 0xDC00 ≤ codepoint2 ∧ codepoint2 ≤ 0xDFFF then
        some ((codepoint1 <<< 10) + codepoint2 - 0x35FDC00, rest)
      else none
    | _ => none
  else if 0xDC00 ≤ codepoint1 ∧ codepoint1 ≤ 0xDFFF then none
  else some (codepoint1, rest)

/-- The bytes a code point is translated into. -/
def codepointBytes (codepoint : Nat) : List UInt8 :=
  if codepoint < 0x80 then [UInt8.ofNat codepoint]
  else if codepoint ≤ 0x7FF then
    [UInt8.ofNat (0xC0 ||| (codepoint >>> 6)), UInt8.ofNat (0x80 ||| (codepoint &&& 0x3F))]
  else if codepoint ≤ 0xFFFF then
    [UInt8.ofNat (0xE0 ||| (codepoint >>> 12)), UInt8.ofNat (0x80 ||| ((codepoint >>> 6) &&& 0x3F)),
      UInt8.ofNat (0x80 ||| (codepoint &&& 0x3F))]
  else
    [UInt8.ofNat (0xF0 ||| (codepoint >>> 18)),
      UInt8.ofNat (0x80 ||| ((codepoint >>> 12) &&& 0x3F)),
      UInt8.ofNat (0x80 ||| ((codepoint >>> 6) &&& 0x3F)),
      UInt8.ofNat (0x80 ||| (codepoint &&& 0x3F))]

/-- The character behind a backslash, and what it adds to `token_buffer`. -/
def scanEscape : List UInt8 → Option (List UInt8 × List UInt8)
  | [] => none
  | current :: rest =>
    if current = quote then some ([quote], rest)
    else if current = backslash then some ([backslash], rest)
    else if current = chr '/' then some (ascii ['/'], rest)
    else if current = chr 'b' then some ([0x08], rest)
    else if current = chr 'f' then some ([0x0C], rest)
    else if current = chr 'n' then some ([0x0A], rest)
    else if current = chr 'r' then some ([0x0D], rest)
    else if current = chr 't' then some ([0x09], rest)
    else if current = chr 'u' then (scanUnicode rest).map fun (c, rest) => (codepointBytes c, rest)
    else none

/-- The ranges that each case of `scan_string` passes to `next_byte_in_range`; `none` for its
`default`. -/
def ranges (current : UInt8) : Option (List Utf8.Range) :=
  if current.toNat ≤ 0x7F then some []
  else if 0xC2 ≤ current.toNat ∧ current.toNat ≤ 0xDF then some [(0x80, 0xBF)]
  else if current.toNat = 0xE0 then some [(0xA0, 0xBF), (0x80, 0xBF)]
  else if (0xE1 ≤ current.toNat ∧ current.toNat ≤ 0xEC) ∨ current.toNat = 0xEE ∨
      current.toNat = 0xEF then some [(0x80, 0xBF), (0x80, 0xBF)]
  else if current.toNat = 0xED then some [(0x80, 0x9F), (0x80, 0xBF)]
  else if current.toNat = 0xF0 then some [(0x90, 0xBF), (0x80, 0xBF), (0x80, 0xBF)]
  else if 0xF1 ≤ current.toNat ∧ current.toNat ≤ 0xF3 then
    some [(0x80, 0xBF), (0x80, 0xBF), (0x80, 0xBF)]
  else if current.toNat = 0xF4 then some [(0x80, 0x8F), (0x80, 0xBF), (0x80, 0xBF)]
  else none

/-- `next_byte_in_range`: the bytes it adds behind the current one, and the rest. -/
def nextByteInRange : List Utf8.Range → List UInt8 → Option (List UInt8 × List UInt8)
  | [], input => some ([], input)
  | _ :: _, [] => none
  | range :: more, current :: input =>
    if range.Has current then
      (nextByteInRange more input).map fun (bs, rest) => (current :: bs, rest)
    else none

/-- One round of the loop of `scan_string`, on `token_buffer` and the input: the string and
the rest behind the closing quote, or `none` for `parse_error`. -/
def stringRound : List UInt8 × List UInt8 →
    (List UInt8 × List UInt8) ⊕ Option (List UInt8 × List UInt8)
  | (_, []) => .inr none
  | (tokenBuffer, current :: rest) =>
    if current = quote then .inr (some (tokenBuffer, rest))
    else if current = backslash then
      match scanEscape rest with
      | some (bs, rest) => .inl (tokenBuffer ++ bs, rest)
      | none => .inr none
    else if current.toNat ≤ 0x1F then .inr none
    else
      match (ranges current).bind fun rs => nextByteInRange rs rest with
      | some (bs, rest) => .inl (tokenBuffer ++ current :: bs, rest)
      | none => .inr none

/-- `scan_string`, behind the opening quote. -/
def scanString (input : List UInt8) : Option (List UInt8 × List UInt8) :=
  (Loops.run stringRound (input.length + 1) ([], input)).join

/-! ## Numbers -/

/-- The labels of `scan_number`. -/
inductive NumberState
  | minus
  | zero
  | any1
  | decimal1
  | decimal2
  | exponent
  | sign
  | any2
deriving DecidableEq, Repr

/-- `number_type`. -/
inductive NumberType
  | unsigned
  | integer
  | float
deriving DecidableEq, Repr

def isDigit (b : UInt8) : Bool := chr '0' ≤ b && b ≤ chr '9'

/-- Where a label jumps to and the byte it adds; `none` for its `default`. -/
def NumberState.next (decimalPoint : UInt8) (state : NumberState) (current : UInt8) :
    Option (NumberState × UInt8) :=
  match state with
  | .minus =>
    if current = chr '0' then some (.zero, current)
    else if isDigit current then some (.any1, current)
    else none
  | .zero =>
    if current = chr '.' then some (.decimal1, decimalPoint)
    else if current = chr 'e' ∨ current = chr 'E' then some (.exponent, current)
    else none
  | .any1 =>
    if isDigit current then some (.any1, current)
    else if current = chr '.' then some (.decimal1, decimalPoint)
    else if current = chr 'e' ∨ current = chr 'E' then some (.exponent, current)
    else none
  | .decimal1 => if isDigit current then some (.decimal2, current) else none
  | .decimal2 =>
    if isDigit current then some (.decimal2, current)
    else if current = chr 'e' ∨ current = chr 'E' then some (.exponent, current)
    else none
  | .exponent =>
    if current = chr '+' ∨ current = chr '-' then some (.sign, current)
    else if isDigit current then some (.any2, current)
    else none
  | .sign => if isDigit current then some (.any2, current) else none
  | .any2 => if isDigit current then some (.any2, current) else none

/-- The `default` of a label: `scan_number_done`, or an error. -/
def NumberState.done : NumberState → Bool
  | .zero | .any1 | .decimal2 | .any2 => true
  | .minus | .decimal1 | .exponent | .sign => false

/-- What a label makes of `number_type`. -/
def NumberState.enter : NumberState → NumberType → NumberType
  | .minus, _ => .integer
  | .decimal1, _ | .exponent, _ => .float
  | _, type => type

/-- The locals of `scan_number`, at a label. -/
structure NumberScan where
  state : NumberState
  type : NumberType
  tokenBuffer : List UInt8
  input : List UInt8
deriving DecidableEq, Repr

/-- From one label to the next one, or to `scan_number_done`. -/
def numberRound (decimalPoint : UInt8) (st : NumberScan) : NumberScan ⊕ Option NumberScan :=
  match st.input with
  | [] => .inr (if st.state.done then some st else none)
  | current :: rest =>
    match st.state.next decimalPoint current with
    | some (state, add) =>
      .inl ⟨state, state.enter st.type, st.tokenBuffer ++ [add], rest⟩
    | none => .inr (if st.state.done then some st else none)

section
variable {F : Type} (lib : FloatLib F)

/-- `strtoull` and `strtoll` on the digits. -/
def digitsValue (digits : List UInt8) : Nat := digits.foldl (fun n b => n * 10 + (b.toNat - 0x30)) 0

/-- The part of `scan_number` behind `scan_number_done`: a number that is out of range is
converted to a floating-point number. -/
def convertNumber (type : NumberType) (tokenBuffer : List UInt8) : Token F :=
  match type with
  | .unsigned =>
    if digitsValue tokenBuffer < 18446744073709551616 then
      .valueUnsigned (UInt64.ofNat (digitsValue tokenBuffer))
    else .valueFloat (lib.strtof tokenBuffer)
  | .integer =>
    if digitsValue tokenBuffer.tail ≤ 9223372036854775808 then
      .valueInteger (Int64.ofInt (-(digitsValue tokenBuffer.tail : Int)))
    else .valueFloat (lib.strtof tokenBuffer)
  | .float => .valueFloat (lib.strtof tokenBuffer)

/-- The label the first character leads to. -/
def firstLabel (current : UInt8) : NumberState :=
  if current = chr '-' then .minus else if current = chr '0' then .zero else .any1

/-- `scan_number`, where `current` is `-` or a digit. -/
def scanNumber (current : UInt8) (input : List UInt8) : Token F × List UInt8 :=
  let state := firstLabel current
  match (Loops.run (numberRound lib.decimalPoint) (input.length + 1)
      ⟨state, state.enter .unsigned, [current], input⟩).join with
  | some st => (convertNumber lib st.type st.tokenBuffer, st.input)
  | none => (.parseError, [])

/-! ## Tokens -/

/-- `scan_literal` behind the first character. -/
def scanLiteral (token : Token F) : List UInt8 → List UInt8 → Token F × List UInt8
  | [], input => (token, input)
  | _ :: _, [] => (.parseError, [])
  | expected :: more, current :: input =>
    if current = expected then scanLiteral token more input else (.parseError, input)

def isSpace (b : UInt8) : Bool := b == chr ' ' || b == 0x09 || b == 0x0A || b == 0x0D

/-- `scan` behind `skip_bom`, without comments. -/
def scan (input : List UInt8) : Token F × List UInt8 :=
  match input.dropWhile isSpace with
  | [] => (.endOfInput, [])
  | current :: rest =>
    if current = chr '[' then (.beginArray, rest)
    else if current = chr ']' then (.endArray, rest)
    else if current = 0x7B then (.beginObject, rest)
    else if current = 0x7D then (.endObject, rest)
    else if current = chr ':' then (.nameSeparator, rest)
    else if current = chr ',' then (.valueSeparator, rest)
    else if current = chr 't' then scanLiteral .literalTrue (ascii ['r', 'u', 'e']) rest
    else if current = chr 'f' then scanLiteral .literalFalse (ascii ['a', 'l', 's', 'e']) rest
    else if current = chr 'n' then scanLiteral .literalNull (ascii ['u', 'l', 'l']) rest
    else if current = quote then
      match scanString rest with
      | some (s, rest) => (.valueString s, rest)
      | none => (.parseError, [])
    else if current = chr '-' ∨ isDigit current then scanNumber lib current rest
    else if current = 0 then (.endOfInput, rest)
    else (.parseError, rest)

/-- The first `scan`, which skips a byte order mark. -/
def firstScan (input : List UInt8) : Token F × List UInt8 :=
  match input with
  | 0xEF :: rest =>
    match rest with
    | 0xBB :: 0xBF :: rest => scan lib rest
    | _ => (.parseError, rest)
  | _ => scan lib input

end

/-! ## What a string is made of -/

theorem hexValue_lt {b : UInt8} {n : Nat} (h : hexValue b = some n) : n < 16 := by
  have hrow : ∀ b < 256, ∀ n ∈ hexValue (UInt8.ofNat b), n < 16 := by decide +kernel
  have hb := hrow _ b.toNat_lt n
  rw [UInt8.ofNat_toNat] at hb
  exact hb h

theorem hexValue_hexDigit : ∀ n < 16, hexValue (hexDigit n) = some n := by
  decide

theorem getCodepoint_lt {input rest : List UInt8} {n : Nat}
    (h : getCodepoint input = some (n, rest)) : n < 0x10000 ∧ rest.length < input.length := by
  unfold getCodepoint at h
  split at h
  · next a b c d tail =>
    obtain ⟨i, hi, h⟩ := Option.bind_eq_some_iff.mp h
    obtain ⟨j, hj, h⟩ := Option.bind_eq_some_iff.mp h
    obtain ⟨k, hk, h⟩ := Option.bind_eq_some_iff.mp h
    obtain ⟨l, hl, h⟩ := Option.bind_eq_some_iff.mp h
    obtain ⟨rfl, rfl⟩ := Prod.mk.inj (Option.some.inj h)
    have := hexValue_lt hi
    have := hexValue_lt hj
    have := hexValue_lt hk
    have := hexValue_lt hl
    simp only [Nat.shiftLeft_eq, List.length_cons]
    omega
  · cases h

/-- An escape names a character. -/
theorem scanUnicode_valid {input rest : List UInt8} {n : Nat}
    (h : scanUnicode input = some (n, rest)) :
    n.isValidChar ∧ rest.length < input.length := by
  obtain ⟨⟨first, tail⟩, hfirst, h⟩ := Option.bind_eq_some_iff.mp h
  obtain ⟨hlt, hlength⟩ := getCodepoint_lt hfirst
  dsimp only at h
  split at h
  · next hhigh =>
    split at h
    · next tail =>
      obtain ⟨⟨second, last⟩, hsecond, h⟩ := Option.bind_eq_some_iff.mp h
      obtain ⟨-, hlength'⟩ := getCodepoint_lt hsecond
      obtain ⟨hlow, heq⟩ := Option.ite_none_right_eq_some.mp h
      obtain ⟨rfl, rfl⟩ := Prod.mk.inj (Option.some.inj heq)
      simp only [Nat.shiftLeft_eq, Nat.isValidChar]
      simp only [List.length_cons] at hlength
      dsimp only at hlow
      omega
    · cases h
  · obtain ⟨hlow, heq⟩ := Option.ite_none_left_eq_some.mp h
    obtain ⟨rfl, rfl⟩ := Prod.mk.inj (Option.some.inj heq)
    simp only [Nat.isValidChar]
    omega

theorem codepointBytes_eq (c : Char) : codepointBytes c.val.toNat = String.utf8EncodeChar c := by
  have hvalid : c.val.toNat < 0xD800 ∨ 0xDFFF < c.val.toNat ∧ c.val.toNat < 0x110000 := c.valid
  have hmark (mark bits : Nat) {low : Nat} (h : low < 2 ^ bits) :
      (mark <<< bits) ||| low = low + mark * 2 ^ bits := by
    rw [Bytes.shiftLeft_or mark h, Nat.add_comm]
  have htail (v : Nat) : 0x80 ||| (v &&& 0x3F) = v % 64 + 128 := by
    rw [Nat.and_two_pow_sub_one_eq_mod v 6]
    exact hmark 2 6 (Nat.mod_lt _ (by decide))
  have hshift (v k : Nat) : v >>> k = v / 2 ^ k := Nat.shiftRight_eq_div_pow v k
  unfold codepointBytes String.utf8EncodeChar
  generalize c.val.toNat = v at hvalid
  dsimp only
  simp only [htail, hshift, Nat.reducePow]
  rcases (by omega : v < 0x80 ∨ (¬ v < 0x80 ∧ v ≤ 0x7FF) ∨ (¬ v ≤ 0x7FF ∧ v ≤ 0xFFFF) ∨
    ¬ v ≤ 0xFFFF) with hone | ⟨hmore, htwo⟩ | ⟨hmore, hthree⟩ | hfour
  · rw [if_pos hone, if_pos (show v ≤ 0x7F by omega)]
  · have hlead : 0xC0 ||| v / 64 = v / 64 + 0xC0 := hmark 6 5 (show v / 64 < 2 ^ 5 by omega)
    rw [if_neg hmore, if_pos htwo, if_neg (show ¬ v ≤ 0x7F by omega), if_pos htwo, hlead,
      Nat.mod_eq_of_lt (show v / 64 < 32 by omega)]
  · have hlead : 0xE0 ||| v / 4096 = v / 4096 + 0xE0 :=
      hmark 14 4 (show v / 4096 < 2 ^ 4 by omega)
    rw [if_neg (show ¬ v < 0x80 by omega), if_neg hmore, if_pos hthree,
      if_neg (show ¬ v ≤ 0x7F by omega), if_neg hmore, if_pos hthree, hlead,
      Nat.mod_eq_of_lt (show v / 4096 < 16 by omega)]
  · have hlead : 0xF0 ||| v / 262144 = v / 262144 + 0xF0 :=
      hmark 30 3 (show v / 262144 < 2 ^ 3 by omega)
    rw [if_neg (show ¬ v < 0x80 by omega), if_neg (show ¬ v ≤ 0x7FF by omega), if_neg hfour,
      if_neg (show ¬ v ≤ 0x7F by omega), if_neg (show ¬ v ≤ 0x7FF by omega), if_neg hfour, hlead,
      Nat.mod_eq_of_lt (show v / 262144 < 8 by omega)]

/-- The letters of the short escapes. -/
theorem scanEscape_letter {current : UInt8} {tail bs rest : List UInt8}
    (h : scanEscape (current :: tail) = some (bs, rest)) :
    (rest = tail ∧ ∃ b, bs = [b] ∧ b.toNat ≤ 0x7F) ∨
    (∃ n, scanUnicode tail = some (n, rest) ∧ bs = codepointBytes n) := by
  have hone {b : UInt8} (h : some ([b], tail) = some (bs, rest)) (hb : b.toNat ≤ 0x7F) :
      rest = tail ∧ ∃ b, bs = [b] ∧ b.toNat ≤ 0x7F := by
    obtain ⟨rfl, rfl⟩ := Prod.mk.inj (Option.some.inj h)
    exact ⟨rfl, b, rfl, hb⟩
  rw [scanEscape] at h
  iterate 8
    split at h
    · exact .inl (hone h (by decide))
  split at h
  · obtain ⟨⟨n, last⟩, hscan, heq⟩ := Option.map_eq_some_iff.mp h
    obtain ⟨rfl, rfl⟩ := Prod.mk.inj heq
    exact .inr ⟨n, hscan, rfl⟩
  · cases h

theorem scanEscape_utf8 {input bs rest : List UInt8} (h : scanEscape input = some (bs, rest)) :
    Utf8.WellFormed bs ∧ rest.length < input.length := by
  have hsingle {b : UInt8} (hb : b.toNat ≤ 0x7F) : Utf8.WellFormed [b] :=
    Utf8.Follows.wellFormed ⟨[], Utf8.follow_one hb, .nil⟩
  cases input with
  | nil => cases h
  | cons current tail =>
    rcases scanEscape_letter h with ⟨rfl, b, rfl, hb⟩ | ⟨n, hscan, rfl⟩
    · exact ⟨hsingle hb, Nat.lt_succ_self _⟩
    · obtain ⟨hvalid, hlength⟩ := scanUnicode_valid hscan
      refine ⟨?_, Nat.lt_succ_of_lt hlength⟩
      have hchar := codepointBytes_eq (Char.ofNatAux n hvalid)
      exact Utf8.wellFormed_iff.mpr
        ⟨[Char.ofNatAux n hvalid], by rw [List.flatMap_singleton]; exact hchar.symm⟩

theorem ranges_eq (current : UInt8) : ranges current = Utf8.follow current := by
  have hrow : ∀ b < 256, ranges (UInt8.ofNat b) = Utf8.follow (UInt8.ofNat b) := by
    decide +kernel
  have hb := hrow _ current.toNat_lt
  rwa [UInt8.ofNat_toNat] at hb

theorem nextByteInRange_eq_some_iff {rs : List Utf8.Range} {input bs rest : List UInt8} :
    nextByteInRange rs input = some (bs, rest) ↔
      input = bs ++ rest ∧ List.Forall₂ Utf8.Range.Has rs bs := by
  induction rs generalizing input bs with
  | nil =>
    simp only [nextByteInRange, Option.some.injEq, Prod.mk.injEq, List.forall₂_nil_left_iff]
    constructor
    · rintro ⟨rfl, rfl⟩
      exact ⟨rfl, rfl⟩
    · rintro ⟨rfl, rfl⟩
      exact ⟨rfl, rfl⟩
  | cons r rs ih =>
    rw [List.forall₂_cons_left_iff]
    cases input with
    | nil => 
      constructor
      · intro h
        cases h
      · rintro ⟨h, b, us, -, -, rfl⟩
        cases h
    | cons current input =>
      rw [nextByteInRange, Option.ite_none_right_eq_some, Option.map_eq_some_iff]
      constructor
      · rintro ⟨hhas, ⟨more, tail⟩, hmore, heq⟩
        obtain ⟨rfl, rfl⟩ := Prod.mk.inj heq
        obtain ⟨rfl, hrest⟩ := ih.mp hmore
        exact ⟨rfl, current, more, hhas, hrest, rfl⟩
      · rintro ⟨heq, b, more, hhas, hrest, rfl⟩
        obtain ⟨rfl, rfl⟩ := List.cons.inj heq
        exact ⟨hhas, (more, rest), ih.mpr ⟨rfl, hrest⟩, rfl⟩

/-! ## Scanning a string -/

theorem stringRound_byte {current : UInt8} {tokenBuffer rest : List UInt8}
    (hquote : current ≠ quote) (hbackslash : current ≠ backslash)
    (hcontrol : ¬ current.toNat ≤ 0x1F) :
    stringRound (tokenBuffer, current :: rest) =
      match (ranges current).bind fun rs => nextByteInRange rs rest with
      | some (bs, rest) => .inl (tokenBuffer ++ current :: bs, rest)
      | none => .inr none := by
  simp only [stringRound, if_neg hquote, if_neg hbackslash, if_neg hcontrol]

theorem stringRound_escape {bs tokenBuffer input rest : List UInt8}
    (h : scanEscape input = some (bs, rest)) :
    stringRound (tokenBuffer, backslash :: input) = .inl (tokenBuffer ++ bs, rest) := by
  rw [stringRound, if_neg (by decide), if_pos rfl, h]

/-- A round that goes on adds one character of UTF-8. -/
theorem stringRound_inl {s t : List UInt8 × List UInt8} (h : stringRound s = .inl t) :
    (∃ bs, Utf8.WellFormed bs ∧ t.1 = s.1 ++ bs) ∧ t.2.length < s.2.length := by
  obtain ⟨tokenBuffer, input⟩ := s
  cases input with
  | nil => cases h
  | cons current input =>
    by_cases hquote : current = quote
    · rw [stringRound, if_pos hquote] at h
      cases h
    by_cases hbackslash : current = backslash
    · rw [stringRound, if_neg hquote, if_pos hbackslash] at h
      split at h
      · next bs rest hescape =>
        cases h
        obtain ⟨hbs, hlength⟩ := scanEscape_utf8 hescape
        exact ⟨⟨bs, hbs, rfl⟩, Nat.lt_succ_of_lt hlength⟩
      · cases h
    by_cases hcontrol : current.toNat ≤ 0x1F
    · rw [stringRound, if_neg hquote, if_neg hbackslash, if_pos hcontrol] at h
      cases h
    rw [stringRound_byte hquote hbackslash hcontrol] at h
    split at h
    · next bs rest hnext =>
      cases h
      obtain ⟨rs, hranges, hnext⟩ := Option.bind_eq_some_iff.mp hnext
      obtain ⟨rfl, hrest⟩ := nextByteInRange_eq_some_iff.mp hnext
      have hfollows : Utf8.Follows current bs := ⟨rs, by rw [← ranges_eq, hranges], hrest⟩
      refine ⟨⟨current :: bs, hfollows.wellFormed, rfl⟩, ?_⟩
      simp only [List.length_cons, List.length_append]
      omega
    · cases h

theorem stringRound_inr {s : List UInt8 × List UInt8} {t rest : List UInt8}
    (h : stringRound s = .inr (some (t, rest))) : t = s.1 ∧ s.2 = quote :: rest := by
  obtain ⟨tokenBuffer, input⟩ := s
  cases input with
  | nil => cases h
  | cons current input =>
    by_cases hquote : current = quote
    · rw [stringRound, if_pos hquote] at h
      cases h
      exact ⟨rfl, by rw [hquote]⟩
    by_cases hbackslash : current = backslash
    · rw [stringRound, if_neg hquote, if_pos hbackslash] at h
      split at h <;> cases h
    by_cases hcontrol : current.toNat ≤ 0x1F
    · rw [stringRound, if_neg hquote, if_neg hbackslash, if_pos hcontrol] at h
      cases h
    rw [stringRound_byte hquote hbackslash hcontrol] at h
    split at h <;> cases h

/-- `scanString` is the loop: its fuel is always enough. -/
theorem scanString_eq_some_iff {input t rest : List UInt8} :
    scanString input = some (t, rest) ↔
      Loops.Ends stringRound ([], input) (some (t, rest)) := by
  rw [Loops.ends_iff_run (fun s => s.2.length) (fun s t h => (stringRound_inl h).2)
    (n := input.length + 1) (Nat.lt_succ_self _), scanString]
  simp [Option.join_eq_some_iff]

/-- What is read is UTF-8, and something is read. -/
theorem scanString_sound {input t rest : List UInt8} (h : scanString input = some (t, rest)) :
    Utf8.WellFormed t ∧ rest.length < input.length := by
  refine (scanString_eq_some_iff.mp h).invariant
    (I := fun s => Utf8.WellFormed s.1 ∧ s.2.length ≤ input.length)
    (Q := fun r => ∀ t rest, r = some (t, rest) → Utf8.WellFormed t ∧ rest.length < input.length)
    ?_ ?_ ⟨Utf8.wellFormed_nil, Nat.le_refl _⟩ t rest rfl
  · rintro s u ⟨hs, hle⟩ hround
    obtain ⟨⟨bs, hbs, heq⟩, hlt⟩ := stringRound_inl hround
    exact ⟨heq ▸ hs.append hbs, Nat.le_of_lt (Nat.lt_of_lt_of_le hlt hle)⟩
  · rintro s r ⟨hs, hle⟩ hround t rest rfl
    obtain ⟨rfl, hinput⟩ := stringRound_inr hround
    rw [hinput, List.length_cons] at hle
    exact ⟨hs, hle⟩

/-! ### Back from the text of a string -/

theorem scanEscape_shorthand {v : Nat} {letter : UInt8} (h : shorthand v = some letter)
    (rest : List UInt8) :
    scanEscape (letter :: rest) = some ([UInt8.ofNat v], rest) ∧ v < 0x80 := by
  unfold shorthand at h
  split at h <;> cases h <;> exact ⟨rfl, by decide⟩

theorem scanEscape_unicode {v : Nat} (h : v < 0x20) (rest : List UInt8) :
    scanEscape ((unicodeEscape v).tail ++ rest) = some ([UInt8.ofNat v], rest) := by
  have hu (tail : List UInt8) : scanEscape (chr 'u' :: tail) =
      (scanUnicode tail).map fun (c, rest) => (codepointBytes c, rest) := rfl
  have hdigits : getCodepoint (hexDigit (v / 4096 % 16) :: hexDigit (v / 256 % 16) ::
      hexDigit (v / 16 % 16) :: hexDigit (v % 16) :: rest) = some (v, rest) := by
    simp only [getCodepoint, hexValue_hexDigit _ (Nat.mod_lt _ (by decide : 0 < 16)),
      Option.bind_eq_bind, Option.bind_some, Option.some.injEq, Prod.mk.injEq, and_true,
      Nat.shiftLeft_eq]
    omega
  have hscan : scanUnicode ((unicodeEscape v).tail.tail ++ rest) = some (v, rest) := by
    refine (congrArg (Option.bind · _) hdigits).trans ?_
    dsimp only [Option.bind_some]
    rw [if_neg (by omega), if_neg (by omega)]
  refine (hu _).trans ((congrArg _ hscan).trans ?_)
  exact congrArg (fun bs => some (bs, rest)) (if_pos (by omega))

theorem encode_of_lt {c : Char} (h : c.val.toNat < 0x80) :
    String.utf8EncodeChar c = [UInt8.ofNat c.val.toNat] := by
  rw [String.utf8EncodeChar, if_pos (by omega)]

/-- One `escape` is read back as its character. -/
theorem ends_escape (c : Char) (tokenBuffer rest : List UInt8)
    (r : Option (List UInt8 × List UInt8)) :
    Loops.Ends stringRound (tokenBuffer, escape c ++ rest) r ↔
      Loops.Ends stringRound (tokenBuffer ++ String.utf8EncodeChar c, rest) r := by
  unfold escape
  split
  · next letter hshort =>
    obtain ⟨hescape, hlt⟩ := scanEscape_shorthand hshort rest
    rw [encode_of_lt hlt]
    exact Loops.ends_inl_iff (stringRound_escape hescape)
  · next hshort =>
    split
    · next hcontrol =>
      rw [encode_of_lt (by omega)]
      exact Loops.ends_inl_iff (stringRound_escape (scanEscape_unicode hcontrol rest))
    · next hcontrol =>
      obtain ⟨lead, bs, hencode, ⟨rs, hfollow, hbs⟩, hcode⟩ := Utf8.encode_follows c
      have hlead : lead ≠ quote ∧ lead ≠ backslash ∧ ¬ lead.toNat ≤ 0x1F := by
        have hne {k : UInt8} (h : lead.toNat ≠ k.toNat) : lead ≠ k := fun heq => h (heq ▸ rfl)
        rcases Utf8.follow_cases hfollow with ⟨-, rfl⟩ | ⟨hlow, -⟩ | ⟨hlow, -⟩ | ⟨hlow, -⟩
        · cases hbs
          have hval : lead.toNat = c.val.toNat := hcode
          refine ⟨hne ?_, hne ?_, by omega⟩
          · intro heq
            rw [← hval, heq] at hshort
            cases hshort
          · intro heq
            rw [← hval, heq] at hshort
            cases hshort
        all_goals
          have hquote : quote.toNat = 0x22 := rfl
          have hbackslash : backslash.toNat = 0x5C := rfl
          exact ⟨hne (by omega), hne (by omega), by omega⟩
      rw [hencode]
      refine Loops.ends_inl_iff ?_
      rw [List.cons_append, stringRound_byte hlead.1 hlead.2.1 hlead.2.2, ranges_eq, hfollow,
        Option.bind_some, nextByteInRange_eq_some_iff.mpr ⟨rfl, hbs⟩]

/-- The text of a string is read back up to its closing quote. -/
theorem scanString_escaped (t : String) (rest : List UInt8) :
    scanString (t.toList.flatMap escape ++ quote :: rest) = some (Text.utf8 t, rest) := by
  have hends (cs : List Char) (tokenBuffer : List UInt8) :
      Loops.Ends stringRound (tokenBuffer, cs.flatMap escape ++ quote :: rest)
        (some (tokenBuffer ++ cs.flatMap String.utf8EncodeChar, rest)) := by
    induction cs generalizing tokenBuffer with
    | nil =>
      rw [List.flatMap_nil, List.flatMap_nil, List.append_nil]
      exact Loops.ends_inr (by rw [List.nil_append, stringRound, if_pos rfl])
    | cons c cs ih =>
      rw [List.flatMap_cons, List.append_assoc, ends_escape, List.flatMap_cons,
        ← List.append_assoc]
      exact ih _
  exact scanString_eq_some_iff.mpr (hends t.toList [])

/-! ## Scanning a number -/

theorem numberRound_inl {decimalPoint : UInt8} {st t : NumberScan}
    (h : numberRound decimalPoint st = .inl t) : t.input.length < st.input.length := by
  unfold numberRound at h
  split at h
  · cases h
  · next current rest hinput =>
    split at h
    · cases h
      rw [hinput]
      exact Nat.lt_succ_self _
    · cases h

theorem numberRound_inr {decimalPoint : UInt8} {st t : NumberScan}
    (h : numberRound decimalPoint st = .inr (some t)) : t = st := by
  have hdone (h : (.inr (if st.state.done then some st else none) :
      NumberScan ⊕ Option NumberScan) = .inr (some t)) : t = st := by
    obtain ⟨-, heq⟩ := Option.ite_none_right_eq_some.mp (Sum.inr.inj h)
    exact (Option.some.inj heq).symm
  unfold numberRound at h
  split at h
  · exact hdone h
  · split at h
    · cases h
    · exact hdone h

/-- What may stand behind a number that is written without fraction and exponent. -/
def Stops (rest : List UInt8) : Prop :=
  ∀ b ∈ rest.head?, isDigit b = false ∧ b ≠ chr '.' ∧ b ≠ chr 'e' ∧ b ≠ chr 'E'

theorem NumberState.next_of_stops {decimalPoint : UInt8} {state : NumberState} {b : UInt8}
    (hstate : state = .zero ∨ state = .any1)
    (h : isDigit b = false ∧ b ≠ chr '.' ∧ b ≠ chr 'e' ∧ b ≠ chr 'E') :
    state.next decimalPoint b = none := by
  obtain ⟨hdigit, hpoint, he, hE⟩ := h
  rcases hstate with rfl | rfl <;> simp [NumberState.next, hdigit, hpoint, he, hE]

theorem numberRound_of_stops {decimalPoint : UInt8} {st : NumberScan}
    (hstate : st.state = .zero ∨ st.state = .any1) (h : Stops st.input) :
    numberRound decimalPoint st = .inr (some st) := by
  have hdone : st.state.done = true := by rcases hstate with h | h <;> rw [h] <;> rfl
  unfold numberRound
  split
  · rw [if_pos hdone]
  · next b rest hinput =>
    rw [NumberState.next_of_stops hstate (h b (by rw [hinput]; rfl)), if_pos hdone]

/-- The digits behind the first one. -/
theorem ends_digits {decimalPoint : UInt8} {digits rest : List UInt8}
    (hdigits : ∀ b ∈ digits, isDigit b = true) (hrest : Stops rest) (type : NumberType)
    (tokenBuffer : List UInt8) :
    Loops.Ends (numberRound decimalPoint) ⟨.any1, type, tokenBuffer, digits ++ rest⟩
      (some ⟨.any1, type, tokenBuffer ++ digits, rest⟩) := by
  induction digits generalizing tokenBuffer with
  | nil =>
    rw [List.append_nil]
    exact Loops.ends_inr (numberRound_of_stops (.inr rfl) hrest)
  | cons b digits ih =>
    have hb := hdigits b List.mem_cons_self
    have hround : numberRound decimalPoint ⟨.any1, type, tokenBuffer, b :: digits ++ rest⟩ =
        .inl ⟨.any1, type, tokenBuffer ++ [b], digits ++ rest⟩ := by
      simp [numberRound, NumberState.next, NumberState.enter, hb]
    have hcons : tokenBuffer ++ b :: digits = tokenBuffer ++ [b] ++ digits := List.append_cons ..
    rw [Loops.ends_inl_iff hround, hcons]
    exact ih (fun b hb => hdigits b (List.mem_cons_of_mem _ hb)) _

section
variable {F : Type} {lib : FloatLib F}

theorem scanNumber_of_ends {current : UInt8} {input : List UInt8} {st : NumberScan}
    (h : Loops.Ends (numberRound lib.decimalPoint)
      ⟨firstLabel current, (firstLabel current).enter .unsigned, [current], input⟩ (some st)) :
    scanNumber lib current input = (convertNumber lib st.type st.tokenBuffer, st.input) := by
  rw [Loops.ends_iff_run (fun s => s.input.length) (fun _ _ h => numberRound_inl h)
    (n := input.length + 1) (Nat.lt_succ_self _)] at h
  simp only [scanNumber, h]
  rfl

theorem scanNumber_length (current : UInt8) (input : List UInt8) :
    (scanNumber lib current input).2.length ≤ input.length := by
  unfold scanNumber
  dsimp only
  split
  · next st hrun =>
    refine Loops.Ends.invariant (I := fun s => s.input.length ≤ input.length)
      (Q := fun r => ∀ st, r = some st → st.input.length ≤ input.length) ?_ ?_
      ⟨_, Option.join_eq_some_iff.mp hrun⟩ (Nat.le_refl _) st rfl
    · exact fun s t hle hround => Nat.le_of_lt (Nat.lt_of_lt_of_le (numberRound_inl hround) hle)
    · rintro s r hle hround st rfl
      rw [numberRound_inr hround]
      exact hle
  · exact Nat.zero_le _

/-! ### Decimal digits -/

theorem isDigit_ofNat : ∀ d < 10, isDigit (UInt8.ofNat (0x30 + d)) = true ∧
    (UInt8.ofNat (0x30 + d)).toNat - 0x30 = d := by
  decide

theorem isDigit_decimal {n : Nat} {b : UInt8} (h : b ∈ decimal n) : isDigit b = true := by
  unfold decimal at h
  split at h
  · rw [List.mem_singleton.mp h]
    rfl
  · obtain ⟨d, hd, rfl⟩ := List.mem_map.mp h
    exact (isDigit_ofNat d (Nat.digits_lt_base (by decide) (List.mem_reverse.mp hd))).1

theorem digitsValue_append (xs : List UInt8) (b : UInt8) :
    digitsValue (xs ++ [b]) = digitsValue xs * 10 + (b.toNat - 0x30) := by
  rw [digitsValue, List.foldl_append]
  rfl

theorem digitsValue_decimal (n : Nat) : digitsValue (decimal n) = n := by
  induction n using Nat.strongRecOn with
  | ind n ih =>
    rcases Nat.lt_or_ge n 10 with h | h
    · rw [decimal_of_lt_ten h]
      exact (Nat.zero_add _).trans (isDigit_ofNat n h).2
    · rw [decimal_of_ge_ten h, digitsValue_append, ih (n / 10) (by omega),
        (isDigit_ofNat (n % 10) (Nat.mod_lt _ (by decide))).2]
      omega

/-- Only the text of zero begins with a zero. -/
theorem decimal_cons {n : Nat} (h : n ≠ 0) :
    ∃ first digits, decimal n = first :: digits ∧ isDigit first = true ∧ first ≠ chr '0' := by
  induction n using Nat.strongRecOn with
  | ind n ih =>
    rcases Nat.lt_or_ge n 10 with hten | hten
    · refine ⟨_, [], decimal_of_lt_ten hten, (isDigit_ofNat n hten).1, ?_⟩
      have hrow : ∀ d < 10, d ≠ 0 → UInt8.ofNat (0x30 + d) ≠ chr '0' := by decide
      exact hrow n hten h
    · obtain ⟨first, digits, hdecimal, hfirst, hzero⟩ := ih (n / 10) (by omega) (by omega)
      exact ⟨first, _, by rw [decimal_of_ge_ten hten, hdecimal]; rfl, hfirst, hzero⟩

theorem scan_of_isDigit {b : UInt8} (h : isDigit b = true) (rest : List UInt8) :
    scan lib (b :: rest) = scanNumber lib b rest := by
  have hne {k : UInt8} (hk : isDigit k = false) : b ≠ k := by
    rintro rfl
    rw [h] at hk
    cases hk
  have hspace : isSpace b = false := by
    simp [isSpace, hne (k := chr ' ') rfl, hne (k := 0x09) rfl, hne (k := 0x0A) rfl,
      hne (k := 0x0D) rfl]
  rw [scan, List.dropWhile_cons_of_neg (by rw [hspace]; exact Bool.false_ne_true)]
  dsimp only
  rw [if_neg (hne rfl), if_neg (hne rfl), if_neg (hne rfl), if_neg (hne rfl), if_neg (hne rfl),
    if_neg (hne rfl), if_neg (hne rfl), if_neg (hne rfl), if_neg (hne rfl), if_neg (hne rfl),
    if_pos (.inr h)]

/-- The machine reads the digits of a number, whether or not a sign stands before them. -/
theorem ends_decimal (decimalPoint : UInt8) (n : Nat) {rest : List UInt8} (hrest : Stops rest)
    (type : NumberType) (before : List UInt8) :
    ∃ first digits state, decimal n = first :: digits ∧ isDigit first = true ∧
      state = (if first = chr '0' then NumberState.zero else .any1) ∧
      Loops.Ends (numberRound decimalPoint) ⟨state, type, before ++ [first], digits ++ rest⟩
        (some ⟨state, type, before ++ decimal n, rest⟩) := by
  by_cases hzero : n = 0
  · subst hzero
    exact ⟨chr '0', [], .zero, rfl, rfl, rfl,
      Loops.ends_inr (numberRound_of_stops (.inl rfl) hrest)⟩
  · obtain ⟨first, digits, hdecimal, hfirst, hne⟩ := decimal_cons hzero
    refine ⟨first, digits, .any1, hdecimal, hfirst, (if_neg hne).symm, ?_⟩
    have hcons : before ++ first :: digits = before ++ [first] ++ digits := List.append_cons ..
    rw [hdecimal, hcons]
    refine ends_digits (fun b hb => ?_) hrest type _
    exact isDigit_decimal (n := n) (hdecimal ▸ List.mem_cons_of_mem _ hb)

/-- What `dump_integer` writes for a number that is not negative is read back. -/
theorem scan_decimal {n : Nat} (hn : n < 18446744073709551616) {rest : List UInt8}
    (hrest : Stops rest) :
    scan lib (decimal n ++ rest) = (.valueUnsigned (UInt64.ofNat n), rest) := by
  obtain ⟨first, digits, state, hdecimal, hfirst, hstate, hends⟩ :=
    ends_decimal lib.decimalPoint n hrest .unsigned []
  have hlabel : firstLabel first = state := by
    have hminus : first ≠ chr '-' := by
      rintro rfl
      cases hfirst
    rw [firstLabel, if_neg hminus, hstate]
  have henter : state.enter .unsigned = .unsigned := by
    rw [hstate]
    split <;> rfl
  rw [hdecimal, List.cons_append, scan_of_isDigit hfirst,
    scanNumber_of_ends (by rw [hlabel, henter]; exact hends), List.nil_append]
  dsimp only
  rw [convertNumber, digitsValue_decimal, if_pos hn]

/-- And what it writes for a negative one. -/
theorem scan_negative {n : Nat} (hn : n ≤ 9223372036854775808) {rest : List UInt8}
    (hrest : Stops rest) :
    scan lib (ascii ['-'] ++ decimal n ++ rest) =
      (.valueInteger (Int64.ofInt (-(n : Int))), rest) := by
  obtain ⟨first, digits, state, hdecimal, hfirst, hstate, hends⟩ :=
    ends_decimal lib.decimalPoint n hrest .integer (ascii ['-'])
  have hnext : NumberState.next lib.decimalPoint .minus first = some (state, first) := by
    rw [NumberState.next, hstate]
    split
    · rfl
    · rfl
  have henter : state.enter .integer = .integer := by
    rw [hstate]
    split <;> rfl
  have hround : numberRound lib.decimalPoint
      ⟨.minus, .integer, [chr '-'], decimal n ++ rest⟩ =
        .inl ⟨state, .integer, [chr '-'] ++ [first], digits ++ rest⟩ := by
    rw [hdecimal]
    simp only [List.cons_append, numberRound, hnext, henter]
  have hscan : scan lib (ascii ['-'] ++ decimal n ++ rest) =
      scanNumber lib (chr '-') (decimal n ++ rest) := rfl
  rw [hscan, scanNumber_of_ends ((Loops.ends_inl_iff hround).mpr hends)]
  dsimp only
  rw [convertNumber, show (ascii ['-'] ++ decimal n).tail = decimal n from rfl,
    digitsValue_decimal, if_pos hn]

/-! ## What a token says about the text -/

/-- A token that stands for bytes of the text. -/
def Token.Real : Token F → Prop
  | .parseError | .endOfInput => False
  | _ => True

/-- A token of a text of `n` bytes, with what is left. -/
structure Token.Sound (n : Nat) (token : Token F) (rest : List UInt8) : Prop where
  length : rest.length ≤ n
  consumed : token.Real → rest.length < n
  string : ∀ s, token = .valueString s → Utf8.WellFormed s

theorem scanLiteral_sound {token : Token F} (hstring : ∀ s, token ≠ .valueString s)
    (text input : List UInt8) {n : Nat} (h : input.length < n) :
    Token.Sound n (scanLiteral token text input).1 (scanLiteral token text input).2 := by
  induction text generalizing input with
  | nil => exact ⟨Nat.le_of_lt h, fun _ => h, fun s hs => absurd hs (hstring s)⟩
  | cons b text ih =>
    cases input with
    | nil => exact ⟨Nat.zero_le n, False.elim, by simp [scanLiteral]⟩
    | cons current input =>
      have hinput : input.length < n := Nat.lt_of_succ_lt h
      rw [scanLiteral]
      split
      · exact ih input hinput
      · exact ⟨Nat.le_of_lt hinput, False.elim, by simp⟩

theorem convertNumber_string (type : NumberType) (tokenBuffer s : List UInt8) :
    convertNumber lib type tokenBuffer ≠ .valueString s := by
  have hite {p : Prop} [Decidable p] {a b : Token F} (ha : a ≠ .valueString s)
      (hb : b ≠ .valueString s) : (if p then a else b) ≠ .valueString s := by
    split
    · exact ha
    · exact hb
  cases type with
  | unsigned => exact hite (by simp) (by simp)
  | integer => exact hite (by simp) (by simp)
  | float => simp [convertNumber]

theorem scanNumber_string (current : UInt8) (input s : List UInt8) :
    (scanNumber lib current input).1 ≠ .valueString s := by
  unfold scanNumber
  dsimp only
  split
  · exact convertNumber_string _ _ s
  · simp

/-- `Token.Sound` of what `scan` returns. -/
def Sound (n : Nat) (p : Token F × List UInt8) : Prop := Token.Sound n p.1 p.2

theorem Sound.ite {n : Nat} {p : Prop} [Decidable p] {a b : Token F × List UInt8}
    (ha : Sound n a) (hb : Sound n b) : Sound n (if p then a else b) := by
  split
  · exact ha
  · exact hb

variable (lib) in
theorem scan_sound (input : List UInt8) : Sound input.length (scan lib input) := by
  have hone {token : Token F} {rest : List UInt8} (hrest : rest.length < input.length)
      (hstring : ∀ s, token ≠ .valueString s) : Sound input.length (token, rest) :=
    ⟨Nat.le_of_lt hrest, fun _ => hrest, fun s hs => absurd hs (hstring s)⟩
  unfold scan
  cases heq : input.dropWhile isSpace with
  | nil => exact ⟨Nat.zero_le _, False.elim, by simp⟩
  | cons current rest =>
    have hrest : rest.length < input.length := by
      have hdrop := (List.dropWhile_sublist isSpace (l := input)).length_le
      rw [heq] at hdrop
      exact hdrop
    dsimp only
    iterate 6 refine .ite (hone hrest (by simp)) ?_
    iterate 3 refine .ite (scanLiteral_sound (by simp) _ _ hrest) ?_
    refine .ite ?_ (.ite ?_ (.ite ?_ ?_))
    · cases hscan : scanString rest with
      | none => exact ⟨Nat.zero_le _, False.elim, by simp⟩
      | some p =>
        obtain ⟨hs, hlength⟩ := scanString_sound hscan
        have htail := Nat.lt_trans hlength hrest
        refine ⟨Nat.le_of_lt htail, fun _ => htail, ?_⟩
        rintro t ht
        cases ht
        exact hs
    · exact hone (Nat.lt_of_le_of_lt (scanNumber_length current rest) hrest)
        (scanNumber_string current rest)
    · exact ⟨Nat.le_of_lt hrest, False.elim, by simp⟩
    · exact ⟨Nat.le_of_lt hrest, False.elim, by simp⟩

end

end MiniSurveillance
