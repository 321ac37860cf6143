import Mathlib.Data.List.Forall2
import MiniSurveillance.Base.Text

/-!
# UTF-8, byte by byte

`follow` is the table of well-formed byte sequences: what may come behind a first
byte, as one range for each further byte. `code` puts the code point together.

* `encode_follows`: the encoding of a character goes by the table, and `code` gives
  the character back.
* `exists_char`: what goes by the table is the encoding of a character.
* `wellFormed_cons_iff`: a text is UTF-8 when its first sequence goes by the table
  and the rest is UTF-8; readers and machines are compared with this.
-/

namespace Utf8

/-- The bytes from one value to another, both included. -/
abbrev Range := Nat × Nat

def Range.Has (r : Range) (b : UInt8) : Prop := r.1 ≤ b.toNat ∧ b.toNat ≤ r.2

instance (r : Range) (b : UInt8) : Decidable (r.Has b) := inferInstanceAs (Decidable (_ ∧ _))

def tail : Range := (0x80, 0xBF)

/-- The second byte of a longer sequence: no overlong encoding, no surrogate, nothing
above the last code point. -/
def second (lead : UInt8) : Range :=
  if lead.toNat = 0xE0 then (0xA0, 0xBF)
  else if lead.toNat = 0xED then (0x80, 0x9F)
  else if lead.toNat = 0xF0 then (0x90, 0xBF)
  else if lead.toNat = 0xF4 then (0x80, 0x8F)
  else tail

/-- The ranges of the bytes behind a first byte, `none` when no sequence begins so. -/
def follow (lead : UInt8) : Option (List Range) :=
  if lead.toNat ≤ 0x7F then some []
  else if lead.toNat < 0xC2 then none
  else if lead.toNat ≤ 0xDF then some [tail]
  else if lead.toNat ≤ 0xEF then some [second lead, tail]
  else if lead.toNat ≤ 0xF4 then some [second lead, tail, tail]
  else none

/-- The bits a first byte spends on the number of bytes behind it. -/
def mark : Nat → Nat
  | 0 => 0
  | 1 => 0xC0
  | 2 => 0xE0
  | _ => 0xF0

/-- Six more bits of a code point. -/
def push (code : Nat) (b : UInt8) : Nat := code * 64 + b.toNat % 64

def code (lead : UInt8) (rest : List UInt8) : Nat :=
  rest.foldl push (lead.toNat - mark rest.length)

/-- The bytes are one sequence of the table. -/
def Follows (lead : UInt8) (rest : List UInt8) : Prop :=
  ∃ ranges, follow lead = some ranges ∧ List.Forall₂ Range.Has ranges rest

theorem follow_cases {lead : UInt8} {ranges : List Range} (h : follow lead = some ranges) :
    (lead.toNat ≤ 0x7F ∧ ranges = []) ∨
    (0xC2 ≤ lead.toNat ∧ lead.toNat ≤ 0xDF ∧ ranges = [tail]) ∨
    (0xE0 ≤ lead.toNat ∧ lead.toNat ≤ 0xEF ∧ ranges = [second lead, tail]) ∨
    (0xF0 ≤ lead.toNat ∧ lead.toNat ≤ 0xF4 ∧ ranges = [second lead, tail, tail]) := by
  unfold follow at h
  split at h
  · next hone => exact .inl ⟨hone, (Option.some.inj h).symm⟩
  split at h
  · cases h
  split at h
  · next htwo => exact .inr (.inl ⟨by omega, htwo, (Option.some.inj h).symm⟩)
  split at h
  · next hthree => exact .inr (.inr (.inl ⟨by omega, hthree, (Option.some.inj h).symm⟩))
  split at h
  · next hfour => exact .inr (.inr (.inr ⟨by omega, hfour, (Option.some.inj h).symm⟩))
  · cases h

theorem follow_one {lead : UInt8} (h : lead.toNat ≤ 0x7F) : follow lead = some [] := by
  rw [follow, if_pos h]

theorem follow_two {lead : UInt8} (h : 0xC2 ≤ lead.toNat ∧ lead.toNat ≤ 0xDF) :
    follow lead = some [tail] := by
  rw [follow, if_neg (by omega), if_neg (by omega), if_pos h.2]

theorem follow_three {lead : UInt8} (h : 0xE0 ≤ lead.toNat ∧ lead.toNat ≤ 0xEF) :
    follow lead = some [second lead, tail] := by
  rw [follow, if_neg (by omega), if_neg (by omega), if_neg (by omega), if_pos h.2]

theorem follow_four {lead : UInt8} (h : 0xF0 ≤ lead.toNat ∧ lead.toNat ≤ 0xF4) :
    follow lead = some [second lead, tail, tail] := by
  rw [follow, if_neg (by omega), if_neg (by omega), if_neg (by omega), if_neg (by omega),
    if_pos h.2]

/-- The second byte of a sequence of three rules out what two bytes can say and the
surrogates. -/
theorem second_three_iff {lead b : UInt8} (h : 0xE0 ≤ lead.toNat ∧ lead.toNat ≤ 0xEF) :
    (second lead).Has b ↔ tail.Has b ∧
      (0x20 ≤ (lead.toNat - 0xE0) * 64 + b.toNat % 64) ∧
      ((lead.toNat - 0xE0) * 64 + b.toNat % 64 < 0x360 ∨
        0x37F < (lead.toNat - 0xE0) * 64 + b.toNat % 64) := by
  unfold second
  split
  · simp only [Range.Has, tail]; omega
  split
  · simp only [Range.Has, tail]; omega
  rw [if_neg (by omega), if_neg (by omega)]
  simp only [Range.Has, tail]; omega

/-- The second byte of a sequence of four rules out what three bytes can say and what
lies above the last code point. -/
theorem second_four_iff {lead b : UInt8} (h : 0xF0 ≤ lead.toNat ∧ lead.toNat ≤ 0xF4) :
    (second lead).Has b ↔ tail.Has b ∧
      (0x10 ≤ (lead.toNat - 0xF0) * 64 + b.toNat % 64) ∧
      ((lead.toNat - 0xF0) * 64 + b.toNat % 64 < 0x110) := by
  rw [second, if_neg (by omega), if_neg (by omega)]
  split
  · simp only [Range.Has, tail]; omega
  split
  · simp only [Range.Has, tail]; omega
  simp only [Range.Has, tail]; omega

theorem encode_follows (c : Char) : ∃ lead rest, String.utf8EncodeChar c = lead :: rest ∧
    Follows lead rest ∧ code lead rest = c.val.toNat := by
  have hvalid : c.val.toNat < 0xD800 ∨ 0xDFFF < c.val.toNat ∧ c.val.toNat < 0x110000 := c.valid
  unfold String.utf8EncodeChar
  generalize c.val.toNat = v at hvalid
  dsimp only
  split
  · next h =>
    refine ⟨_, _, rfl, ⟨[], follow_one ?_, .nil⟩, ?_⟩
    · simp only [UInt8.toNat_ofNat']
      omega
    · simp only [code, mark, List.foldl_nil, List.length_nil, UInt8.toNat_ofNat']
      omega
  split
  · next h₁ h₂ =>
    refine ⟨_, _, rfl, ⟨_, follow_two ?_, .cons ?_ .nil⟩, ?_⟩
    · simp only [UInt8.toNat_ofNat']
      omega
    · simp only [Range.Has, tail, UInt8.toNat_ofNat']
      omega
    · simp only [code, push, mark, List.foldl_nil, List.foldl_cons, List.length_nil,
        List.length_cons, UInt8.toNat_ofNat']
      omega
  split
  · next h₁ h₂ h₃ =>
    have hlead : 0xE0 ≤ (UInt8.ofNat (v / 4096 % 16 + 224)).toNat ∧
        (UInt8.ofNat (v / 4096 % 16 + 224)).toNat ≤ 0xEF := by
      simp only [UInt8.toNat_ofNat']
      omega
    refine ⟨_, _, rfl, ⟨_, follow_three hlead, .cons ((second_three_iff hlead).mpr ?_)
      (.cons ?_ .nil)⟩, ?_⟩
    · simp only [Range.Has, tail, UInt8.toNat_ofNat']
      omega
    · simp only [Range.Has, tail, UInt8.toNat_ofNat']
      omega
    · simp only [code, push, mark, List.foldl_nil, List.foldl_cons, List.length_nil,
        List.length_cons, UInt8.toNat_ofNat']
      omega
  · next h₁ h₂ h₃ =>
    have hlead : 0xF0 ≤ (UInt8.ofNat (v / 262144 % 8 + 240)).toNat ∧
        (UInt8.ofNat (v / 262144 % 8 + 240)).toNat ≤ 0xF4 := by
      simp only [UInt8.toNat_ofNat']
      omega
    refine ⟨_, _, rfl, ⟨_, follow_four hlead, .cons ((second_four_iff hlead).mpr ?_)
      (.cons ?_ (.cons ?_ .nil))⟩, ?_⟩
    · simp only [Range.Has, tail, UInt8.toNat_ofNat']
      omega
    · simp only [Range.Has, tail, UInt8.toNat_ofNat']
      omega
    · simp only [Range.Has, tail, UInt8.toNat_ofNat']
      omega
    · simp only [code, push, mark, List.foldl_nil, List.foldl_cons, List.length_nil,
        List.length_cons, UInt8.toNat_ofNat']
      omega

/-- A sequence of the table is a character. -/
theorem exists_char {lead : UInt8} {rest : List UInt8} (h : Follows lead rest) :
    ∃ c : Char, String.utf8EncodeChar c = lead :: rest := by
  have hchar {v : Nat} (hv : v.isValidChar) : (Char.ofNatAux v hv).val.toNat = v := rfl
  obtain ⟨ranges, hlead, hrest⟩ := h
  rcases follow_cases hlead with ⟨hone, rfl⟩ | ⟨hlow, hhigh, rfl⟩ | ⟨hlow, hhigh, rfl⟩ |
      ⟨hlow, hhigh, rfl⟩
  · cases hrest
    refine ⟨Char.ofNatAux lead.toNat (.inl (by omega)), ?_⟩
    rw [String.utf8EncodeChar, hchar, if_pos hone, UInt8.ofNat_toNat]
  · obtain _ | @⟨_, b, _, _, hb, hrest⟩ := hrest
    cases hrest
    have hb : 0x80 ≤ b.toNat ∧ b.toNat ≤ 0xBF := hb
    refine ⟨Char.ofNatAux ((lead.toNat - 0xC0) * 64 + b.toNat % 64) (.inl (by omega)), ?_⟩
    rw [String.utf8EncodeChar, hchar, if_neg (by omega), if_pos (by omega), List.cons.injEq,
      List.cons.injEq, ← UInt8.toNat_inj, ← UInt8.toNat_inj, UInt8.toNat_ofNat',
      UInt8.toNat_ofNat']
    exact ⟨by omega, by omega, rfl⟩
  · obtain _ | @⟨_, b, _, _, hb, hrest⟩ := hrest
    obtain _ | @⟨_, d, _, _, hd, hrest⟩ := hrest
    cases hrest
    obtain ⟨hb, hleast, hsurrogate⟩ := (second_three_iff ⟨hlow, hhigh⟩).mp hb
    have hb : 0x80 ≤ b.toNat ∧ b.toNat ≤ 0xBF := hb
    have hd : 0x80 ≤ d.toNat ∧ d.toNat ≤ 0xBF := hd
    generalize hv : (lead.toNat - 0xE0) * 64 + b.toNat % 64 = v at hleast hsurrogate
    refine ⟨Char.ofNatAux (v * 64 + d.toNat % 64) (by simp only [Nat.isValidChar]; omega), ?_⟩
    rw [String.utf8EncodeChar, hchar, if_neg (by omega), if_neg (by omega), if_pos (by omega),
      List.cons.injEq, List.cons.injEq, List.cons.injEq, ← UInt8.toNat_inj, ← UInt8.toNat_inj,
      ← UInt8.toNat_inj, UInt8.toNat_ofNat', UInt8.toNat_ofNat', UInt8.toNat_ofNat']
    exact ⟨by omega, by omega, by omega, rfl⟩
  · obtain _ | @⟨_, b, _, _, hb, hrest⟩ := hrest
    obtain _ | @⟨_, d, _, _, hd, hrest⟩ := hrest
    obtain _ | @⟨_, e, _, _, he, hrest⟩ := hrest
    cases hrest
    obtain ⟨hb, hleast, hlast⟩ := (second_four_iff ⟨hlow, hhigh⟩).mp hb
    have hb : 0x80 ≤ b.toNat ∧ b.toNat ≤ 0xBF := hb
    have hd : 0x80 ≤ d.toNat ∧ d.toNat ≤ 0xBF := hd
    have he : 0x80 ≤ e.toNat ∧ e.toNat ≤ 0xBF := he
    generalize hv : (lead.toNat - 0xF0) * 64 + b.toNat % 64 = v at hleast hlast
    refine ⟨Char.ofNatAux ((v * 64 + d.toNat % 64) * 64 + e.toNat % 64)
      (by simp only [Nat.isValidChar]; omega), ?_⟩
    rw [String.utf8EncodeChar, hchar, if_neg (by omega), if_neg (by omega), if_neg (by omega),
      List.cons.injEq, List.cons.injEq, List.cons.injEq, List.cons.injEq, ← UInt8.toNat_inj,
      ← UInt8.toNat_inj, ← UInt8.toNat_inj, ← UInt8.toNat_inj, UInt8.toNat_ofNat',
      UInt8.toNat_ofNat', UInt8.toNat_ofNat', UInt8.toNat_ofNat']
    exact ⟨by omega, by omega, by omega, by omega, rfl⟩

/-- The bytes of some text. -/
def WellFormed (s : List UInt8) : Prop := ∃ t : String, Text.utf8 t = s

theorem wellFormed_iff {s : List UInt8} :
    WellFormed s ↔ ∃ cs : List Char, cs.flatMap String.utf8EncodeChar = s :=
  ⟨fun ⟨t, ht⟩ => ⟨t.toList, ht⟩,
    fun ⟨cs, hcs⟩ => ⟨String.ofList cs, by rw [Text.utf8, String.toList_ofList, hcs]⟩⟩

theorem wellFormed_nil : WellFormed [] := ⟨"", rfl⟩

theorem WellFormed.append {s t : List UInt8} (hs : WellFormed s) (ht : WellFormed t) :
    WellFormed (s ++ t) := by
  obtain ⟨cs, rfl⟩ := wellFormed_iff.mp hs
  obtain ⟨ds, rfl⟩ := wellFormed_iff.mp ht
  exact wellFormed_iff.mpr ⟨cs ++ ds, List.flatMap_append⟩

theorem Follows.wellFormed {lead : UInt8} {rest : List UInt8} (h : Follows lead rest) :
    WellFormed (lead :: rest) := by
  obtain ⟨c, hc⟩ := exists_char h
  exact wellFormed_iff.mpr ⟨[c], by rw [List.flatMap_singleton, hc]⟩

/-- A text that is UTF-8 begins with a sequence of the table, and goes on in UTF-8. -/
theorem wellFormed_cons_iff {lead : UInt8} {s : List UInt8} :
    WellFormed (lead :: s) ↔
      ∃ rest t, s = rest ++ t ∧ Follows lead rest ∧ WellFormed t := by
  constructor
  · intro h
    obtain ⟨cs, hcs⟩ := wellFormed_iff.mp h
    cases cs with
    | nil => cases hcs
    | cons c cs =>
      obtain ⟨first, rest, hc, hfollows, -⟩ := encode_follows c
      rw [List.flatMap_cons, hc, List.cons_append, List.cons.injEq] at hcs
      obtain ⟨rfl, rfl⟩ := hcs
      exact ⟨rest, _, rfl, hfollows, wellFormed_iff.mpr ⟨cs, rfl⟩⟩
  · rintro ⟨rest, t, rfl, hfollows, ht⟩
    exact hfollows.wellFormed.append ht

/-- ASCII characters are UTF-8. -/
theorem wellFormed_ascii {s : List UInt8} (h : ∀ b ∈ s, b.toNat ≤ 0x7F) : WellFormed s := by
  induction s with
  | nil => exact wellFormed_nil
  | cons b s ih =>
    obtain ⟨hb, hs⟩ := List.forall_mem_cons.mp h
    exact wellFormed_cons_iff.mpr ⟨[], s, rfl, ⟨[], follow_one hb, .nil⟩, ih hs⟩

/-- Behind a first byte no byte is below 0x80. -/
theorem Follows.le {lead b : UInt8} {rest : List UInt8} (h : Follows lead rest) (hb : b ∈ rest) :
    0x80 ≤ b.toNat := by
  obtain ⟨ranges, hfollow, hrest⟩ := h
  have hsecond : 0x80 ≤ (second lead).1 := by
    unfold second
    repeat' split
    all_goals decide
  have hranges : ∀ r ∈ ranges, 0x80 ≤ r.1 := by
    rcases follow_cases hfollow with ⟨-, rfl⟩ | ⟨-, -, rfl⟩ | ⟨-, -, rfl⟩ | ⟨-, -, rfl⟩
    all_goals simp [tail, hsecond]
  clear hfollow
  induction hrest with
  | nil => cases hb
  | @cons r first ranges rest hfirst _ ih =>
    obtain ⟨hr, hranges⟩ := List.forall_mem_cons.mp hranges
    rcases List.mem_cons.mp hb with rfl | hb
    · exact Nat.le_trans hr hfirst.1
    · exact ih hb hranges

/-- The text of bytes that are UTF-8. -/
def text (s : List UInt8) : String := (String.fromUTF8? s.toByteArray).getD ""

@[simp] theorem text_utf8 (t : String) : text (Text.utf8 t) = t := by
  have hbytes : (Text.utf8 t).toByteArray = t.toByteArray := by
    rw [Text.utf8, ← String.utf8Encode_toList, List.utf8Encode]
  have hvalid : (Text.utf8 t).toByteArray.IsValidUTF8 := hbytes ▸ t.isValidUTF8
  rw [text, String.fromUTF8?, dif_pos hvalid, Option.getD_some, ← String.toByteArray_inj]
  exact hbytes

theorem utf8_inj {t u : String} : Text.utf8 t = Text.utf8 u ↔ t = u :=
  ⟨fun h => by rw [← text_utf8 t, h, text_utf8], congrArg _⟩

end Utf8
