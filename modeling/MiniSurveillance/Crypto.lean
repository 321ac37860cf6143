import MiniSurveillance.Base.Bytes
import MiniSurveillance.Base.Loops

/-!
# The stream cipher

`Crypto::crypt` XORs a buffer with a repeated key, one key-length chunk a round.
A round takes at least one byte when the key has one, so the loop ends
(`crypt_ends`); whatever it does stays inside the buffer (`crypt_outside`).
`encrypt_spec` says what it does to every byte, and that a second pass undoes it.

`uint32_t len` is below `buf_len` wherever `buf_len - len` is taken, and a chunk is at
most that difference, so neither wraps and both are natural numbers here.
-/

namespace MiniSurveillance.Crypto
open Bytes

/-- `xor_unit`: one pass over the key and the buffer, up to the shorter of both. -/
def xorUnit : List UInt8 → Mem → Nat → Nat → Mem
  | [], buf, _, _ => buf
  | _ :: _, buf, _, 0 => buf
  | k :: key, buf, offset, bufLen + 1 =>
    xorUnit key (write buf offset [buf offset ^^^ k]) (offset + 1) bufLen

/-- One round of the loop in `crypt`; the state is `len` and the buffer. The
conditional is evaluated twice in the source, with the same operands. -/
def cryptRound (key : List UInt8) (offset bufLen len : Nat) (buf : Mem) : (Nat × Mem) ⊕ Mem :=
  if len < bufLen then
    let chunk := if key.length < bufLen - len then key.length else bufLen - len
    .inl (len + chunk, xorUnit key buf (offset + len) chunk)
  else .inr buf

/-- `crypt(key, key_len, buf + offset, buf_len)` leaves the memory as `after`. -/
def Crypts (key : List UInt8) (buf : Mem) (offset bufLen : Nat) (after : Mem) : Prop :=
  Loops.Ends (fun s => cryptRound key offset bufLen s.1 s.2) (0, buf) after

/-- `Crypto::encrypt`. -/
abbrev Encrypts := Crypts

/-- `Crypto::decrypt`. -/
abbrev Decrypts := Crypts

/-- A round takes a whole key of the buffer, takes what is left of it, or leaves. -/
theorem cryptRound_cases (key : List UInt8) (offset bufLen len : Nat) (buf : Mem) :
    (∃ chunk, chunk ≤ key.length ∧ len + chunk ≤ bufLen ∧
      (chunk = key.length ∨ len + chunk = bufLen ∧ 0 < chunk) ∧
      cryptRound key offset bufLen len buf =
        .inl (len + chunk, xorUnit key buf (offset + len) chunk)) ∨
    (bufLen ≤ len ∧ cryptRound key offset bufLen len buf = .inr buf) := by
  by_cases h : len < bufLen
  · refine .inl ⟨if key.length < bufLen - len then key.length else bufLen - len, ?_, ?_, ?_, ?_⟩
    · split <;> omega
    · split <;> omega
    · split <;> omega
    · rw [cryptRound, if_pos h]
  · exact .inr ⟨by omega, by rw [cryptRound, if_neg h]⟩

theorem xorUnit_outside {key : List UInt8} {buf : Mem} {offset bufLen i : Nat}
    (h : i < offset ∨ offset + bufLen ≤ i) : xorUnit key buf offset bufLen i = buf i := by
  induction key generalizing buf offset bufLen with
  | nil => rfl
  | cons k key ih =>
    cases bufLen with
    | zero => rfl
    | succ bufLen =>
      rw [xorUnit, ih (by omega), write_of_not_mem (by simp only [List.length_singleton]; omega)]

/-- With a key of at least one byte the loop ends. -/
theorem crypt_ends {key : List UInt8} (hkey : key ≠ []) (buf : Mem) (offset bufLen : Nat) :
    ∃ after, Crypts key buf offset bufLen after := by
  refine Loops.ends_of_measure (fun s => bufLen - s.1) ?_ (0, buf)
  rintro ⟨len, m⟩ s' h
  rcases cryptRound_cases key offset bufLen len m with ⟨chunk, _, hle, htakes, hr⟩ | ⟨_, hr⟩
  · cases hr.symm.trans h
    have := List.length_pos_iff.mpr hkey
    dsimp only
    omega
  · cases hr.symm.trans h

/-- Decryption writes nothing outside its buffer. -/
theorem crypt_outside {key : List UInt8} {buf after : Mem} {offset bufLen : Nat}
    (h : Crypts key buf offset bufLen after) {i : Nat}
    (hi : i < offset ∨ offset + bufLen ≤ i) : after i = buf i := by
  refine h.invariant (I := fun s => s.1 ≤ bufLen ∧ s.2 i = buf i)
    (Q := fun m => m i = buf i) ?_ ?_ ⟨Nat.zero_le _, rfl⟩
  · rintro ⟨len, m⟩ s' ⟨hlen, hm⟩ hround
    rcases cryptRound_cases key offset bufLen len m with ⟨chunk, _, hle, _, hr⟩ | ⟨_, hr⟩
    · cases hr.symm.trans hround
      exact ⟨hle, (xorUnit_outside (by omega)).trans hm⟩
    · cases hr.symm.trans hround
  · rintro ⟨len, m⟩ m' ⟨_, hm⟩ hround
    rcases cryptRound_cases key offset bufLen len m with ⟨chunk, _, _, _, hr⟩ | ⟨_, hr⟩
    · cases hr.symm.trans hround
    · cases hr.symm.trans hround
      exact hm

/-! ## What the cipher does to a byte -/

/-- The byte of the repeated key at an index. -/
def keyByte (key : List UInt8) (i : Nat) : UInt8 := key.getD (i % key.length) 0

/-- One pass over the key reaches as many bytes as there are in it and in the buffer. -/
theorem xorUnit_inside {key : List UInt8} {buf : Mem} {offset bufLen i : Nat} (hkey : i < key.length)
    (hbuf : i < bufLen) : xorUnit key buf offset bufLen (offset + i) =
      buf (offset + i) ^^^ key.getD i 0 := by
  induction key generalizing buf offset bufLen i with
  | nil => cases hkey
  | cons k key ih =>
    obtain ⟨bufLen, rfl⟩ : ∃ n, bufLen = n + 1 := ⟨bufLen - 1, by omega⟩
    cases i with
    | zero =>
      -- the later bytes of the key leave the first byte of the buffer alone
      rw [xorUnit, xorUnit_outside (by omega)]
      exact write_of_mem (show 0 < [buf offset ^^^ k].length from Nat.zero_lt_one)
    | succ i =>
      rw [xorUnit, show offset + (i + 1) = offset + 1 + i by omega,
        ih (by simpa using hkey) (by omega),
        write_of_not_mem (.inr (by simp only [List.length_singleton]; omega))]
      rfl

/-- Behind `len` bytes of the loop: these are ciphered, and the next one is the first of
a key again. -/
structure Ciphered (key : List UInt8) (buf : Mem) (offset bufLen len : Nat) (m : Mem) : Prop where
  le : len ≤ bufLen
  whole : len < bufLen → key.length ∣ len
  done : ∀ i, i < len → m (offset + i) = buf (offset + i) ^^^ keyByte key i
  left : ∀ i, len ≤ i → m (offset + i) = buf (offset + i)

/-- A round ciphers its chunk. -/
theorem Ciphered.round {key : List UInt8} {buf m : Mem} {offset bufLen len chunk : Nat}
    (h : Ciphered key buf offset bufLen len m) (hkey : chunk ≤ key.length)
    (hbuf : len + chunk ≤ bufLen) (htakes : chunk = key.length ∨ len + chunk = bufLen ∧ 0 < chunk) :
    Ciphered key buf offset bufLen (len + chunk) (xorUnit key m (offset + len) chunk) := by
  refine ⟨hbuf, fun hlt => ?_, fun i hi => ?_, fun i hi => ?_⟩
  · obtain rfl : chunk = key.length := by omega
    exact Nat.dvd_add (h.whole (by omega)) (Nat.dvd_refl _)
  · rcases Nat.lt_or_ge i len with hlt | hge
    · rw [xorUnit_outside (by omega), h.done i hlt]
    · obtain ⟨n, hn⟩ := h.whole (by omega)
      obtain ⟨j, rfl⟩ : ∃ j, i = len + j := ⟨i - len, by omega⟩
      have hj : (len + j) % key.length = j := by
        rw [hn, Nat.mul_add_mod, Nat.mod_eq_of_lt (by omega)]
      rw [← Nat.add_assoc, xorUnit_inside (by omega) (by omega), keyByte, hj, Nat.add_assoc,
        h.left _ hge]
  · rw [xorUnit_outside (by omega), h.left i (by omega)]

/-- The loop ciphers every byte of the buffer. -/
theorem crypt_inside {key : List UInt8} {buf after : Mem} {offset bufLen : Nat}
    (h : Crypts key buf offset bufLen after) {i : Nat} (hi : i < bufLen) :
    after (offset + i) = buf (offset + i) ^^^ keyByte key i := by
  refine h.invariant (I := fun s => Ciphered key buf offset bufLen s.1 s.2)
    (Q := fun m => m (offset + i) = buf (offset + i) ^^^ keyByte key i) ?_ ?_
    ⟨Nat.zero_le _, fun _ => Nat.dvd_zero _, fun _ hi => absurd hi (Nat.not_lt_zero _),
      fun _ _ => rfl⟩
  · rintro ⟨len, m⟩ s' hs hround
    rcases cryptRound_cases key offset bufLen len m with ⟨chunk, hkey, hbuf, htakes, hr⟩ | ⟨_, hr⟩
    · cases hr.symm.trans hround
      exact hs.round hkey hbuf htakes
    · cases hr.symm.trans hround
  · rintro ⟨len, m⟩ m' hs hround
    rcases cryptRound_cases key offset bufLen len m with ⟨chunk, _, _, _, hr⟩ | ⟨hle, hr⟩
    · cases hr.symm.trans hround
    · cases hr.symm.trans hround
      exact hs.done i (Nat.lt_of_lt_of_le hi hle)

/-- A second pass with the same key undoes the first. -/
theorem crypt_undoes {key : List UInt8} {buf after again : Mem} {offset bufLen : Nat}
    (h : Crypts key buf offset bufLen after) (h' : Crypts key after offset bufLen again) :
    again = buf := by
  funext i
  rcases Nat.lt_or_ge i offset with hlt | hge
  · rw [crypt_outside h' (.inl hlt), crypt_outside h (.inl hlt)]
  · rcases Nat.lt_or_ge i (offset + bufLen) with hin | hout
    · obtain ⟨j, rfl⟩ : ∃ j, i = offset + j := ⟨i - offset, by omega⟩
      rw [crypt_inside h' (by omega), crypt_inside h (by omega), UInt8.xor_assoc, UInt8.xor_self,
        UInt8.xor_zero]
    · rw [crypt_outside h' (.inr hout), crypt_outside h (.inr hout)]

/-- With any key of at least one byte encryption ends, has XORed every byte of the buffer
with the byte of the repeated key at its place and touched nothing else, and decryption
with the key brings the buffer back. -/
theorem encrypt_spec {key : List UInt8} (hkey : key ≠ []) (buf : Mem) (offset bufLen : Nat) :
    ∃ after, Encrypts key buf offset bufLen after ∧
      (∀ i, i < bufLen → after (offset + i) =
        buf (offset + i) ^^^ key.getD (i % key.length) 0) ∧
      (∀ i, i < offset ∨ offset + bufLen ≤ i → after i = buf i) ∧
      Decrypts key after offset bufLen buf := by
  obtain ⟨after, h⟩ := crypt_ends hkey buf offset bufLen
  obtain ⟨again, h'⟩ := crypt_ends hkey after offset bufLen
  refine ⟨after, h, fun i hi => crypt_inside h hi, fun i hi => crypt_outside h hi, ?_⟩
  rw [crypt_undoes h h'] at h'
  exact h'

/-- A buffer longer than the key, and no multiple of it. -/
theorem encrypt_spec_fiveBytes :
    ∃ after, Encrypts [0x10, 0x20] (ofList [1, 2, 3, 4, 5]) 0 5 after ∧
      (∀ i, i < 5 → after (0 + i) =
        ofList [1, 2, 3, 4, 5] (0 + i) ^^^ [0x10, 0x20].getD (i % 2) 0) ∧
      (∀ i, i < 0 ∨ 0 + 5 ≤ i → after i = ofList [1, 2, 3, 4, 5] i) ∧
      Decrypts [0x10, 0x20] after 0 5 (ofList [1, 2, 3, 4, 5]) :=
  encrypt_spec (by decide) (ofList [1, 2, 3, 4, 5]) 0 5

end MiniSurveillance.Crypto
