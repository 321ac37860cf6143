import Mathlib.Data.List.Infix

/-!
# Units in a byte stream

An Annex-B byte stream puts a start code in front of every unit: two or three zero bytes
and a one. A reader finds the units again: one begins behind three bytes `0 0 1` and ends
in front of the next three bytes `0 0 0` or `0 0 1`, or with the stream.

`units_flatMap`: units that hold no such three bytes, and do not end with a zero, are found
as they were put in, whichever of the two codes is in front of each.
-/

namespace AnnexB

/-- The next three bytes are a start code. -/
def atCode (bytes : List UInt8) : Bool := bytes.take 3 == [0, 0, 1]

/-- The next three bytes end a unit. -/
def atEnd (bytes : List UInt8) : Bool := bytes.take 3 == [0, 0, 0] || atCode bytes

/-- The units from here on. `skip` bytes of a start code are still to be passed over;
`unit` is what there is of the unit under way. -/
def scan : Nat → Option (List UInt8) → List UInt8 → List (List UInt8)
  | _, unit, [] => unit.toList
  | skip + 1, unit, _ :: bytes => scan skip unit bytes
  | 0, unit, b :: bytes =>
    if atCode (b :: bytes) then unit.toList ++ scan 2 (some []) bytes
    else if atEnd (b :: bytes) then unit.toList ++ scan 0 none bytes
    else scan 0 (unit.map (· ++ [b])) bytes

/-- The units of a byte stream. -/
def units (bytes : List UInt8) : List (List UInt8) := scan 0 none bytes

/-- A unit that a reader cannot take for the end of itself: no three bytes of it end a
unit, and its last byte is no zero. -/
structure Plain (unit : List UInt8) : Prop where
  inside : ∀ rest ∈ unit.tails, atEnd rest = false
  last : unit.getLast? ≠ some 0

instance : DecidablePred Plain := fun unit =>
  decidable_of_iff ((∀ rest ∈ unit.tails, atEnd rest = false) ∧ unit.getLast? ≠ some 0)
    ⟨fun h => ⟨h.1, h.2⟩, fun h => ⟨h.inside, h.last⟩⟩

/-- A start code. -/
def Code (code : List UInt8) : Prop := code = [0, 0, 1] ∨ code = [0, 0, 0, 1]

/-! ## Reading a unit -/

theorem scan_of_not_atEnd {unit : Option (List UInt8)} {b : UInt8} {bytes : List UInt8}
    (h : atEnd (b :: bytes) = false) :
    scan 0 unit (b :: bytes) = scan 0 (unit.map (· ++ [b])) bytes := by
  have hcode : atCode (b :: bytes) = false := by
    rw [atEnd, Bool.or_eq_false_iff] at h
    exact h.2
  rw [scan, if_neg (by rw [hcode]; decide), if_neg (by rw [h]; decide)]

/-- What begins with two zeros goes on with a byte of its own. -/
theorem atEnd_iff {bytes : List UInt8} :
    atEnd bytes = true ↔ ∃ b rest, bytes = 0 :: 0 :: b :: rest ∧ (b = 0 ∨ b = 1) := by
  unfold atEnd atCode
  constructor
  · intro h
    match bytes, h with
    | a :: b :: c :: rest, h =>
      simp only [List.take_succ_cons, List.take_zero, Bool.or_eq_true, beq_iff_eq,
        List.cons.injEq, and_true] at h
      rcases h with ⟨rfl, rfl, rfl⟩ | ⟨rfl, rfl, rfl⟩
      · exact ⟨_, _, rfl, .inl rfl⟩
      · exact ⟨_, _, rfl, .inr rfl⟩
    | [], h => cases h
    | [_], h => simp at h
    | [_, _], h => simp at h
  · rintro ⟨b, rest, rfl, rfl | rfl⟩
    · rfl
    · rfl

theorem Plain.tail {b : UInt8} {unit : List UInt8} (h : Plain (b :: unit)) : Plain unit where
  inside rest hrest := h.inside rest (by rw [List.tails_cons]; exact List.mem_cons_of_mem _ hrest)
  last hzero := h.last (by
    cases unit with
    | nil => cases hzero
    | cons c unit => rw [List.getLast?_cons_cons, hzero])

/-- The bytes of a unit are no end of it, whatever follows. -/
theorem Plain.not_atEnd {b : UInt8} {unit : List UInt8} (h : Plain (b :: unit))
    (rest : List UInt8) : atEnd (b :: (unit ++ rest)) = false := by
  by_contra htrue
  obtain ⟨c, more, heq, hc⟩ := atEnd_iff.mp (by simpa using htrue)
  -- the three bytes reach over the end of the unit, where there is a zero
  match unit, h, heq with
  | [], h, heq =>
    cases heq
    exact h.last rfl
  | [x], h, heq =>
    cases heq
    exact h.last rfl
  | x :: y :: unit, h, heq =>
    obtain ⟨rfl, rfl, rfl, -⟩ : b = 0 ∧ x = 0 ∧ y = c ∧ unit ++ rest = more := by simpa using heq
    have hinside := h.inside _ (by rw [List.tails_cons]; exact List.mem_cons_self)
    rw [atEnd_iff.mpr ⟨y, unit, rfl, hc⟩] at hinside
    cases hinside

/-- A unit is read up to what follows it. -/
theorem scan_unit {unit : List UInt8} (h : Plain unit) (begun rest : List UInt8) :
    scan 0 (some begun) (unit ++ rest) = scan 0 (some (begun ++ unit)) rest := by
  induction unit generalizing begun with
  | nil => rw [List.nil_append, List.append_nil]
  | cons b unit ih =>
    rw [List.cons_append, scan_of_not_atEnd (h.not_atEnd rest), Option.map_some, ih h.tail,
      List.append_assoc, List.singleton_append]

/-- A start code ends the unit under way and begins another. -/
theorem scan_code {code : List UInt8} (h : Code code) (unit : Option (List UInt8))
    (rest : List UInt8) :
    scan 0 unit (code ++ rest) = unit.toList ++ scan 0 (some []) rest := by
  have hshort (unit : Option (List UInt8)) :
      scan 0 unit ([0, 0, 1] ++ rest) = unit.toList ++ scan 0 (some []) rest := by
    show scan 0 unit (0 :: 0 :: 1 :: rest) = _
    have hcode : atCode (0 :: 0 :: 1 :: rest) = true := rfl
    rw [scan, if_pos hcode, scan, scan]
  rcases h with rfl | rfl
  · exact hshort unit
  · show scan 0 unit (0 :: 0 :: 0 :: 1 :: rest) = _
    have hend : atEnd (0 :: 0 :: 0 :: 1 :: rest) = true := rfl
    rw [scan, if_neg (by simp [atCode]), if_pos hend]
    exact congrArg (unit.toList ++ ·) (hshort none)

/-- The units of a stream are what was put behind its start codes. -/
theorem units_flatMap {stream : List (List UInt8 × List UInt8)}
    (hcode : ∀ u ∈ stream, Code u.1) (hplain : ∀ u ∈ stream, Plain u.2) :
    units (stream.flatMap fun u => u.1 ++ u.2) = stream.map Prod.snd := by
  have hscan : ∀ unit : Option (List UInt8),
      scan 0 unit (stream.flatMap fun u => u.1 ++ u.2) =
        unit.toList ++ stream.map Prod.snd := by
    induction stream with
    | nil =>
      intro unit
      simp [scan]
    | cons u stream ih =>
      intro unit
      obtain ⟨hcode, hcodes⟩ := List.forall_mem_cons.mp hcode
      obtain ⟨hplain, hplains⟩ := List.forall_mem_cons.mp hplain
      rw [List.flatMap_cons, List.append_assoc, scan_code hcode, scan_unit hplain,
        List.nil_append, ih hcodes hplains]
      rfl
  exact hscan none

end AnnexB
