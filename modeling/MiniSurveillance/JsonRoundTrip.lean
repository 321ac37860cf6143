import MiniSurveillance.Base.Outcome
import MiniSurveillance.JsonParser

/-!
# From a JSON value to its text and back

`dump_isOk_iff`: a value is written exactly when its strings and keys are UTF-8.
`reads_value` follows the loop of `parse` along the text of a value: whatever containers
are open in front of it, the loop comes to where the value is placed. So `parse` reads
back what `dump` writes; `dump_parses` puts the two together.
-/

namespace MiniSurveillance

variable {F : Type} {lib : FloatLib F}

namespace BasicJson

theorem Every.self {p : BasicJson F → Prop} {v : BasicJson F} (h : v.Every p) : p v := by
  cases v with
  | array elements => exact h.1
  | object fields => exact h.1
  | _ => exact h

/-! ## What is written -/

theorem dump_string_iff {s out : List UInt8} :
    (string s).dump lib = .ok out ↔
      ∃ t : String, Text.utf8 t = s ∧ quote :: t.toList.flatMap escape ++ [quote] = out := by
  simp only [dump, Outcome.except_bind_eq_ok_iff, Except.ok.injEq, dumpEscaped_eq_ok_iff]
  constructor
  · rintro ⟨body, ⟨t, ht, rfl⟩, rfl⟩
    exact ⟨t, ht, rfl⟩
  · rintro ⟨t, ht, rfl⟩
    exact ⟨_, ⟨t, ht, rfl⟩, rfl⟩

theorem dump_array_iff {elements : List (BasicJson F)} {out : List UInt8} :
    (array elements).dump lib = .ok out ↔
      ∃ body, dumpElements lib elements = .ok body ∧ chr '[' :: body ++ [chr ']'] = out := by
  simp only [dump, Outcome.except_bind_eq_ok_iff, Except.ok.injEq]
  rfl

theorem dump_object_iff {fields : List (List UInt8 × BasicJson F)} {out : List UInt8} :
    (object fields).dump lib = .ok out ↔
      ∃ body, dumpFields lib fields = .ok body ∧ 0x7B :: body ++ [0x7D] = out := by
  simp only [dump, Outcome.except_bind_eq_ok_iff, Except.ok.injEq]

theorem dumpElements_cons_iff {element : BasicJson F} {rest : List (BasicJson F)}
    {out : List UInt8} :
    dumpElements lib (element :: rest) = .ok out ↔
      ∃ first body, element.dump lib = .ok first ∧ dumpElements lib rest = .ok body ∧
        first ++ comma rest ++ body = out := by
  simp only [dumpElements, Outcome.except_bind_eq_ok_iff, Except.ok.injEq]
  constructor
  · rintro ⟨first, hfirst, body, hbody, rfl⟩
    exact ⟨first, body, hfirst, hbody, rfl⟩
  · rintro ⟨first, body, hfirst, hbody, rfl⟩
    exact ⟨first, hfirst, body, hbody, rfl⟩

theorem dumpFields_cons_iff {key : List UInt8} {value : BasicJson F}
    {rest : List (List UInt8 × BasicJson F)} {out : List UInt8} :
    dumpFields lib ((key, value) :: rest) = .ok out ↔
      ∃ (t : String) (first body : List UInt8), Text.utf8 t = key ∧ value.dump lib = .ok first ∧
        dumpFields lib rest = .ok body ∧
        quote :: t.toList.flatMap escape ++ quote :: chr ':' :: first ++ comma rest ++ body =
          out := by
  simp only [dumpFields, Outcome.except_bind_eq_ok_iff, Except.ok.injEq, dumpEscaped_eq_ok_iff]
  constructor
  · rintro ⟨_, ⟨t, ht, rfl⟩, first, hfirst, body, hbody, rfl⟩
    exact ⟨t, first, body, ht, hfirst, hbody, by simp [ascii]⟩
  · rintro ⟨t, first, body, ht, hfirst, hbody, rfl⟩
    exact ⟨_, ⟨t, ht, rfl⟩, first, hfirst, body, hbody, by simp [ascii]⟩

mutual

theorem dump_isOk_iff (v : BasicJson F) :
    (∃ out, v.dump lib = .ok out) ↔ v.Every Utf8Node := by
  cases v with
  | null => simp [dump, Every, Utf8Node]
  | boolean b => cases b <;> simp [dump, Every, Utf8Node]
  | numberInteger n => simp [dump, Every, Utf8Node]
  | numberUnsigned n => simp [dump, Every, Utf8Node]
  | numberFloat x => simp [dump, Every, Utf8Node]
  | string s =>
    simp only [dump_string_iff]
    constructor
    · rintro ⟨_, t, ht, -⟩
      exact ⟨t, ht⟩
    · rintro ⟨t, ht⟩
      exact ⟨_, t, ht, rfl⟩
  | array elements =>
    simp only [dump_array_iff, Every]
    constructor
    · rintro ⟨_, body, hbody, -⟩
      exact ⟨trivial, (dumpElements_isOk_iff elements).mp ⟨body, hbody⟩⟩
    · rintro ⟨-, helements⟩
      obtain ⟨body, hbody⟩ := (dumpElements_isOk_iff elements).mpr helements
      exact ⟨_, body, hbody, rfl⟩
  | object fields =>
    simp only [dump_object_iff, Every]
    constructor
    · rintro ⟨_, body, hbody, -⟩
      exact (dumpFields_isOk_iff fields).mp ⟨body, hbody⟩
    · rintro hfields
      obtain ⟨body, hbody⟩ := (dumpFields_isOk_iff fields).mpr hfields
      exact ⟨_, body, hbody, rfl⟩

theorem dumpElements_isOk_iff (elements : List (BasicJson F)) :
    (∃ out, dumpElements lib elements = .ok out) ↔ EveryElement Utf8Node elements := by
  cases elements with
  | nil => simp [dumpElements, EveryElement]
  | cons element rest =>
    rw [EveryElement, ← dump_isOk_iff element, ← dumpElements_isOk_iff rest]
    simp only [dumpElements_cons_iff]
    constructor
    · rintro ⟨_, first, body, hfirst, hbody, -⟩
      exact ⟨⟨first, hfirst⟩, body, hbody⟩
    · rintro ⟨⟨first, hfirst⟩, body, hbody⟩
      exact ⟨_, first, body, hfirst, hbody, rfl⟩

theorem dumpFields_isOk_iff (fields : List (List UInt8 × BasicJson F)) :
    (∃ out, dumpFields lib fields = .ok out) ↔
      (∀ field ∈ fields, Utf8.WellFormed field.1) ∧ EveryField Utf8Node fields := by
  cases fields with
  | nil => simp [dumpFields, EveryField]
  | cons field rest =>
    obtain ⟨key, value⟩ := field
    have hvalue := dump_isOk_iff value
    have hrest := dumpFields_isOk_iff rest
    rw [EveryField, List.forall_mem_cons, and_and_and_comm, ← hvalue, ← hrest]
    simp only [dumpFields_cons_iff]
    constructor
    · rintro ⟨_, t, first, body, ht, hfirst, hbody, -⟩
      exact ⟨⟨⟨t, ht⟩, first, hfirst⟩, body, hbody⟩
    · rintro ⟨⟨⟨t, ht⟩, first, hfirst⟩, body, hbody⟩
      exact ⟨_, t, first, body, ht, hfirst, hbody, rfl⟩

end

/-! ## What the text is read back to -/

mutual

/-- A number that is not negative comes back as an unsigned one. -/
def normal : BasicJson F → BasicJson F
  | .null => .null
  | .boolean b => .boolean b
  | .numberInteger n => if n < 0 then .numberInteger n else .numberUnsigned n.toUInt64
  | .numberUnsigned n => .numberUnsigned n
  | .numberFloat x => .numberFloat x
  | .string s => .string s
  | .array elements => .array (normalElements elements)
  | .object fields => .object (normalFields fields)

def normalElements : List (BasicJson F) → List (BasicJson F)
  | [] => []
  | element :: rest => element.normal :: normalElements rest

def normalFields : List (List UInt8 × BasicJson F) → List (List UInt8 × BasicJson F)
  | [] => []
  | (key, value) :: rest => (key, value.normal) :: normalFields rest

end

end BasicJson

open BasicJson

/-- The loop in front of the text of a value. -/
def Parsing.reading (lib : FloatLib F) (frames : List (Frame F)) (root : BasicJson F)
    (input : List UInt8) : Parsing F :=
  ⟨(scan lib input).1, (scan lib input).2, frames, root, false⟩

/-- The loop behind the text of a value that was placed. -/
def Parsing.placed (p : List (Frame F) × BasicJson F) (input : List UInt8) : Parsing F :=
  ⟨.endOfInput, input, p.1, p.2, true⟩

/-- From the text of the value the loop comes to where the value is placed. -/
def Reads (lib : FloatLib F) (out : List UInt8) (v : BasicJson F) : Prop :=
  ∀ (frames : List (Frame F)) (root : BasicJson F) (rest : List UInt8)
    (r : Except ParseFault (BasicJson F × List UInt8)), Stops rest →
    (Loops.Ends (parseRound lib) (.reading lib frames root (out ++ rest)) r ↔
      Loops.Ends (parseRound lib) (.placed (handleValue v frames root) rest) r)

/-- The text of a value without parts is one token. -/
def Scans (lib : FloatLib F) (out : List UInt8) (v : BasicJson F) : Prop :=
  ∃ token, (∀ rest, Stops rest → scan lib (out ++ rest) = (token, rest)) ∧
    ∀ rest frames root, parseRound lib ⟨token, rest, frames, root, false⟩ =
      evaluateState lib rest (handleValue v frames root)

theorem Scans.reads {out : List UInt8} {v : BasicJson F} (h : Scans lib out v) :
    Reads lib out v := by
  obtain ⟨token, hscan, hround⟩ := h
  intro frames root rest r hrest
  refine Loops.ends_congr ?_
  rw [Parsing.reading, hscan rest hrest]
  exact hround rest frames root

def Token.startsValue : Token F → Bool
  | .endArray | .endObject | .nameSeparator | .valueSeparator | .parseError | .endOfInput => false
  | _ => true

theorem Scans.startsValue {out : List UInt8} {v : BasicJson F} (h : Scans lib out v)
    {rest : List UInt8} (hrest : Stops rest) : (scan lib (out ++ rest)).1.startsValue = true := by
  obtain ⟨token, hscan, hround⟩ := h
  rw [hscan rest hrest]
  have hparsed := hround rest [] v
  cases token with
  | endArray | endObject | nameSeparator | valueSeparator | parseError | endOfInput => cases hparsed
  | _ => rfl

theorem scans_integer {n : Int64} {out : List UInt8} (h : (numberInteger n).dump lib = .ok out) :
    Scans lib out (numberInteger n).normal := by
  obtain rfl : dumpSigned (fun _ => 0) n = out := Except.ok.inj h
  rw [normal]
  by_cases hneg : n < 0
  · rw [if_pos hneg, dumpSigned_of_neg _ hneg]
    refine ⟨.valueInteger n, fun rest hrest => ?_, fun _ _ _ => rfl⟩
    have hint : -(n.toInt.natAbs : Int) = n.toInt := by
      rw [Int64.lt_iff_toInt_lt, Int64.toInt_zero] at hneg
      omega
    rw [scan_negative (by have := n.le_toInt; omega) hrest, hint, Int64.ofInt_toInt]
  · rw [if_neg hneg, dumpSigned_of_nonneg _ hneg]
    refine ⟨.valueUnsigned n.toUInt64, fun rest hrest => ?_, fun _ _ _ => rfl⟩
    have hnat : n.toInt.toNat = n.toUInt64.toNat := by
      rcases toInt_cases n with ⟨h, -⟩ | ⟨-, heq⟩
      · exact absurd h hneg
      · rw [heq, Int.toNat_natCast]
    rw [hnat, scan_decimal n.toUInt64.toNat_lt hrest, UInt64.ofNat_toNat]

theorem scan_quoted (t : String) (rest : List UInt8) :
    scan lib (quote :: t.toList.flatMap escape ++ quote :: rest) =
      (.valueString (Text.utf8 t), rest) := by
  rw [List.cons_append, scan, List.dropWhile_cons_of_neg (by decide)]
  dsimp only
  rw [if_neg (by decide), if_neg (by decide), if_neg (by decide), if_neg (by decide),
    if_neg (by decide), if_neg (by decide), if_neg (by decide), if_neg (by decide),
    if_neg (by decide), if_pos rfl, scanString_escaped]

theorem scans_string {s out : List UInt8} (h : (string s : BasicJson F).dump lib = .ok out) :
    Scans lib out (string s) := by
  obtain ⟨t, rfl, rfl⟩ := dump_string_iff.mp h
  refine ⟨.valueString (Text.utf8 t), fun rest _ => ?_, fun _ _ _ => rfl⟩
  rw [List.append_assoc, List.singleton_append]
  exact scan_quoted t rest

def IsContainer : BasicJson F → Prop
  | .array _ | .object _ => True
  | _ => False

theorem scans_scalar {v : BasicJson F} {out : List UInt8} (h : v.dump lib = .ok out)
    (hfloat : v.NotFloat) (hscalar : ¬ IsContainer v) : Scans lib out v.normal := by
  cases v with
  | null =>
    obtain rfl := Except.ok.inj h
    exact ⟨.literalNull, fun _ _ => rfl, fun _ _ _ => rfl⟩
  | boolean b =>
    cases b with
    | true =>
      obtain rfl := Except.ok.inj h
      exact ⟨.literalTrue, fun _ _ => rfl, fun _ _ _ => rfl⟩
    | false =>
      obtain rfl := Except.ok.inj h
      exact ⟨.literalFalse, fun _ _ => rfl, fun _ _ _ => rfl⟩
  | numberInteger n => exact scans_integer h
  | numberUnsigned n =>
    obtain rfl : dumpUnsigned (fun _ => 0) n = out := Except.ok.inj h
    refine ⟨.valueUnsigned n, fun rest hrest => ?_, fun _ _ _ => rfl⟩
    rw [dumpUnsigned_eq, scan_decimal n.toNat_lt hrest, UInt64.ofNat_toNat]
  | numberFloat x => exact hfloat.elim
  | string s => exact scans_string h
  | array elements => exact absurd trivial hscalar
  | object fields => exact absurd trivial hscalar

/-- No text of a value begins like the end of an array or an error. -/
theorem scan_dump_startsValue {v : BasicJson F} {out : List UInt8} (h : v.dump lib = .ok out)
    (hfloat : v.NotFloat) {rest : List UInt8} (hrest : Stops rest) :
    (scan lib (out ++ rest)).1.startsValue = true := by
  by_cases hscalar : IsContainer v
  · cases v with
    | array elements =>
      obtain ⟨body, -, rfl⟩ := dump_array_iff.mp h
      rfl
    | object fields =>
      obtain ⟨body, -, rfl⟩ := dump_object_iff.mp h
      rfl
    | _ => exact hscalar.elim
  · exact (scans_scalar h hfloat hscalar).startsValue hrest

theorem stops_cons {b : UInt8} (h : isDigit b = false ∧ b ≠ chr '.' ∧ b ≠ chr 'e' ∧ b ≠ chr 'E')
    (rest : List UInt8) : Stops (b :: rest) := by
  rintro c hc
  obtain rfl := Option.some.inj hc
  exact h

/-- Behind an element comes a comma or the closing bracket. -/
theorem stops_comma {α : Type} (more : List α) (body : List UInt8) {close : UInt8}
    (hclose : close = chr ']' ∨ close = 0x7D) (rest : List UInt8)
    (hbody : more = [] → body = []) : Stops (comma more ++ body ++ close :: rest) := by
  cases more with
  | nil =>
    rw [hbody rfl]
    rcases hclose with rfl | rfl
    · exact stops_cons (by decide) rest
    · exact stops_cons (by decide) rest
  | cons a more => exact stops_cons (by decide) _

/-- A key that comes behind all keys of a map is appended. -/
theorem insertField_append {key : List UInt8} {value : BasicJson F}
    {fields : List (List UInt8 × BasicJson F)} (h : ∀ field ∈ fields, field.1 < key) :
    insertField key value fields = fields ++ [(key, value)] := by
  induction fields with
  | nil => rfl
  | cons field fields ih =>
    obtain ⟨hfield, hfields⟩ := List.forall_mem_cons.mp h
    rw [insertField, if_neg (List.lt_asymm hfield), if_pos hfield, ih hfields]
    rfl

theorem parseKey_quoted (t : String) (fields : List (List UInt8 × BasicJson F))
    (frames : List (Frame F)) (root : BasicJson F) (rest : List UInt8) :
    parseKey lib (scan lib (quote :: t.toList.flatMap escape ++ quote :: chr ':' :: rest)) fields
      frames root = .inl (.reading lib (.object fields (Text.utf8 t) :: frames) root rest) := by
  rw [scan_quoted]
  rfl

/-! ### Rounds around a container -/

section
variable {elements : List (BasicJson F)} {fields : List (List UInt8 × BasicJson F)}
  {key : List UInt8} {frames : List (Frame F)} {root : BasicJson F} {rest : List UInt8}
  {r : Except ParseFault (BasicJson F × List UInt8)}

theorem ends_closeArray :
    Loops.Ends (parseRound lib) (.placed (.array elements :: frames, root) (chr ']' :: rest)) r ↔
      Loops.Ends (parseRound lib) (.placed (handleValue (.array elements) frames root) rest) r := by
  have hround : parseRound lib (.placed (.array elements :: frames, root) (chr ']' :: rest)) =
      .inl ⟨.endArray, rest, (handleValue (.array elements) frames root).1,
        (handleValue (.array elements) frames root).2, true⟩ := rfl
  rw [Loops.ends_inl_iff hround]
  exact Loops.ends_congr rfl

theorem ends_nextElement :
    Loops.Ends (parseRound lib) (.placed (.array elements :: frames, root) (chr ',' :: rest)) r ↔
      Loops.Ends (parseRound lib) (.reading lib (.array elements :: frames) root rest) r := by
  have hround : parseRound lib (.placed (.array elements :: frames, root) (chr ',' :: rest)) =
      .inl (.reading lib (.array elements :: frames) root rest) := rfl
  rw [Loops.ends_inl_iff hround]

theorem ends_openArray (h : (scan lib rest).1.startsValue = true) :
    Loops.Ends (parseRound lib) (.reading lib frames root (chr '[' :: rest)) r ↔
      Loops.Ends (parseRound lib) (.reading lib (.array [] :: frames) root rest) r := by
  refine Loops.ends_inl_iff ?_
  have hreading : Parsing.reading lib frames root (chr '[' :: rest) =
      ⟨.beginArray, rest, frames, root, false⟩ := rfl
  rw [hreading, parseRound]
  dsimp only
  rw [if_neg Bool.false_ne_true]
  split
  · next hscan =>
    rw [hscan] at h
    cases h
  · next hscan => rw [Parsing.reading, hscan]

theorem ends_emptyArray :
    Loops.Ends (parseRound lib) (.reading lib frames root (chr '[' :: chr ']' :: rest)) r ↔
      Loops.Ends (parseRound lib) (.placed (handleValue (.array []) frames root) rest) r :=
  Loops.ends_congr rfl

theorem ends_closeObject :
    Loops.Ends (parseRound lib) (.placed (.object fields key :: frames, root) (0x7D :: rest)) r ↔
      Loops.Ends (parseRound lib) (.placed (handleValue (.object fields) frames root) rest) r := by
  have hround : parseRound lib (.placed (.object fields key :: frames, root) (0x7D :: rest)) =
      .inl ⟨.endObject, rest, (handleValue (.object fields) frames root).1,
        (handleValue (.object fields) frames root).2, true⟩ := rfl
  rw [Loops.ends_inl_iff hround]
  exact Loops.ends_congr rfl

theorem ends_nextField (t : String) :
    Loops.Ends (parseRound lib) (.placed (.object fields key :: frames, root)
      (chr ',' :: (quote :: t.toList.flatMap escape ++ quote :: chr ':' :: rest))) r ↔
    Loops.Ends (parseRound lib)
      (.reading lib (.object fields (Text.utf8 t) :: frames) root rest) r :=
  Loops.ends_inl_iff (parseKey_quoted t fields frames root rest)

theorem ends_openObject (t : String) :
    Loops.Ends (parseRound lib) (.reading lib frames root
      (0x7B :: (quote :: t.toList.flatMap escape ++ quote :: chr ':' :: rest))) r ↔
    Loops.Ends (parseRound lib)
      (.reading lib (.object [] (Text.utf8 t) :: frames) root rest) r := by
  refine Loops.ends_inl_iff ?_
  have hreading (input : List UInt8) : Parsing.reading lib frames root (0x7B :: input) =
      ⟨.beginObject, input, frames, root, false⟩ := rfl
  rw [hreading, parseRound]
  dsimp only
  rw [if_neg Bool.false_ne_true, scan_quoted]
  rfl

theorem ends_emptyObject :
    Loops.Ends (parseRound lib) (.reading lib frames root (0x7B :: 0x7D :: rest)) r ↔
      Loops.Ends (parseRound lib) (.placed (handleValue (.object []) frames root) rest) r :=
  Loops.ends_congr rfl

end

theorem dumpElements_nil {more : List (BasicJson F)} {body : List UInt8}
    (h : dumpElements lib more = .ok body) (hnil : more = []) : body = [] := by
  subst hnil
  exact (Except.ok.inj h).symm

theorem dumpFields_nil {more : List (List UInt8 × BasicJson F)} {body : List UInt8}
    (h : dumpFields lib more = .ok body) (hnil : more = []) : body = [] := by
  subst hnil
  exact (Except.ok.inj h).symm

mutual

/-- The text of a value is read back as the value. -/
theorem reads_value (v : BasicJson F) {out : List UInt8} (h : v.dump lib = .ok out)
    (hfloat : v.Every NotFloat) (hordered : v.Every OrderedNode) : Reads lib out v.normal := by
  cases v with
  | array elements =>
    obtain ⟨body, hbody, rfl⟩ := dump_array_iff.mp h
    intro frames root rest r hrest
    rw [normal]
    cases elements with
    | nil =>
      obtain rfl := Except.ok.inj hbody
      exact ends_emptyArray
    | cons element more =>
      obtain ⟨first, body, hfirst, hmore, rfl⟩ := dumpElements_cons_iff.mp hbody
      have hstops := stops_comma more body (.inl rfl) rest (dumpElements_nil hmore)
      have htext : chr '[' :: (first ++ comma more ++ body) ++ [chr ']'] ++ rest =
          chr '[' :: (first ++ (comma more ++ body ++ chr ']' :: rest)) := by simp
      rw [htext, ends_openArray (scan_dump_startsValue hfirst hfloat.2.1.self hstops),
        reads_value element hfirst hfloat.2.1 hordered.2.1 _ _ _ _ hstops]
      exact reads_elements more hmore hfloat.2.2 hordered.2.2 [element.normal] frames root rest r
  | object fields =>
    obtain ⟨body, hbody, rfl⟩ := dump_object_iff.mp h
    intro frames root rest r hrest
    rw [normal]
    cases fields with
    | nil =>
      obtain rfl := Except.ok.inj hbody
      exact ends_emptyObject
    | cons field more =>
      obtain ⟨key, value⟩ := field
      obtain ⟨t, first, body, rfl, hfirst, hmore, rfl⟩ := dumpFields_cons_iff.mp hbody
      have hstops := stops_comma more body (.inr rfl) rest (dumpFields_nil hmore)
      have htext : 0x7B :: (quote :: t.toList.flatMap escape ++ quote :: chr ':' :: first ++
          comma more ++ body) ++ [0x7D] ++ rest =
          0x7B :: (quote :: t.toList.flatMap escape ++ quote :: chr ':' ::
            (first ++ (comma more ++ body ++ 0x7D :: rest))) := by simp
      obtain ⟨hkeys, hmoreKeys⟩ := List.pairwise_cons.mp hordered.1
      rw [htext, ends_openObject, reads_value value hfirst hfloat.2.1 hordered.2.1 _ _ _ _ hstops]
      exact reads_fields more hmore hfloat.2.2 hordered.2.2 hmoreKeys
        [(Text.utf8 t, value.normal)] (by simpa using hkeys) (Text.utf8 t) frames root rest r
  | null => exact (scans_scalar h trivial id).reads
  | boolean b => exact (scans_scalar h trivial id).reads
  | numberInteger n => exact (scans_scalar h trivial id).reads
  | numberUnsigned n => exact (scans_scalar h trivial id).reads
  | numberFloat x => exact hfloat.elim
  | string s => exact (scans_scalar h trivial id).reads

/-- Behind an element the rest of the array is read. -/
theorem reads_elements (more : List (BasicJson F)) {body : List UInt8}
    (h : dumpElements lib more = .ok body) (hfloat : EveryElement NotFloat more)
    (hordered : EveryElement OrderedNode more) (done : List (BasicJson F))
    (frames : List (Frame F)) (root : BasicJson F) (rest : List UInt8)
    (r : Except ParseFault (BasicJson F × List UInt8)) :
    Loops.Ends (parseRound lib) (.placed (.array done :: frames, root)
      (comma more ++ body ++ chr ']' :: rest)) r ↔
    Loops.Ends (parseRound lib) (.placed
      (handleValue (.array (done ++ normalElements more)) frames root) rest) r := by
  cases more with
  | nil =>
    obtain rfl := Except.ok.inj h
    have hdone : done ++ normalElements [] = done := List.append_nil done
    rw [hdone]
    exact ends_closeArray
  | cons element more =>
    obtain ⟨first, body, hfirst, hmore, rfl⟩ := dumpElements_cons_iff.mp h
    have hstops := stops_comma more body (.inl rfl) rest (dumpElements_nil hmore)
    have htext : comma (element :: more) ++ (first ++ comma more ++ body) ++ chr ']' :: rest =
        chr ',' :: (first ++ (comma more ++ body ++ chr ']' :: rest)) := by simp [comma, ascii]
    have hdone : done ++ normalElements (element :: more) =
        done ++ [element.normal] ++ normalElements more := List.append_cons ..
    rw [htext, ends_nextElement, reads_value element hfirst hfloat.1 hordered.1 _ _ _ _ hstops,
      hdone]
    exact reads_elements more hmore hfloat.2 hordered.2 (done ++ [element.normal]) frames root
      rest r

/-- Behind the value of a key the rest of the object is read, when its keys come in order. -/
theorem reads_fields (more : List (List UInt8 × BasicJson F)) {body : List UInt8}
    (h : dumpFields lib more = .ok body) (hfloat : EveryField NotFloat more)
    (hordered : EveryField OrderedNode more) (hkeys : more.Pairwise fun f g => f.1 < g.1)
    (done : List (List UInt8 × BasicJson F)) (hdone : ∀ g ∈ more, ∀ f ∈ done, f.1 < g.1)
    (key : List UInt8) (frames : List (Frame F)) (root : BasicJson F) (rest : List UInt8)
    (r : Except ParseFault (BasicJson F × List UInt8)) :
    Loops.Ends (parseRound lib) (.placed (.object done key :: frames, root)
      (comma more ++ body ++ 0x7D :: rest)) r ↔
    Loops.Ends (parseRound lib) (.placed
      (handleValue (.object (done ++ normalFields more)) frames root) rest) r := by
  cases more with
  | nil =>
    obtain rfl := Except.ok.inj h
    have hdone : done ++ normalFields [] = done := List.append_nil done
    rw [hdone]
    exact ends_closeObject
  | cons field more =>
    obtain ⟨name, value⟩ := field
    obtain ⟨t, first, body, rfl, hfirst, hmore, rfl⟩ := dumpFields_cons_iff.mp h
    have hstops := stops_comma more body (.inr rfl) rest (dumpFields_nil hmore)
    have htext : comma ((Text.utf8 t, value) :: more) ++ (quote :: t.toList.flatMap escape ++
        quote :: chr ':' :: first ++ comma more ++ body) ++ 0x7D :: rest =
        chr ',' :: (quote :: t.toList.flatMap escape ++ quote :: chr ':' ::
          (first ++ (comma more ++ body ++ 0x7D :: rest))) := by simp [comma, ascii]
    obtain ⟨hnext, hmoreKeys⟩ := List.pairwise_cons.mp hkeys
    obtain ⟨hlast, hdone⟩ := List.forall_mem_cons.mp hdone
    have happend : done ++ normalFields ((Text.utf8 t, value) :: more) =
        done ++ [(Text.utf8 t, value.normal)] ++ normalFields more := List.append_cons ..
    rw [htext, ends_nextField, reads_value value hfirst hfloat.1 hordered.1 _ _ _ _ hstops,
      handleValue, insertField_append hlast, happend]
    refine reads_fields more hmore hfloat.2 hordered.2 hmoreKeys _ ?_ (Text.utf8 t) frames root
      rest r
    intro g hg f hf
    rcases List.mem_append.mp hf with hf | hf
    · exact hdone g hg f hf
    · rw [List.mem_singleton.mp hf]
      exact hnext g hg

end

/-! ## The whole text -/

theorem stops_nil : Stops [] := by
  rintro b ⟨⟩

theorem firstScan_eq {input : List UInt8} (h : ∀ rest, input ≠ 0xEF :: rest) :
    firstScan lib input = scan lib input := by
  unfold firstScan
  split
  · exact absurd rfl (h _)
  · rfl

/-- The text of a value does not begin with a byte order mark. -/
theorem parseStart_dump {v : BasicJson F} {out : List UInt8} (h : v.dump lib = .ok out)
    (hfloat : v.NotFloat) : parseStart lib out = .reading lib [] .null out := by
  have hfirst := scan_dump_startsValue h hfloat stops_nil
  rw [List.append_nil] at hfirst
  rw [parseStart, firstScan_eq]
  · rfl
  · rintro rest rfl
    cases hfirst

theorem parse_of_dump {v : BasicJson F} {out : List UInt8} (h : v.dump lib = .ok out)
    (hfloat : v.Every NotFloat) (hordered : v.Every OrderedNode) :
    parse lib out = .ok v.normal := by
  refine parse_eq_ok_iff.mpr ⟨[], ?_, rfl⟩
  have hreads := reads_value v h hfloat hordered [] .null [] (.ok (v.normal, [])) stops_nil
  rw [List.append_nil] at hreads
  rw [parseStart_dump h hfloat.self]
  exact hreads.mpr (Loops.ends_inr rfl)

namespace BasicJson

mutual

/-- The value read back is written like the first one. -/
theorem dump_normal (v : BasicJson F) : v.normal.dump lib = v.dump lib := by
  cases v with
  | numberInteger n =>
    rw [normal]
    by_cases hneg : n < 0
    · rw [if_pos hneg]
    · rw [if_neg hneg, dump, dump, dumpSigned, if_neg hneg]
  | array elements => rw [normal, dump, dump, dumpElements_normal elements]
  | object fields => rw [normal, dump, dump, dumpFields_normal fields]
  | _ => rfl

theorem dumpElements_normal (elements : List (BasicJson F)) :
    dumpElements lib (normalElements elements) = dumpElements lib elements := by
  cases elements with
  | nil => rfl
  | cons element rest =>
    have hcomma : comma (normalElements rest) = comma rest := by cases rest <;> rfl
    rw [normalElements, dumpElements, dumpElements, dump_normal element, dumpElements_normal rest,
      hcomma]

theorem dumpFields_normal (fields : List (List UInt8 × BasicJson F)) :
    dumpFields lib (normalFields fields) = dumpFields lib fields := by
  cases fields with
  | nil => rfl
  | cons field rest =>
    obtain ⟨key, value⟩ := field
    have hcomma : comma (normalFields rest) = comma rest := by cases rest <;> rfl
    rw [normalFields, dumpFields, dumpFields, dump_normal value, dumpFields_normal rest, hcomma]

end

mutual

/-- Nothing is written behind the end of `string_buffer`. -/
theorem dump_ne_overrun (v : BasicJson F) : v.dump lib ≠ .error .overrun := by
  cases v with
  | string s => exact Outcome.except_bind_ne_error (dumpEscaped_ne_overrun s) nofun
  | array elements => exact Outcome.except_bind_ne_error (dumpElements_ne_overrun elements) nofun
  | object fields => exact Outcome.except_bind_ne_error (dumpFields_ne_overrun fields) nofun
  | boolean b => cases b <;> exact nofun
  | _ => exact nofun

theorem dumpElements_ne_overrun (elements : List (BasicJson F)) :
    dumpElements lib elements ≠ .error .overrun := by
  cases elements with
  | nil => exact nofun
  | cons element rest =>
    refine Outcome.except_bind_ne_error (dump_ne_overrun element) fun _ => ?_
    exact Outcome.except_bind_ne_error (dumpElements_ne_overrun rest) nofun

theorem dumpFields_ne_overrun (fields : List (List UInt8 × BasicJson F)) :
    dumpFields lib fields ≠ .error .overrun := by
  cases fields with
  | nil => exact nofun
  | cons field rest =>
    obtain ⟨key, value⟩ := field
    refine Outcome.except_bind_ne_error (dumpEscaped_ne_overrun key) fun _ => ?_
    refine Outcome.except_bind_ne_error (dump_ne_overrun value) fun _ => ?_
    exact Outcome.except_bind_ne_error (dumpFields_ne_overrun rest) nofun

end

/-- Exactly the values whose strings and keys are UTF-8 have a text, and on the way to it no
buffer is overrun. The text is parsed as the value, numbers aside that change their type, and
parsing keeps it. -/
theorem dump_parses (v : BasicJson F) :
    ((∃ out, v.dump lib = .ok out) ↔ v.Every Utf8Node) ∧
    v.dump lib ≠ .error .overrun ∧
    (∀ m n, (dumpSigned m n).length < numberBufferSize - 1) ∧
    (∀ m n, (dumpUnsigned m n).length < numberBufferSize - 1) ∧
    ∀ out, v.dump lib = .ok out → v.Every NotFloat → v.Every OrderedNode →
      parse lib out = .ok v.normal ∧ v.normal.dump lib = .ok out := by
  refine ⟨dump_isOk_iff v, dump_ne_overrun v, length_dumpSigned_lt, length_dumpUnsigned_lt, ?_⟩
  intro out hout hfloat hordered
  exact ⟨parse_of_dump hout hfloat hordered, (dump_normal v).trans hout⟩

/-- The library of a program that meets no floating-point number. -/
def noFloats : FloatLib Unit := ⟨fun _ => [], fun _ => (), fun _ => false, 0x2E, fun _ => 0⟩

/-- Numbers of either sign, an escape, and a character of two bytes. -/
def numbersAndText : BasicJson Unit :=
  .object [([0x6B], .array [.numberInteger (-1), .numberInteger 2]),
    ([0x6D], .string [0xC3, 0xA9, 0x0A])]

theorem dump_parses_numbersAndText :
    ∃ out, numbersAndText.dump noFloats = .ok out ∧
      parse noFloats out = .ok numbersAndText.normal ∧
      numbersAndText.normal.dump noFloats = .ok out := by
  have hfloat : numbersAndText.Every NotFloat := by
    simp [numbersAndText, Every, EveryElement, EveryField, NotFloat]
  have hordered : numbersAndText.Every OrderedNode := by
    have hkeys : ([0x6B] : List UInt8) < [0x6D] := by decide
    simp [numbersAndText, Every, EveryElement, EveryField, OrderedNode, hkeys]
  have hutf8 : numbersAndText.Every Utf8Node := by
    have hkey : Utf8.WellFormed [0x6B] := ⟨"k", by decide +kernel⟩
    have hname : Utf8.WellFormed [0x6D] := ⟨"m", by decide +kernel⟩
    have htext : Utf8.WellFormed [0xC3, 0xA9, 0x0A] := ⟨"é\n", by decide +kernel⟩
    simp [numbersAndText, Every, EveryElement, EveryField, Utf8Node, hkey, hname, htext]
  obtain ⟨hok, _, _, _, hread⟩ := @dump_parses _ noFloats numbersAndText
  obtain ⟨out, hout⟩ := hok.mpr hutf8
  exact ⟨out, hout, hread out hout hfloat hordered⟩

end BasicJson

namespace BasicJson

mutual

theorem Every.imp {p q : BasicJson F → Prop} (hpq : ∀ v, p v → q v) (v : BasicJson F)
    (h : v.Every p) : v.Every q := by
  cases v with
  | array elements => exact ⟨hpq _ h.1, EveryElement.imp hpq elements h.2⟩
  | object fields => exact ⟨hpq _ h.1, EveryField.imp hpq fields h.2⟩
  | _ => exact hpq _ h

theorem EveryElement.imp {p q : BasicJson F → Prop} (hpq : ∀ v, p v → q v)
    (elements : List (BasicJson F)) (h : EveryElement p elements) : EveryElement q elements := by
  cases elements with
  | nil => trivial
  | cons element rest => exact ⟨Every.imp hpq element h.1, EveryElement.imp hpq rest h.2⟩

theorem EveryField.imp {p q : BasicJson F → Prop} (hpq : ∀ v, p v → q v)
    (fields : List (List UInt8 × BasicJson F)) (h : EveryField p fields) :
    EveryField q fields := by
  cases fields with
  | nil => trivial
  | cons field rest => exact ⟨Every.imp hpq field.2 h.1, EveryField.imp hpq rest h.2⟩

end

theorem dump_of_parsed {v : BasicJson F} (h : v.Every (Parsed lib)) :
    ∃ out, v.dump lib = .ok out :=
  (dump_isOk_iff v).mpr (Every.imp (fun _ hv => hv.utf8) v h)

theorem parse_of_dump_of_parsed {v : BasicJson F} {out : List UInt8} (h : v.Every (Parsed lib))
    (hout : v.dump lib = .ok out) (hfloat : v.Every NotFloat) : parse lib out = .ok v.normal :=
  parse_of_dump hout hfloat (Every.imp (fun _ hv => hv.ordered) v h)

end BasicJson

end MiniSurveillance
