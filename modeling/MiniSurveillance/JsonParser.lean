import MiniSurveillance.JsonLexer

/-!
# Parsing a JSON text

`parse` of the vendored library: the loop of `sax_parse_internal`, with the hierarchy
of open arrays and objects on a stack, and the values it hands to
`json_sax_dom_parser`. There a container is filled in place; here it is kept in its
stack entry until it is closed.

`parse_eq_ok_iff`: the loop always ends, so `parse` is the loop. `parse_every`: in
every value it returns all strings and keys are UTF-8, the keys of every object are
in order, and the floating-point numbers are finite, whatever the text.
-/

namespace MiniSurveillance

/-- What `parse` throws. -/
inductive ParseFault
  /-- `parse_error` 101. -/
  | parseError
  /-- `out_of_range` 406, "number overflow parsing". -/
  | numberOverflow
deriving DecidableEq, Repr

/-- An open container: its entry in `states` is the constructor, its entry in `ref_stack`
what it holds. The value of `key` comes next. -/
inductive Frame (F : Type)
  | array (elements : List (BasicJson F))
  | object (fields : List (List UInt8 × BasicJson F)) (key : List UInt8)

section
variable {F : Type}

/-- Assignment to `operator[]` of the map of an object. -/
def insertField (key : List UInt8) (value : BasicJson F) :
    List (List UInt8 × BasicJson F) → List (List UInt8 × BasicJson F)
  | [] => [(key, value)]
  | (k, v) :: rest =>
    if key < k then (key, value) :: (k, v) :: rest
    else if k < key then (k, v) :: insertField key value rest
    else (k, value) :: rest

/-- `handle_value`, on the open containers and the root. -/
def handleValue (value : BasicJson F) : List (Frame F) → BasicJson F → List (Frame F) × BasicJson F
  | [], _ => ([], value)
  | .array elements :: frames, root => (.array (elements ++ [value]) :: frames, root)
  | .object fields key :: frames, root =>
    (.object (insertField key value fields) key :: frames, root)

/-- The state of the loop in front of a round. -/
structure Parsing (F : Type) where
  lastToken : Token F
  input : List UInt8
  frames : List (Frame F)
  root : BasicJson F
  skipToStateEvaluation : Bool

/-- What a round comes to: the next state, or the result and the rest of the text. -/
abbrev Round (F : Type) := Parsing F ⊕ Except ParseFault (BasicJson F × List UInt8)

variable (lib : FloatLib F)

/-- From the token of a key on: its separator, and the first token of its value. -/
def parseKey (key : Token F × List UInt8) (fields : List (List UInt8 × BasicJson F))
    (frames : List (Frame F)) (root : BasicJson F) : Round F :=
  match key with
  | (.valueString key, input) =>
    match scan lib input with
    | (.nameSeparator, input) =>
      let (token, input) := scan lib input
      .inl ⟨token, input, .object fields key :: frames, root, false⟩
    | _ => .inr (.error .parseError)
  | _ => .inr (.error .parseError)

/-- The part of a round behind a value. -/
def evaluateState (input : List UInt8) : List (Frame F) × BasicJson F → Round F
  | ([], root) => .inr (.ok (root, input))
  | (.array elements :: frames, root) =>
    match scan lib input with
    | (.valueSeparator, input) =>
      let (token, input) := scan lib input
      .inl ⟨token, input, .array elements :: frames, root, false⟩
    | (.endArray, input) =>
      let (frames, root) := handleValue (.array elements) frames root
      .inl ⟨.endArray, input, frames, root, true⟩
    | _ => .inr (.error .parseError)
  | (.object fields _ :: frames, root) =>
    match scan lib input with
    | (.valueSeparator, input) => parseKey lib (scan lib input) fields frames root
    | (.endObject, input) =>
      let (frames, root) := handleValue (.object fields) frames root
      .inl ⟨.endObject, input, frames, root, true⟩
    | _ => .inr (.error .parseError)

/-- One round of the loop of `sax_parse_internal`. -/
def parseRound (s : Parsing F) : Round F :=
  let value (v : BasicJson F) := evaluateState lib s.input (handleValue v s.frames s.root)
  if s.skipToStateEvaluation then evaluateState lib s.input (s.frames, s.root)
  else
    match s.lastToken with
    | .beginObject =>
      match scan lib s.input with
      | (.endObject, input) =>
        evaluateState lib input (handleValue (.object []) s.frames s.root)
      | key => parseKey lib key [] s.frames s.root
    | .beginArray =>
      match scan lib s.input with
      | (.endArray, input) => evaluateState lib input (handleValue (.array []) s.frames s.root)
      | (token, input) => .inl ⟨token, input, .array [] :: s.frames, s.root, false⟩
    | .valueFloat x =>
      if lib.isfinite x then value (.numberFloat x) else .inr (.error .numberOverflow)
    | .literalFalse => value (.boolean false)
    | .literalNull => value .null
    | .literalTrue => value (.boolean true)
    | .valueInteger n => value (.numberInteger n)
    | .valueString t => value (.string t)
    | .valueUnsigned n => value (.numberUnsigned n)
    | _ => .inr (.error .parseError)

/-- The state in front of the first round: the constructor has read a token. -/
def parseStart (text : List UInt8) : Parsing F :=
  let (token, input) := firstScan lib text
  ⟨token, input, [], .null, false⟩

/-- `json::parse`: behind the value only the end of the input may come. -/
def parse (text : List UInt8) : Except ParseFault (BasicJson F) :=
  match Loops.run (parseRound lib) (2 * text.length + 2) (parseStart lib text) with
  | some (.ok (value, rest)) =>
    match (scan lib rest).1 with
    | .endOfInput => .ok value
    | _ => .error .parseError
  | some (.error fault) => .error fault
  | none => .error .parseError

end

/-! ## What holds of a value and of all it contains -/

section
variable {F : Type}

mutual

/-- `p` holds of the value and of every value in it. -/
def BasicJson.Every (p : BasicJson F → Prop) : BasicJson F → Prop
  | .array elements => p (.array elements) ∧ BasicJson.EveryElement p elements
  | .object fields => p (.object fields) ∧ BasicJson.EveryField p fields
  | .null => p .null
  | .boolean b => p (.boolean b)
  | .numberInteger n => p (.numberInteger n)
  | .numberUnsigned n => p (.numberUnsigned n)
  | .numberFloat x => p (.numberFloat x)
  | .string s => p (.string s)

def BasicJson.EveryElement (p : BasicJson F → Prop) : List (BasicJson F) → Prop
  | [] => True
  | element :: rest => element.Every p ∧ BasicJson.EveryElement p rest

def BasicJson.EveryField (p : BasicJson F → Prop) : List (List UInt8 × BasicJson F) → Prop
  | [] => True
  | (_, value) :: rest => value.Every p ∧ BasicJson.EveryField p rest

end

namespace BasicJson

theorem everyElement_iff {p : BasicJson F → Prop} {elements : List (BasicJson F)} :
    EveryElement p elements ↔ ∀ element ∈ elements, element.Every p := by
  induction elements with
  | nil => simp [EveryElement]
  | cons element rest ih => simp [EveryElement, ih]

theorem everyField_iff {p : BasicJson F → Prop} {fields : List (List UInt8 × BasicJson F)} :
    EveryField p fields ↔ ∀ field ∈ fields, field.2.Every p := by
  induction fields with
  | nil => simp [EveryField]
  | cons field rest ih => simp [EveryField, ih]

/-- Strings and keys are UTF-8. -/
def Utf8Node : BasicJson F → Prop
  | .string s => Utf8.WellFormed s
  | .object fields => ∀ field ∈ fields, Utf8.WellFormed field.1
  | _ => True

/-- The fields stand in the order of the map. -/
def OrderedNode : BasicJson F → Prop
  | .object fields => fields.Pairwise fun f g => f.1 < g.1
  | _ => True

def NotFloat : BasicJson F → Prop
  | .numberFloat _ => False
  | _ => True

def FiniteNode (lib : FloatLib F) : BasicJson F → Prop
  | .numberFloat x => lib.isfinite x = true
  | _ => True

/-- What `parse` makes sure of. -/
structure Parsed (lib : FloatLib F) (v : BasicJson F) : Prop where
  utf8 : v.Utf8Node
  ordered : v.OrderedNode
  finite : v.FiniteNode lib

end BasicJson

/-! ## A round -/

variable {lib : FloatLib F}

theorem mem_insertField {key : List UInt8} {value : BasicJson F}
    {fields : List (List UInt8 × BasicJson F)} {field : List UInt8 × BasicJson F}
    (h : field ∈ insertField key value fields) :
    (field.2 = value ∧ (field.1 = key ∨ ∃ old ∈ fields, field.1 = old.1)) ∨ field ∈ fields := by
  induction fields with
  | nil =>
    rw [List.mem_singleton.mp h]
    exact .inl ⟨rfl, .inl rfl⟩
  | cons first rest ih =>
    unfold insertField at h
    split at h
    · rcases List.mem_cons.mp h with rfl | h
      · exact .inl ⟨rfl, .inl rfl⟩
      · exact .inr h
    split at h
    · rcases List.mem_cons.mp h with rfl | h
      · exact .inr List.mem_cons_self
      · rcases ih h with ⟨hvalue, hkey | ⟨old, hold, hkey⟩⟩ | hmem
        · exact .inl ⟨hvalue, .inl hkey⟩
        · exact .inl ⟨hvalue, .inr ⟨old, List.mem_cons_of_mem _ hold, hkey⟩⟩
        · exact .inr (List.mem_cons_of_mem _ hmem)
    · rcases List.mem_cons.mp h with rfl | h
      · exact .inl ⟨rfl, .inr ⟨first, List.mem_cons_self, rfl⟩⟩
      · exact .inr (List.mem_cons_of_mem _ h)

theorem ordered_cons {field first : List UInt8 × BasicJson F}
    {rest : List (List UInt8 × BasicJson F)} (hlt : field.1 < first.1)
    (h : (first :: rest).Pairwise fun f g => f.1 < g.1) :
    (field :: first :: rest).Pairwise fun f g => f.1 < g.1 := by
  refine List.pairwise_cons.mpr ⟨fun other hother => ?_, h⟩
  rcases List.mem_cons.mp hother with rfl | hother
  · exact hlt
  · exact List.lt_trans hlt ((List.pairwise_cons.mp h).1 other hother)

theorem insertField_ordered {key : List UInt8} {value : BasicJson F}
    {fields : List (List UInt8 × BasicJson F)} (h : fields.Pairwise fun f g => f.1 < g.1) :
    (insertField key value fields).Pairwise fun f g => f.1 < g.1 := by
  induction fields with
  | nil => exact List.pairwise_singleton _ _
  | cons first rest ih =>
    obtain ⟨hfirst, hrest⟩ := List.pairwise_cons.mp h
    unfold insertField
    split
    · next hlt => exact ordered_cons hlt h
    split
    · next hlt =>
      refine List.pairwise_cons.mpr ⟨fun field hfield => ?_, ih hrest⟩
      rcases mem_insertField hfield with ⟨-, hkey | ⟨old, hold, hkey⟩⟩ | hmem
      · rw [hkey]
        exact hlt
      · rw [hkey]
        exact hfirst old hold
      · exact hfirst field hmem
    · exact List.pairwise_cons.mpr ⟨hfirst, hrest⟩

/-- The fields of an object, or of a part of one. -/
structure GoodFields (lib : FloatLib F) (fields : List (List UInt8 × BasicJson F)) : Prop where
  ordered : fields.Pairwise fun f g => f.1 < g.1
  utf8 : ∀ field ∈ fields, Utf8.WellFormed field.1
  values : ∀ field ∈ fields, field.2.Every (BasicJson.Parsed lib)

theorem GoodFields.insert {fields : List (List UInt8 × BasicJson F)} (h : GoodFields lib fields)
    {key : List UInt8} (hkey : Utf8.WellFormed key) {value : BasicJson F}
    (hvalue : value.Every (BasicJson.Parsed lib)) :
    GoodFields lib (insertField key value fields) where
  ordered := insertField_ordered h.ordered
  utf8 field hfield := by
    rcases mem_insertField hfield with ⟨-, heq | ⟨old, hold, heq⟩⟩ | hmem
    · rw [heq]
      exact hkey
    · rw [heq]
      exact h.utf8 old hold
    · exact h.utf8 field hmem
  values field hfield := by
    rcases mem_insertField hfield with ⟨heq, -⟩ | hmem
    · rw [heq]
      exact hvalue
    · exact h.values field hmem

theorem GoodFields.every {fields : List (List UInt8 × BasicJson F)} (h : GoodFields lib fields) :
    (BasicJson.object fields).Every (BasicJson.Parsed lib) :=
  ⟨⟨h.utf8, h.ordered, trivial⟩, BasicJson.everyField_iff.mpr h.values⟩

def Frame.Good (lib : FloatLib F) : Frame F → Prop
  | .array elements => ∀ element ∈ elements, element.Every (BasicJson.Parsed lib)
  | .object fields key => GoodFields lib fields ∧ Utf8.WellFormed key

/-- The open containers and the root. -/
structure GoodFrames (lib : FloatLib F) (p : List (Frame F) × BasicJson F) : Prop where
  frames : ∀ frame ∈ p.1, frame.Good lib
  root : p.2.Every (BasicJson.Parsed lib)

theorem GoodFrames.handleValue {frames : List (Frame F)} {root value : BasicJson F}
    (h : GoodFrames lib (frames, root)) (hvalue : value.Every (BasicJson.Parsed lib)) :
    GoodFrames lib (handleValue value frames root) := by
  cases frames with
  | nil => exact ⟨h.frames, hvalue⟩
  | cons frame frames =>
    obtain ⟨hframe, hframes⟩ := List.forall_mem_cons.mp h.frames
    cases frame with
    | array elements =>
      refine ⟨List.forall_mem_cons.mpr ⟨fun element helement => ?_, hframes⟩, h.root⟩
      rcases List.mem_append.mp helement with hold | hnew
      · exact hframe element hold
      · rw [List.mem_singleton.mp hnew]
        exact hvalue
    | object fields key =>
      have hinsert := hframe.1.insert hframe.2 hvalue
      exact ⟨List.forall_mem_cons.mpr ⟨⟨hinsert, hframe.2⟩, hframes⟩, h.root⟩

/-- A state of the loop that some text leads to. -/
structure Parsing.Good (lib : FloatLib F) (s : Parsing F) : Prop where
  frames : GoodFrames lib (s.frames, s.root)
  token : ∀ t, s.lastToken = .valueString t → Utf8.WellFormed t

def Token.isBeginArray : Token F → Bool
  | .beginArray => true
  | _ => false

theorem Token.real_of_isBeginArray {token : Token F} (h : token.isBeginArray = true) :
    token.Real := by
  cases token with
  | beginArray => trivial
  | _ => cases h

/-- Every round reads a token; the one behind a `[` may be the end of the input, which can
be read again. -/
def Parsing.measure (s : Parsing F) : Nat :=
  2 * s.input.length + if s.lastToken.isBeginArray && !s.skipToStateEvaluation then 1 else 0

theorem Parsing.measure_lt {s : Parsing F} {n : Nat} (h : s.input.length < n) :
    s.measure < 2 * n := by
  unfold measure
  split <;> omega

/-- A round goes on below a measure and, when the state before it is good, comes to
good states and values. -/
def Round.Sound (lib : FloatLib F) (good : Prop) (measure : Nat) : Round F → Prop
  | .inl s => s.measure < measure ∧ (good → s.Good lib)
  | .inr (.ok (value, _)) => good → value.Every (BasicJson.Parsed lib)
  | .inr (.error _) => True

theorem Round.Sound.mono {good : Prop} {m n : Nat} {round : Round F} (hle : m ≤ n)
    (h : Round.Sound lib good m round) : Round.Sound lib good n round := by
  cases round with
  | inl s => exact ⟨Nat.lt_of_lt_of_le h.1 hle, h.2⟩
  | inr r =>
    cases r with
    | ok p => exact h
    | error fault => exact h

theorem parseKey_sound {n : Nat} {key : Token F × List UInt8} (hkey : MiniSurveillance.Sound n key)
    {fields : List (List UInt8 × BasicJson F)} {frames : List (Frame F)} {root : BasicJson F}
    {good : Prop} (hfields : good → GoodFields lib fields)
    (hframes : good → GoodFrames lib (frames, root)) :
    Round.Sound lib good (2 * n) (parseKey lib key fields frames root) := by
  obtain ⟨token, input⟩ := key
  unfold parseKey
  split
  · next name input heq =>
    cases heq
    have hseparator := scan_sound lib input
    split
    · next input' hscan =>
      rw [hscan] at hseparator
      have hvalue := scan_sound lib input'
      refine ⟨Parsing.measure_lt ?_, fun hgood => ⟨⟨?_, (hframes hgood).root⟩, hvalue.string⟩⟩
      · exact Nat.lt_of_le_of_lt (Nat.le_trans hvalue.length hseparator.length)
          (hkey.consumed trivial)
      · exact List.forall_mem_cons.mpr
          ⟨⟨hfields hgood, hkey.string name rfl⟩, (hframes hgood).frames⟩
    · trivial
  · trivial

theorem evaluateState_sound (input : List UInt8) {p : List (Frame F) × BasicJson F} {good : Prop}
    (hgood : good → GoodFrames lib p) :
    Round.Sound lib good (2 * input.length) (evaluateState lib input p) := by
  obtain ⟨frames, root⟩ := p
  cases frames with
  | nil => exact fun h => (hgood h).root
  | cons frame frames =>
    have hframe (h : good) := List.forall_mem_cons.mp (hgood h).frames
    have hrest (h : good) : GoodFrames lib (frames, root) := ⟨(hframe h).2, (hgood h).root⟩
    have hscan := scan_sound lib input
    cases frame with
    | array elements =>
      rw [evaluateState]
      split
      · next input' heq =>
        rw [heq] at hscan
        have hvalue := scan_sound lib input'
        refine ⟨Parsing.measure_lt ?_, fun h => ⟨hgood h, hvalue.string⟩⟩
        exact Nat.lt_of_le_of_lt hvalue.length (hscan.consumed trivial)
      · next input' heq =>
        rw [heq] at hscan
        refine ⟨Parsing.measure_lt (hscan.consumed trivial), fun h => ⟨?_, by simp⟩⟩
        exact (hrest h).handleValue
          ⟨⟨trivial, trivial, trivial⟩, BasicJson.everyElement_iff.mpr (hframe h).1⟩
      · trivial
    | object fields key =>
      rw [evaluateState]
      split
      · next input' heq =>
        rw [heq] at hscan
        refine (parseKey_sound (scan_sound lib input') (fun h => (hframe h).1.1) hrest).mono ?_
        exact Nat.mul_le_mul_left 2 hscan.length
      · next input' heq =>
        rw [heq] at hscan
        refine ⟨Parsing.measure_lt (hscan.consumed trivial), fun h => ⟨?_, by simp⟩⟩
        exact (hrest h).handleValue (hframe h).1.1.every
      · trivial

variable (lib) in
theorem parseRound_sound (s : Parsing F) :
    Round.Sound lib (s.Good lib) s.measure (parseRound lib s) := by
  have hle : 2 * s.input.length ≤ s.measure := Nat.le_add_right _ _
  have hscan := scan_sound lib s.input
  -- every token of a value but the brackets
  have hvalue {v : BasicJson F} (hv : s.Good lib → v.Every (BasicJson.Parsed lib)) :
      Round.Sound lib (s.Good lib) s.measure
        (evaluateState lib s.input (handleValue v s.frames s.root)) :=
    (evaluateState_sound s.input fun h => h.frames.handleValue (hv h)).mono hle
  have hempty : GoodFields lib ([] : List (List UInt8 × BasicJson F)) :=
    ⟨.nil, by simp, by simp⟩
  obtain ⟨token, input, frames, root, skip⟩ := s
  unfold parseRound
  dsimp only at hle hscan hvalue ⊢
  cases skip with
  | true => exact (evaluateState_sound input fun h => h.frames).mono hle
  | false =>
    cases token with
    | literalTrue => exact hvalue fun _ => ⟨trivial, trivial, trivial⟩
    | literalFalse => exact hvalue fun _ => ⟨trivial, trivial, trivial⟩
    | literalNull => exact hvalue fun _ => ⟨trivial, trivial, trivial⟩
    | valueString t => exact hvalue fun h => ⟨h.token t rfl, trivial, trivial⟩
    | valueUnsigned n => exact hvalue fun _ => ⟨trivial, trivial, trivial⟩
    | valueInteger n => exact hvalue fun _ => ⟨trivial, trivial, trivial⟩
    | valueFloat x =>
      dsimp only
      rw [if_neg Bool.false_ne_true]
      split
      · next hfinite => exact hvalue fun _ => ⟨trivial, trivial, hfinite⟩
      · trivial
    | beginArray =>
      dsimp only
      rw [if_neg Bool.false_ne_true]
      split
      · next input' heq =>
        rw [heq] at hscan
        refine (evaluateState_sound input' fun h => h.frames.handleValue
          ⟨⟨trivial, trivial, trivial⟩, trivial⟩).mono (Nat.le_trans ?_ hle)
        exact Nat.mul_le_mul_left 2 hscan.length
      · next token input' _ heq =>
        rw [heq] at hscan
        refine ⟨?_, fun h => ⟨⟨List.forall_mem_cons.mpr ⟨by simp [Frame.Good], h.frames.frames⟩,
          h.frames.root⟩, hscan.string⟩⟩
        have hlength : input'.length ≤ input.length := hscan.length
        have hbegin : (Token.beginArray : Token F).isBeginArray = true := rfl
        cases hagain : token.isBeginArray with
        | false =>
          simp only [Parsing.measure, hagain, hbegin, Bool.not_false, Bool.and_true, if_true,
            if_neg Bool.false_ne_true]
          omega
        | true =>
          have hlt : input'.length < input.length :=
            hscan.consumed (Token.real_of_isBeginArray hagain)
          simp only [Parsing.measure, hagain, hbegin, Bool.not_false, Bool.and_true, if_true]
          omega
    | beginObject =>
      dsimp only
      rw [if_neg Bool.false_ne_true]
      split
      · next input' heq =>
        rw [heq] at hscan
        refine (evaluateState_sound input' fun h => h.frames.handleValue hempty.every).mono
          (Nat.le_trans ?_ hle)
        exact Nat.mul_le_mul_left 2 hscan.length
      · exact (parseKey_sound hscan (fun _ => hempty) fun h => h.frames).mono hle
    | endArray => trivial
    | endObject => trivial
    | nameSeparator => trivial
    | valueSeparator => trivial
    | parseError => trivial
    | endOfInput => trivial

/-! ## The whole text -/

theorem parseRound_measure (s t : Parsing F) (h : parseRound lib s = .inl t) :
    t.measure < s.measure := by
  have hsound := parseRound_sound lib s
  rw [h] at hsound
  exact hsound.1

theorem firstScan_sound (text : List UInt8) :
    MiniSurveillance.Sound text.length (firstScan lib text) := by
  unfold firstScan
  split
  · next rest =>
    split
    · next rest =>
      have hscan := scan_sound lib rest
      have hlt : rest.length < (0xEF :: 0xBB :: 0xBF :: rest : List UInt8).length := by
        simp only [List.length_cons]
        omega
      exact ⟨Nat.le_of_lt (Nat.lt_of_le_of_lt hscan.length hlt),
        fun _ => Nat.lt_of_le_of_lt hscan.length hlt, hscan.string⟩
    · exact ⟨Nat.le_succ _, False.elim, by simp⟩
  · exact scan_sound lib text

theorem parseStart_good (text : List UInt8) : (parseStart lib text).Good lib :=
  ⟨⟨by simp [parseStart], trivial, trivial, trivial⟩, (firstScan_sound text).string⟩

theorem ends_parse_iff {text : List UInt8} {r : Except ParseFault (BasicJson F × List UInt8)} :
    Loops.Ends (parseRound lib) (parseStart lib text) r ↔
      Loops.run (parseRound lib) (2 * text.length + 2) (parseStart lib text) = some r := by
  refine Loops.ends_iff_run Parsing.measure parseRound_measure ?_
  have hlength : (parseStart lib text).input.length ≤ text.length := (firstScan_sound text).length
  unfold Parsing.measure
  split <;> omega

/-- The loop of `parse` ends on every text. -/
theorem parse_ends (text : List UInt8) :
    ∃ r, Loops.Ends (parseRound lib) (parseStart lib text) r :=
  Loops.ends_of_measure Parsing.measure parseRound_measure _

theorem parse_eq_ok_iff {text : List UInt8} {v : BasicJson F} :
    parse lib text = .ok v ↔ ∃ rest,
      Loops.Ends (parseRound lib) (parseStart lib text) (.ok (v, rest)) ∧
      (scan lib rest).1 = .endOfInput := by
  simp only [ends_parse_iff]
  unfold parse
  split
  · next value rest hrun =>
    split
    · next hend =>
      simp only [hrun, Option.some.injEq, Except.ok.injEq, Prod.mk.injEq]
      constructor
      · rintro rfl
        exact ⟨rest, ⟨rfl, rfl⟩, hend⟩
      · rintro ⟨-, ⟨rfl, -⟩, -⟩
        rfl
    · next hend =>
      simp only [hrun, Option.some.injEq, Except.ok.injEq, Prod.mk.injEq, reduceCtorEq,
        false_iff, not_exists, not_and]
      rintro rest' ⟨-, rfl⟩ hscan
      exact hend hscan
  · next fault hrun => simp [hrun]
  · next hrun => simp [hrun]

/-- Whatever the text, a value that `parse` returns is made of UTF-8, of objects in the order
of their maps and of finite numbers. -/
theorem parse_every {text : List UInt8} {v : BasicJson F} (h : parse lib text = .ok v) :
    v.Every (BasicJson.Parsed lib) := by
  obtain ⟨rest, hends, -⟩ := parse_eq_ok_iff.mp h
  refine hends.invariant (I := fun s => s.Good lib)
    (Q := fun r => ∀ v rest, r = .ok (v, rest) → v.Every (BasicJson.Parsed lib))
    ?_ ?_ (parseStart_good text) v rest rfl
  · intro s t hs hround
    have hsound := parseRound_sound lib s
    rw [hround] at hsound
    exact hsound.2 hs
  · rintro s r hs hround v rest rfl
    have hsound := parseRound_sound lib s
    rw [hround] at hsound
    exact hsound hs

end

end MiniSurveillance
