import MiniSurveillance.Base.Outcome

/-!
# JSON replies and `IPCClient::call`

`IPCClient::call` sends a request and reads the reply of the server: a gRPC status
and a body, which is parsed as JSON. The readers are `json::value` of the vendored
library: it raises on a value that is no object and on a field of another type, and
takes its default when the field is missing.

`call_eq_ok_iff` says what comes out of a reply: a null value and `false` when it is
refused, its `reply` field and `true` when its `code` is 200, and an exception on
every other body.
-/

namespace MiniSurveillance

/-- A parsed `nlohmann::json` value. A floating-point number is kept as its part in
front of the point, which is all this program reads of one. The fields of an object
have distinct keys: of a repeated key the parser keeps the last value. -/
inductive Json
  | null
  | boolean (b : Bool)
  | number (n : Int)
  | float (whole : Int)
  | string (t : String)
  | array (elements : List Json)
  | object (fields : List (String × Json))
deriving Repr

/-- What the calls of this program can raise. -/
inductive Fault
  /-- `json::parse_error`. -/
  | parseError
  /-- `json::type_error`. -/
  | typeError
  /-- `std::out_of_range`. -/
  | outOfRange
deriving DecidableEq, Repr

namespace Json

def isObject : Json → Bool
  | .object _ => true
  | _ => false

def isNull : Json → Bool
  | .null => true
  | _ => false

def field (key : String) : Json → Option Json
  | .object fields => fields.lookup key
  | _ => none

/-- `json::value(key, default)`, where `read` is the conversion to the type of the
default. -/
def valueAs {α : Type} (read : Json → Except Fault α) (j : Json) (key : String) (default : α) :
    Except Fault α :=
  if j.isObject then
    match j.field key with
    | some v => read v
    | none => .ok default
  else .error .typeError

def toText : Json → Except Fault String
  | .string t => .ok t
  | _ => .error .typeError

/-- The conversion to `int`: an integer keeps its lowest 32 bits, a floating-point
number outside the range of `int` becomes the least `int`. -/
def toInt : Json → Except Fault Int
  | .number n => .ok (Int.bmod n 4294967296)
  | .float n => .ok (if -2147483648 ≤ n ∧ n ≤ 2147483647 then n else -2147483648)
  | .boolean b => .ok (if b then 1 else 0)
  | _ => .error .typeError

def valueText : Json → String → String → Except Fault String := valueAs toText

def valueInt : Json → String → Int → Except Fault Int := valueAs toInt

def value : Json → String → Json → Except Fault Json := valueAs .ok

/-! ## When a reader returns -/

/-- The value is an object, and its field, if there is one, can be read. -/
def Has {α : Type} (read : Json → Except Fault α) (j : Json) (key : String) : Prop :=
  j.isObject = true ∧ ∀ v, j.field key = some v → ∃ a, read v = .ok a

/-- An object whose field `key` is a text, if there is one. -/
abbrev HasText : Json → String → Prop := Has toText

/-- An object whose field `key` is a number or a boolean, if there is one. -/
abbrev HasInt : Json → String → Prop := Has toInt

/-- The text a field holds, or the default. -/
def text (j : Json) (key default : String) : String :=
  match j.field key with
  | some (.string t) => t
  | _ => default

/-- The `int` a field holds, or the default. -/
def int (j : Json) (key : String) (default : Int) : Int :=
  match (j.field key).map toInt with
  | some (.ok n) => n
  | _ => default

theorem valueAs_eq_ok_iff {α : Type} {read : Json → Except Fault α} {j : Json} {key : String}
    {default a : α} :
    valueAs read j key default = .ok a ↔
      j.isObject = true ∧ ((j.field key = none ∧ default = a) ∨
        ∃ v, j.field key = some v ∧ read v = .ok a) := by
  unfold valueAs
  cases hobj : j.isObject with
  | false => simp
  | true =>
    cases hfield : j.field key with
    | none => simp
    | some v => simp

theorem valueText_eq_ok_iff {j : Json} {key default t : String} :
    j.valueText key default = .ok t ↔ j.HasText key ∧ j.text key default = t := by
  rw [valueText, valueAs_eq_ok_iff, HasText, Has, text]
  cases hfield : j.field key with
  | none => simp
  | some v => cases v <;> simp [toText]

theorem valueInt_eq_ok_iff {j : Json} {key : String} {default n : Int} :
    j.valueInt key default = .ok n ↔ j.HasInt key ∧ j.int key default = n := by
  rw [valueInt, valueAs_eq_ok_iff, HasInt, Has, int]
  cases hfield : j.field key with
  | none => simp
  | some v => cases hv : toInt v <;> simp [hv]

theorem value_eq_ok_iff {j default v : Json} {key : String} :
    j.value key default = .ok v ↔ j.isObject = true ∧ (j.field key).getD default = v := by
  rw [value, valueAs_eq_ok_iff]
  cases hfield : j.field key with
  | none => simp
  | some w => simp

end Json

/-! ## The wrapper -/

/-- What the server answers: a status that is not ok, or a body, which is `none`
when it is not well-formed JSON. -/
inductive Reply
  | notOk
  | body (parsed : Option Json)
deriving Repr

namespace IPCClient

/-- `json::parse`. -/
def parse (parsed : Option Json) : Except Fault Json :=
  match parsed with
  | some j => .ok j
  | none => .error .parseError

/-- `IPCClient::call`, of the reply that the request meets. -/
def call : Reply → Except Fault (Json × Bool)
  | .notOk => .ok (.null, false)
  | .body parsed => do
    let re ← parse parsed
    let code ← re.valueInt "code" 0
    if code = 200 then
      let reply ← re.value "reply" .null
      return (reply, true)
    else return (.null, false)

end IPCClient

/-- The reply is refused: the status is not ok, or the body is an object with another
code than 200. -/
def Reply.Refused : Reply → Prop
  | .notOk => True
  | .body none => False
  | .body (some re) => re.HasInt "code" ∧ re.int "code" 0 ≠ 200

/-- The body is an object with code 200, and `j` is its `reply` field, null when it
has none. -/
def Reply.Answers (r : Reply) (j : Json) : Prop :=
  ∃ re, r = .body (some re) ∧ re.HasInt "code" ∧ re.int "code" 0 = 200 ∧
    (re.field "reply").getD .null = j

/-- The `reply` field of a body with code 200; null when it has none, and for a body
that is refused. -/
def Reply.given : Reply → Json
  | .body (some re) => if re.int "code" 0 = 200 then (re.field "reply").getD .null else .null
  | _ => .null

theorem Reply.Answers.given {r : Reply} {j : Json} (h : r.Answers j) : r.given = j := by
  obtain ⟨re, rfl, -, hcode, hreply⟩ := h
  exact (if_pos hcode).trans hreply

theorem Reply.Refused.given {r : Reply} (h : r.Refused) : r.given = .null := by
  cases r with
  | notOk => rfl
  | body parsed =>
    cases parsed with
    | none => rfl
    | some re => exact if_neg h.2

/-- A body is not refused and an answer. -/
theorem Reply.Answers.not_refused {r : Reply} {j : Json} (h : r.Answers j) : ¬ r.Refused := by
  obtain ⟨re, rfl, -, hcode, -⟩ := h
  exact fun hrefused => hrefused.2 hcode

namespace IPCClient

/-- A body that is JSON, by its `code`. -/
theorem call_body_eq_ok_iff {re j : Json} {ret : Bool} :
    call (.body (some re)) = .ok (j, ret) ↔
      re.HasInt "code" ∧
        if re.int "code" 0 = 200 then (re.field "reply").getD .null = j ∧ ret = true
        else j = .null ∧ ret = false := by
  simp only [call, parse, Outcome.except_bind_eq_ok_iff, Json.valueInt_eq_ok_iff, Except.ok.injEq,
    exists_eq_left']
  constructor
  · rintro ⟨code, ⟨hint, rfl⟩, hrest⟩
    refine ⟨hint, ?_⟩
    split at hrest
    · next hcode =>
      rw [if_pos hcode]
      obtain ⟨v, hv, hpair⟩ := Outcome.except_bind_eq_ok_iff.mp hrest
      cases hpair
      exact ⟨(Json.value_eq_ok_iff.mp hv).2, rfl⟩
    · next hcode =>
      rw [if_neg hcode]
      cases hrest
      exact ⟨rfl, rfl⟩
  · rintro ⟨hint, hrest⟩
    refine ⟨_, ⟨hint, rfl⟩, ?_⟩
    split at hrest
    · next hcode =>
      obtain ⟨hreply, rfl⟩ := hrest
      rw [if_pos hcode]
      exact Outcome.except_bind_eq_ok_iff.mpr
        ⟨j, Json.value_eq_ok_iff.mpr ⟨hint.1, hreply⟩, rfl⟩
    · next hcode =>
      obtain ⟨rfl, rfl⟩ := hrest
      rw [if_neg hcode]
      rfl

/-- What comes out of a reply. -/
theorem call_eq_ok_iff {r : Reply} {j : Json} {ret : Bool} :
    call r = .ok (j, ret) ↔
      (r.Refused ∧ j = .null ∧ ret = false) ∨ (r.Answers j ∧ ret = true) := by
  cases r with
  | notOk => simp [call, Reply.Refused, Reply.Answers, eq_comm]
  | body parsed =>
    cases parsed with
    | none => simp [call, parse, Reply.Refused, Reply.Answers, bind, Except.bind]
    | some re =>
      rw [call_body_eq_ok_iff]
      simp only [Reply.Refused, Reply.Answers, Reply.body.injEq, Option.some.injEq,
        exists_eq_left']
      by_cases hcode : re.int "code" 0 = 200
      · simp [hcode, and_assoc]
      · simp [hcode]

end IPCClient

end MiniSurveillance
