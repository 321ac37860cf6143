import Mathlib.Data.List.TakeWhile
import MiniSurveillance.Base.Agreement
import MiniSurveillance.JsonRoundTrip
import MiniSurveillance.MainCtrl

/-!
# Calls and logins as texts

What goes over the wire: `callText` is `IPCClient::call` on the bodies of the request
and the reply, `loginText` is `login_user` with the two `dump`s it makes of what the
server has said. `callText_agrees` and `loginText_agrees` compare them with the calls on
parsed values: same results, same faults, same states. What `parse` makes sure of
(`parse_every`) is why neither `dump` can raise, and why the page reads from
`getAllDeviceKey` the very list that the server sent.
-/

namespace MiniSurveillance
open Text Agreement

/-- What the calls raise. -/
inductive WireFault
  /-- `type_error` 302 or 306, of a reader. -/
  | typeError
  | dump (e : DumpError)
  | parse (e : ParseFault)
deriving DecidableEq, Repr

/-- The faults of the calls on parsed values that these are, where a text that `parse` refuses
for either reason is no value. No fault is one of a `dump`. -/
inductive Raises : WireFault → Fault → Prop
  | typeError : Raises .typeError .typeError
  | parse (e : ParseFault) : Raises (.parse e) .parseError

section
variable {F : Type}

/-! ## Objects of texts -/

/-- `std::map::emplace`: an entry that is there stays. -/
def emplaceField (key : List UInt8) (value : BasicJson F) :
    List (List UInt8 × BasicJson F) → List (List UInt8 × BasicJson F)
  | [] => [(key, value)]
  | (k, v) :: rest =>
    if key < k then (key, value) :: (k, v) :: rest
    else if k < key then (k, v) :: emplaceField key value rest
    else (k, v) :: rest

namespace BasicJson

/-- The constructor from an initializer list, on pairs of texts. -/
def ofPairs (pairs : List (String × String)) : BasicJson F :=
  .object (pairs.foldl (fun fields pair =>
    emplaceField (utf8 pair.1) (.string (utf8 pair.2)) fields) [])

/-- `find`, on an object. -/
def field (key : String) : BasicJson F → Option (BasicJson F)
  | .object fields => fields.lookup (utf8 key)
  | _ => none

/-- `value(key, default)`, where `read` is the conversion to the type of the default. -/
def valueAs {α : Type} (read : BasicJson F → Except WireFault α) (v : BasicJson F) (key : String)
    (default : α) : Except WireFault α :=
  match v with
  | .object fields =>
    match fields.lookup (utf8 key) with
    | some w => read w
    | none => .ok default
  | _ => .error .typeError

def getString : BasicJson F → Except WireFault (List UInt8)
  | .string s => .ok s
  | _ => .error .typeError

/-- `get<int>`. -/
def getInt (lib : FloatLib F) : BasicJson F → Except WireFault Int
  | .numberInteger n => .ok n.toInt32.toInt
  | .numberUnsigned n => .ok n.toUInt32.toInt32.toInt
  | .numberFloat x =>
    .ok (if -2147483648 ≤ lib.trunc x ∧ lib.trunc x ≤ 2147483647 then lib.trunc x else -2147483648)
  | .boolean b => .ok (if b then 1 else 0)
  | _ => .error .typeError

end BasicJson

/-! ## The calls -/

variable (lib : FloatLib F)

/-- `IPCClient::call`, where the server answers a body with a body, or with a status that is
not ok. -/
def IPCClient.callText (ctx : BasicJson F) (server : List UInt8 → Option (List UInt8)) :
    Except WireFault (BasicJson F × Bool) := do
  let body ← (ctx.dump lib).mapError .dump
  match server body with
  | some answer => do
    let re ← (MiniSurveillance.parse lib answer).mapError .parse
    let code ← re.valueAs (BasicJson.getInt lib) "code" 0
    if code = 200 then do
      let reply ← re.valueAs .ok "reply" .null
      return (reply, true)
    else return (.null, false)
  | none => return (.null, false)

/-- The members that `login_user` reads and writes. -/
structure Login where
  rpc : Bool := false
  token : List UInt8 := []
  msgCbThread : Bool := false
  initDeviceList : List UInt8 := []
deriving DecidableEq, Repr

/-- `ret && reply.value("msg", "failure") == "success"`. -/
def saysSuccessText (reply : BasicJson F) (ret : Bool) : Except WireFault Bool :=
  if ret then do
    let msg ← reply.valueAs BasicJson.getString "msg" (utf8 "failure")
    return msg == utf8 "success"
  else .ok false

def loginContext (username password : String) : BasicJson F :=
  .ofPairs [("method", "login"), ("username", username), ("password", password)]

/-- `getAllDeviceKey`. -/
def Login.getAllDeviceKey (s : Login) : String := cStr (Utf8.text s.initDeviceList)

/-- `login_user`. -/
def loginText (username password : String) (server : List UInt8 → Option (List UInt8))
    (s : Login) : Outcome WireFault Login String :=
  if s.rpc then
    (Outcome.ofExcept (IPCClient.callText lib (loginContext username password) server) s).bind
      fun (reply, ret) s =>
    -- the debug output
    (Outcome.ofExcept ((reply.dump lib).mapError .dump) s).bind fun _ s =>
    (Outcome.ofExcept (saysSuccessText reply ret) s).bind fun success s =>
      if success = false then .ok "登录失败" s
      else
        (Outcome.ofExcept (reply.valueAs BasicJson.getString "token" []) s).bind fun token s =>
          if token = [] then .ok "登录失败" { s with token := token }
          else if s.msgCbThread then .crashed
          else
            (Outcome.ofExcept (reply.valueAs .ok "device_list" (.array []))
              { s with token := token, msgCbThread := true }).bind fun list s =>
            (Outcome.ofExcept ((list.dump lib).mapError .dump) s).bind fun text s =>
              .ok "登录成功" { s with initDeviceList := text }
  else .crashed

end

/-! ## What `c_str()` gives of a text -/

/-- A text in UTF-8 without a NUL. -/
structure Printed (out : List UInt8) : Prop where
  utf8 : Utf8.WellFormed out
  noNul : 0 ∉ out

theorem Printed.append {out more : List UInt8} (h : Printed out) (hmore : Printed more) :
    Printed (out ++ more) :=
  ⟨h.utf8.append hmore.utf8, by simp [h.noNul, hmore.noNul]⟩

/-- An ASCII character but NUL. -/
def isAscii (b : UInt8) : Bool := b != 0 && b.toNat ≤ 0x7F

theorem printed_ascii {out : List UInt8} (h : out.all isAscii = true) : Printed out := by
  have hascii (b : UInt8) (hb : b ∈ out) : b ≠ 0 ∧ b.toNat ≤ 0x7F := by
    simpa [isAscii] using List.all_eq_true.mp h b hb
  exact ⟨Utf8.wellFormed_ascii fun b hb => (hascii b hb).2, fun hnul => (hascii 0 hnul).1 rfl⟩

/-- The text is what `c_str()` gives of it. -/
theorem Printed.cStr {out : List UInt8} (h : Printed out) :
    ∃ t : String, Text.utf8 t = out ∧ Text.cStr t = t := by
  obtain ⟨⟨t, rfl⟩, hnul⟩ := h
  refine ⟨t, rfl, ?_⟩
  have hall : t.toList.takeWhile (· ≠ '\x00') = t.toList := by
    refine List.takeWhile_eq_self_iff.mpr fun c hc => decide_eq_true ?_
    rintro rfl
    exact hnul (List.mem_flatMap.mpr ⟨_, hc, List.mem_cons_self⟩)
  rw [Text.cStr, hall, String.ofList_toList]

theorem printed_escape (c : Char) : Printed (escape c) := by
  have hrow : ∀ v < 128, (escape (Char.ofNat v)).all isAscii = true := by decide +kernel
  rcases Nat.lt_or_ge c.val.toNat 0x80 with hlow | hhigh
  · have hescape := hrow c.toNat hlow
    rw [Char.ofNat_toNat] at hescape
    exact printed_ascii hescape
  · rw [escape_of_ge hhigh]
    obtain ⟨lead, rest, hencode, hfollows, hcode⟩ := Utf8.encode_follows c
    rw [hencode]
    refine ⟨hfollows.wellFormed, fun hnul => ?_⟩
    rcases List.mem_cons.mp hnul with rfl | hnul
    · obtain ⟨ranges, hranges, hrest⟩ := hfollows
      cases hranges
      cases hrest
      have hzero : c.val.toNat = 0 := hcode.symm
      omega
    · exact absurd (hfollows.le hnul) (by decide)

theorem printed_escapes (cs : List Char) : Printed (cs.flatMap escape) := by
  induction cs with
  | nil => exact ⟨Utf8.wellFormed_nil, by simp⟩
  | cons c cs ih => exact (printed_escape c).append ih

theorem printed_quoted (t : String) :
    Printed (quote :: t.toList.flatMap escape ++ [quote]) := by
  have hquote : Printed [quote] := printed_ascii (by decide)
  exact (hquote.append (printed_escapes t.toList)).append hquote

theorem printed_decimal (n : Nat) : Printed (decimal n) := by
  refine printed_ascii (List.all_eq_true.mpr fun b hb => ?_)
  have hrow : ∀ b < 256, isDigit (UInt8.ofNat b) = true → isAscii (UInt8.ofNat b) = true := by
    decide +kernel
  have hdigit := hrow _ b.toNat_lt
  rw [UInt8.ofNat_toNat] at hdigit
  exact hdigit (isDigit_decimal hb)

theorem printed_comma {α : Type} (more : List α) : Printed (comma more) := by
  cases more with
  | nil => exact ⟨Utf8.wellFormed_nil, by simp [comma]⟩
  | cons a more =>
    have hcomma : Printed (ascii [',']) := printed_ascii (by decide)
    exact hcomma

namespace BasicJson
variable {F : Type} {lib : FloatLib F}

mutual

theorem dump_printed (v : BasicJson F) {out : List UInt8} (h : v.dump lib = .ok out)
    (hfloat : v.Every NotFloat) : Printed out := by
  cases v with
  | null =>
    obtain rfl := Except.ok.inj h
    exact printed_ascii (by decide)
  | boolean b =>
    cases b with
    | true =>
      obtain rfl := Except.ok.inj h
      exact printed_ascii (by decide)
    | false =>
      obtain rfl := Except.ok.inj h
      exact printed_ascii (by decide)
  | numberInteger n =>
    obtain rfl := Except.ok.inj h
    by_cases hneg : n < 0
    · rw [dumpSigned_of_neg _ hneg]
      have hminus : Printed (ascii ['-']) := printed_ascii (by decide)
      exact hminus.append (printed_decimal _)
    · rw [dumpSigned_of_nonneg _ hneg]
      exact printed_decimal _
  | numberUnsigned n =>
    obtain rfl := Except.ok.inj h
    rw [dumpUnsigned_eq]
    exact printed_decimal _
  | numberFloat x => exact hfloat.elim
  | string s =>
    obtain ⟨t, -, rfl⟩ := dump_string_iff.mp h
    exact printed_quoted t
  | array elements =>
    obtain ⟨body, hbody, rfl⟩ := dump_array_iff.mp h
    have hopen : Printed [chr '['] := printed_ascii (by decide)
    have hclose : Printed [chr ']'] := printed_ascii (by decide)
    exact (hopen.append (dumpElements_printed elements hbody hfloat.2)).append hclose
  | object fields =>
    obtain ⟨body, hbody, rfl⟩ := dump_object_iff.mp h
    have hopen : Printed [0x7B] := printed_ascii (by decide)
    have hclose : Printed [0x7D] := printed_ascii (by decide)
    exact (hopen.append (dumpFields_printed fields hbody hfloat.2)).append hclose

theorem dumpElements_printed (elements : List (BasicJson F)) {out : List UInt8}
    (h : dumpElements lib elements = .ok out) (hfloat : EveryElement NotFloat elements) :
    Printed out := by
  cases elements with
  | nil =>
    obtain rfl := Except.ok.inj h
    exact ⟨Utf8.wellFormed_nil, by simp⟩
  | cons element rest =>
    obtain ⟨first, body, hfirst, hbody, rfl⟩ := dumpElements_cons_iff.mp h
    exact ((dump_printed element hfirst hfloat.1).append (printed_comma rest)).append
      (dumpElements_printed rest hbody hfloat.2)

theorem dumpFields_printed (fields : List (List UInt8 × BasicJson F)) {out : List UInt8}
    (h : dumpFields lib fields = .ok out) (hfloat : EveryField NotFloat fields) :
    Printed out := by
  cases fields with
  | nil =>
    obtain rfl := Except.ok.inj h
    exact ⟨Utf8.wellFormed_nil, by simp⟩
  | cons field rest =>
    obtain ⟨key, value⟩ := field
    obtain ⟨t, first, body, -, hfirst, hbody, rfl⟩ := dumpFields_cons_iff.mp h
    have hcolon : Printed [chr ':'] := printed_ascii (by decide)
    have hname : Printed (quote :: t.toList.flatMap escape ++ quote :: [chr ':']) := by
      have happend := (printed_quoted t).append hcolon
      rwa [List.append_assoc] at happend
    have htext := ((hname.append (dump_printed value hfirst hfloat.1)).append
      (printed_comma rest)).append (dumpFields_printed rest hbody hfloat.2)
    rwa [List.append_assoc _ (quote :: [chr ':']) first] at htext

end

end BasicJson

/-! ## The value a text stands for -/

section
variable {F : Type}

namespace BasicJson
variable (lib : FloatLib F)

mutual

/-- The value as the calls on parsed values see it. -/
def toJson : BasicJson F → Json
  | .null => .null
  | .boolean b => .boolean b
  | .numberInteger n => .number n.toInt
  | .numberUnsigned n => .number n.toNat
  | .numberFloat x => .float (lib.trunc x)
  | .string s => .string (Utf8.text s)
  | .array elements => .array (elementsToJson elements)
  | .object fields => .object (fieldsToJson fields)

def elementsToJson : List (BasicJson F) → List Json
  | [] => []
  | element :: rest => element.toJson :: elementsToJson rest

def fieldsToJson : List (List UInt8 × BasicJson F) → List (String × Json)
  | [] => []
  | (key, value) :: rest => (Utf8.text key, value.toJson) :: fieldsToJson rest

end

end BasicJson

/-- What a server's answer is to the calls on parsed values. -/
def Reply.answered (lib : FloatLib F) : Option (List UInt8) → Reply
  | some answer => .body ((parse lib answer).toOption.map (BasicJson.toJson lib))
  | none => .notOk

namespace BasicJson
variable {lib : FloatLib F}

mutual

/-- Reading a text back changes no value. -/
theorem toJson_normal (v : BasicJson F) : v.normal.toJson lib = v.toJson lib := by
  cases v with
  | numberInteger n =>
    rw [normal]
    by_cases hneg : n < 0
    · rw [if_pos hneg]
    · rw [if_neg hneg, toJson, toJson]
      rcases toInt_cases n with ⟨h, -⟩ | ⟨-, heq⟩
      · exact absurd h hneg
      · rw [heq]
  | array elements => rw [normal, toJson, toJson, elementsToJson_normal elements]
  | object fields => rw [normal, toJson, toJson, fieldsToJson_normal fields]
  | _ => rfl

theorem elementsToJson_normal (elements : List (BasicJson F)) :
    elementsToJson lib (normalElements elements) = elementsToJson lib elements := by
  cases elements with
  | nil => rfl
  | cons element rest =>
    rw [normalElements, elementsToJson, elementsToJson, toJson_normal element,
      elementsToJson_normal rest]

theorem fieldsToJson_normal (fields : List (List UInt8 × BasicJson F)) :
    fieldsToJson lib (normalFields fields) = fieldsToJson lib fields := by
  cases fields with
  | nil => rfl
  | cons field rest =>
    obtain ⟨key, value⟩ := field
    rw [normalFields, fieldsToJson, fieldsToJson, toJson_normal value, fieldsToJson_normal rest]

end

theorem lookup_fieldsToJson {fields : List (List UInt8 × BasicJson F)}
    (h : ∀ field ∈ fields, Utf8.WellFormed field.1) (key : String) :
    (fieldsToJson lib fields).lookup key = (fields.lookup (utf8 key)).map (toJson lib) := by
  induction fields with
  | nil => rfl
  | cons field rest ih =>
    obtain ⟨name, value⟩ := field
    obtain ⟨⟨t, ht⟩, hrest⟩ := List.forall_mem_cons.mp h
    obtain rfl : utf8 t = name := ht
    rw [fieldsToJson, Utf8.text_utf8, List.lookup_cons, List.lookup_cons]
    have hkey : (utf8 key == utf8 t) = (key == t) := by
      rw [Bool.eq_iff_iff, beq_iff_eq, beq_iff_eq, Utf8.utf8_inj]
    rw [hkey]
    cases key == t with
    | true => rfl
    | false => exact ih hrest

theorem mem_of_lookup {fields : List (List UInt8 × BasicJson F)} {key : List UInt8}
    {value : BasicJson F} (h : fields.lookup key = some value) : (key, value) ∈ fields := by
  induction fields with
  | nil => cases h
  | cons field rest ih =>
    obtain ⟨name, w⟩ := field
    rw [List.lookup_cons] at h
    split at h
    · next hkey =>
      rw [← eq_of_beq hkey, ← Option.some.inj h]
      exact List.mem_cons_self
    · exact List.mem_cons_of_mem _ (ih h)

end BasicJson

/-! ## The readers agree -/

variable {lib : FloatLib F}

/-- A value that `parse` has made, or the calls themselves, and what it stands for. -/
structure Stands (lib : FloatLib F) (v : BasicJson F) (j : Json) : Prop where
  parsed : v.Every (BasicJson.Parsed lib)
  json : v.toJson lib = j

theorem stands_null : Stands lib .null .null := ⟨⟨trivial, trivial, trivial⟩, rfl⟩

theorem stands_noElements : Stands lib (.array []) (.array []) :=
  ⟨⟨⟨trivial, trivial, trivial⟩, trivial⟩, rfl⟩

theorem Stands.valueAs {α β : Type} {A : α → β → Prop} {v : BasicJson F} {j : Json}
    (h : Stands lib v j) {read : BasicJson F → Except WireFault α} {read' : Json → Except Fault β}
    (hread : ∀ w k, Stands lib w k → Values Raises A (read w) (read' k)) (key : String)
    {default : α} {default' : β} (hdefault : A default default') :
    Values Raises A (v.valueAs read key default) (j.valueAs read' key default') := by
  obtain ⟨hparsed, rfl⟩ := h
  cases v with
  | object fields =>
    have hlookup := @BasicJson.lookup_fieldsToJson F lib _ hparsed.1.utf8 key
    simp only [BasicJson.valueAs, Json.valueAs, BasicJson.toJson, Json.isObject, Json.field,
      hlookup, if_true]
    cases hvalue : fields.lookup (utf8 key) with
    | none => exact hdefault
    | some w =>
      have hmem := BasicJson.mem_of_lookup hvalue
      exact hread w _ ⟨BasicJson.everyField_iff.mp hparsed.2 _ hmem, rfl⟩
  | _ => exact Raises.typeError

theorem Stands.value {v : BasicJson F} {j : Json} (h : Stands lib v j) (key : String)
    {default : BasicJson F} {default' : Json} (hdefault : Stands lib default default') :
    Values Raises (Stands lib) (v.valueAs .ok key default) (j.value key default') := by
  have hread (w : BasicJson F) (k : Json) (h : Stands lib w k) :
      Values Raises (Stands lib) (.ok w) (.ok k) := h
  exact h.valueAs hread key hdefault

theorem getString_agrees (w : BasicJson F) (k : Json) (h : Stands lib w k) :
    Values Raises (fun s t => utf8 t = s) w.getString k.toText := by
  obtain ⟨hparsed, rfl⟩ := h
  cases w with
  | string s =>
    obtain ⟨t, rfl⟩ := hparsed.utf8
    exact (congrArg utf8 (Utf8.text_utf8 t) :)
  | _ => exact Raises.typeError

theorem getInt_agrees (w : BasicJson F) (k : Json) (h : Stands lib w k) :
    Values Raises Eq (w.getInt lib) k.toInt := by
  obtain ⟨-, rfl⟩ := h
  cases w with
  | numberInteger n => exact n.toInt_toInt32
  | numberUnsigned n =>
    have hbits : n.toUInt32.toInt32.toInt = Int.bmod n.toUInt32.toNat 4294967296 :=
      n.toUInt32.toBitVec.toInt_eq_toNat_bmod
    refine hbits.trans ?_
    rw [UInt64.toNat_toUInt32, Int.natCast_emod]
    exact Int.emod_bmod ..
  | numberFloat x => rfl
  | boolean b => rfl
  | _ => exact Raises.typeError

theorem parse_agrees (answer : List UInt8) :
    Values Raises (Stands lib) ((parse lib answer).mapError .parse)
      (IPCClient.parse ((parse lib answer).toOption.map (BasicJson.toJson lib))) := by
  cases hparse : parse lib answer with
  | ok v => exact ⟨parse_every hparse, rfl⟩
  | error e => exact Raises.parse e

/-- A call on texts is a call on what the server's text stands for. -/
theorem callText_agrees {ctx : BasicJson F} {body : List UInt8} (hbody : ctx.dump lib = .ok body)
    (server : List UInt8 → Option (List UInt8)) :
    Values Raises (fun p q => Stands lib p.1 q.1 ∧ p.2 = q.2) (IPCClient.callText lib ctx server)
      (IPCClient.call (.answered lib (server body))) := by
  have hcall : IPCClient.callText lib ctx server =
      match server body with
      | some answer => do
        let re ← (parse lib answer).mapError .parse
        let code ← re.valueAs (BasicJson.getInt lib) "code" 0
        if code = 200 then do
          let reply ← re.valueAs .ok "reply" .null
          return (reply, true)
        else return (.null, false)
      | none => return (.null, false) := by
    rw [IPCClient.callText, hbody]
    rfl
  rw [hcall]
  cases server body with
  | none => exact ⟨stands_null, rfl⟩
  | some answer =>
    refine Values.bind (parse_agrees answer) fun re j hre => ?_
    refine Values.bind (hre.valueAs getInt_agrees "code" rfl) ?_
    rintro code _ rfl
    refine .ite Iff.rfl ?_ ⟨stands_null, rfl⟩
    exact Values.bind (hre.value "reply" stands_null) fun reply j h => ⟨h, rfl⟩

end

/-! ## Requests -/

section
variable {F : Type} {lib : FloatLib F}

theorem mem_emplaceField {key : List UInt8} {value : BasicJson F}
    {fields : List (List UInt8 × BasicJson F)} {field : List UInt8 × BasicJson F}
    (h : field ∈ emplaceField key value fields) : field = (key, value) ∨ field ∈ fields := by
  induction fields with
  | nil => exact .inl (List.mem_singleton.mp h)
  | cons first rest ih =>
    unfold emplaceField at h
    split at h
    · exact List.mem_cons.mp h
    split at h
    · rcases List.mem_cons.mp h with rfl | h
      · exact .inr List.mem_cons_self
      · exact (ih h).imp_right (List.mem_cons_of_mem _)
    · exact .inr h

theorem emplaceField_ordered {key : List UInt8} {value : BasicJson F}
    {fields : List (List UInt8 × BasicJson F)} (h : fields.Pairwise fun f g => f.1 < g.1) :
    (emplaceField key value fields).Pairwise fun f g => f.1 < g.1 := by
  induction fields with
  | nil => exact List.pairwise_singleton _ _
  | cons first rest ih =>
    obtain ⟨hfirst, hrest⟩ := List.pairwise_cons.mp h
    unfold emplaceField
    split
    · next hlt => exact ordered_cons hlt h
    split
    · next hlt =>
      refine List.pairwise_cons.mpr ⟨fun field hfield => ?_, ih hrest⟩
      rcases mem_emplaceField hfield with rfl | hmem
      · exact hlt
      · exact hfirst field hmem
    · exact h

/-- The entry that stood first for a key stays. -/
theorem lookup_emplaceField {key : List UInt8} {value : BasicJson F}
    {fields : List (List UInt8 × BasicJson F)} (h : fields.Pairwise fun f g => f.1 < g.1)
    (k : List UInt8) :
    (emplaceField key value fields).lookup k =
      (fields.lookup k).or (if k = key then some value else none) := by
  induction fields with
  | nil =>
    rw [emplaceField, List.lookup_cons, List.lookup_nil, Option.none_or]
    by_cases hk : k = key
    · rw [if_pos hk, beq_iff_eq.mpr hk]
    · rw [if_neg hk, beq_eq_false_iff_ne.mpr hk]
  | cons first rest ih =>
    obtain ⟨name, w⟩ := first
    obtain ⟨hfirst, hrest⟩ := List.pairwise_cons.mp h
    unfold emplaceField
    split
    · next hlt =>
      by_cases hk : k = key
      · -- the key comes before all keys of the map
        subst hk
        have hnone : ((name, w) :: rest).lookup k = none := by
          refine List.lookup_eq_none_iff.mpr fun field hfield => ?_
          refine bne_iff_ne.mpr fun heq => ?_
          rcases List.mem_cons.mp hfield with rfl | hfield
          · exact List.lt_irrefl _ (heq ▸ hlt)
          · exact List.lt_irrefl _ (heq ▸ List.lt_trans hlt (hfirst field hfield))
        rw [hnone, List.lookup_cons_self, if_pos rfl, Option.none_or]
      · rw [List.lookup_cons, beq_eq_false_iff_ne.mpr hk, if_neg hk, Option.or_none]
    split
    · rw [List.lookup_cons, List.lookup_cons, ih hrest]
      cases k == name <;> rfl
    · next hge hle =>
      have hkey : key = name := List.le_antisymm (List.not_lt.mp hle) (List.not_lt.mp hge)
      by_cases hk : k = key
      · rw [hk, hkey, List.lookup_cons_self, Option.some_or]
      · rw [if_neg hk, Option.or_none]

namespace BasicJson

/-- The fields of an object of texts. -/
structure Texts (fields : List (List UInt8 × BasicJson F)) : Prop where
  ordered : fields.Pairwise fun f g => f.1 < g.1
  texts : ∀ field ∈ fields, ∃ name t, field = (utf8 name, .string (utf8 t))

theorem Texts.emplace {fields : List (List UInt8 × BasicJson F)} (h : Texts fields)
    (name t : String) : Texts (emplaceField (utf8 name) (.string (utf8 t)) fields) where
  ordered := emplaceField_ordered h.ordered
  texts field hfield := by
    rcases mem_emplaceField hfield with rfl | hmem
    · exact ⟨name, t, rfl⟩
    · exact h.texts field hmem

theorem texts_foldl (pairs : List (String × String)) {fields : List (List UInt8 × BasicJson F)}
    (h : Texts fields) :
    Texts (pairs.foldl (fun fields pair =>
      emplaceField (utf8 pair.1) (.string (utf8 pair.2)) fields) fields) ∧
    ∀ key, (pairs.foldl (fun fields pair =>
      emplaceField (utf8 pair.1) (.string (utf8 pair.2)) fields) fields).lookup (utf8 key) =
        (fields.lookup (utf8 key)).or ((pairs.lookup key).map fun t => .string (utf8 t)) := by
  induction pairs generalizing fields with
  | nil => exact ⟨h, fun key => (Option.or_none).symm⟩
  | cons pair pairs ih =>
    obtain ⟨name, t⟩ := pair
    obtain ⟨htexts, hlookup⟩ := ih (h.emplace name t)
    refine ⟨htexts, fun key => ?_⟩
    rw [List.foldl_cons, hlookup, lookup_emplaceField h.ordered, Option.or_assoc, List.lookup_cons]
    congr 1
    by_cases hkey : key = name
    · rw [if_pos (congrArg utf8 hkey), beq_iff_eq.mpr hkey]
      rfl
    · rw [if_neg (mt Utf8.utf8_inj.mp hkey), beq_eq_false_iff_ne.mpr hkey]
      rfl

theorem Texts.every {p : BasicJson F → Prop} {fields : List (List UInt8 × BasicJson F)}
    (h : Texts fields) (hobject : p (.object fields)) (htext : ∀ t, p (.string (utf8 t))) :
    (object fields).Every p := by
  refine ⟨hobject, everyField_iff.mpr fun field hfield => ?_⟩
  obtain ⟨name, t, rfl⟩ := h.texts field hfield
  exact htext t

theorem Texts.normal {fields : List (List UInt8 × BasicJson F)} (h : Texts fields) :
    normalFields fields = fields := by
  obtain ⟨-, h⟩ := h
  induction fields with
  | nil => rfl
  | cons field rest ih =>
    obtain ⟨⟨name, t, rfl⟩, hrest⟩ := List.forall_mem_cons.mp h
    exact congrArg _ (ih hrest)

end BasicJson

end

namespace BasicJson
variable {F : Type} {lib : FloatLib F}

theorem texts_ofPairs (pairs : List (String × String)) :
    ∃ fields : List (List UInt8 × BasicJson F), ofPairs pairs = .object fields ∧ Texts fields ∧
      ∀ key, fields.lookup (utf8 key) = (pairs.lookup key).map fun t => .string (utf8 t) := by
  obtain ⟨htexts, hlookup⟩ := texts_foldl pairs (F := F) ⟨.nil, by simp⟩
  exact ⟨_, rfl, htexts, hlookup⟩

/-- A request is written, and the server reads it back. -/
theorem ofPairs_read_back (pairs : List (String × String)) :
    ∃ body, (ofPairs pairs).dump lib = .ok body ∧ Printed body ∧
      parse lib body = .ok (ofPairs pairs) := by
  obtain ⟨fields, heq, htexts, -⟩ := texts_ofPairs (F := F) pairs
  have hutf8 : (object fields).Every Utf8Node := by
    refine htexts.every (fun field hfield => ?_) fun t => ⟨t, rfl⟩
    obtain ⟨name, t, rfl⟩ := htexts.texts field hfield
    exact ⟨name, rfl⟩
  have hfloat : (object fields).Every NotFloat := htexts.every trivial fun _ => trivial
  have hordered : (object fields).Every OrderedNode := htexts.every htexts.ordered fun _ => trivial
  obtain ⟨body, hbody⟩ := (@dump_isOk_iff F lib _).mpr hutf8
  have hnormal : (object fields).normal = object fields := congrArg object htexts.normal
  rw [heq]
  exact ⟨body, hbody, dump_printed _ hbody hfloat, hnormal ▸ parse_of_dump hbody hfloat hordered⟩

theorem field_ofPairs (pairs : List (String × String)) (key : String) :
    (ofPairs pairs : BasicJson F).field key = (pairs.lookup key).map fun t => .string (utf8 t) := by
  obtain ⟨fields, heq, -, hlookup⟩ := texts_ofPairs (F := F) pairs
  rw [heq]
  exact hlookup key

end BasicJson

/-! ## Calls and logins -/

section
variable {F : Type} {lib : FloatLib F}

/-- What `parse` returns can be written, and is read back from that text. -/
theorem parse_written {text : List UInt8} {v : BasicJson F} (h : parse lib text = .ok v) :
    ∃ out, v.dump lib = .ok out ∧
      (v.Every BasicJson.NotFloat → Printed out ∧ parse lib out = .ok v.normal) := by
  have hparsed := parse_every h
  obtain ⟨out, hout⟩ := BasicJson.dump_of_parsed hparsed
  exact ⟨out, hout, fun hfloat => ⟨BasicJson.dump_printed v hout hfloat,
    BasicJson.parse_of_dump_of_parsed hparsed hout hfloat⟩⟩

theorem parse_written_numbers :
    ∃ out, (BasicJson.array [.numberInteger 0, .numberUnsigned 200] : BasicJson Unit).dump
        BasicJson.noFloats = .ok out ∧
      ((BasicJson.array [.numberInteger 0, .numberUnsigned 200] : BasicJson Unit).Every
          BasicJson.NotFloat →
        Printed out ∧ parse BasicJson.noFloats out =
          .ok (BasicJson.array [.numberInteger 0, .numberUnsigned 200]).normal) := by
  have hparse : parse BasicJson.noFloats (utf8 "[-0, 200]") =
      .ok (.array [.numberInteger 0, .numberUnsigned 200]) := rfl
  exact parse_written hparse

/-- Every request reaches the server as the texts it is made of, the call does what the call on
parsed values does, and what it returns can be written. -/
theorem request_agrees (pairs : List (String × String))
    (server : List UInt8 → Option (List UInt8)) :
    ∃ body, (BasicJson.ofPairs pairs).dump lib = .ok body ∧ Utf8.WellFormed body ∧
      parse lib body = .ok (.ofPairs pairs) ∧
      (∀ key, (BasicJson.ofPairs pairs : BasicJson F).field key =
        (pairs.lookup key).map fun t => .string (utf8 t)) ∧
      Values Raises
        (fun p q => p.1.toJson lib = q.1 ∧ p.2 = q.2 ∧ ∃ out, p.1.dump lib = .ok out)
        (IPCClient.callText lib (.ofPairs pairs) server)
        (IPCClient.call (.answered lib (server body))) := by
  obtain ⟨body, hbody, hprinted, hparse⟩ := @BasicJson.ofPairs_read_back F lib pairs
  refine ⟨body, hbody, hprinted.utf8, hparse, BasicJson.field_ofPairs pairs, ?_⟩
  exact (callText_agrees hbody server).imp fun p q h =>
    ⟨h.1.json, h.2, BasicJson.dump_of_parsed h.1.parsed⟩

/-! ### Logins -/

/-- The members on both sides, and the list of devices with its text. -/
structure Shows (lib : FloatLib F) (w : Login) (s : MainCtrl) : Prop where
  rpc : w.rpc = s.rpc
  token : w.token = utf8 s.token
  thread : w.msgCbThread = s.msgCbThread
  list : (w.initDeviceList = [] ∧ s.initDeviceList = none) ∨
    ∃ v j, Stands lib v j ∧ v.dump lib = .ok w.initDeviceList ∧ s.initDeviceList = some j

theorem saysSuccessText_agrees {v : BasicJson F} {j : Json} (h : Stands lib v j) (ret : Bool) :
    Values Raises Eq (saysSuccessText v ret) (MainCtrl.saysSuccess j ret) := by
  cases ret with
  | false => rfl
  | true =>
    refine Values.bind (h.valueAs getString_agrees "msg" rfl) ?_
    rintro _ t rfl
    exact (by rw [Bool.eq_iff_iff, beq_iff_eq, beq_iff_eq, Utf8.utf8_inj] :
      (utf8 t == utf8 "success") = (t == "success"))

theorem dump_of_stands {v : BasicJson F} {j : Json} (h : Stands lib v j) :
    ∃ out, (v.dump lib).mapError WireFault.dump = .ok out ∧ v.dump lib = .ok out := by
  obtain ⟨out, hout⟩ := BasicJson.dump_of_parsed h.parsed
  exact ⟨out, by rw [hout]; rfl, hout⟩

/-- `login_user` on texts does what it does on parsed values. -/
theorem loginText_agrees {w : Login} {s : MainCtrl} (h : Shows lib w s)
    {username password : String} {body : List UInt8}
    (hbody : (loginContext username password).dump lib = .ok body)
    (server : List UInt8 → Option (List UInt8)) :
    Calls Raises Eq (Shows lib) (loginText lib username password server w)
      (s.loginUser username password (.answered lib (server body))) := by
  unfold loginText MainCtrl.loginUser MainCtrl.call
  rw [h.rpc]
  cases hrpc : s.rpc with
  | false => trivial
  | true =>
    rw [if_pos rfl, if_pos rfl]
    refine Calls.bind (R := Shows lib) (.ofExcept (callText_agrees hbody server)
      ⟨h.rpc.trans hrpc, h.token, h.thread, h.list⟩) ?_
    rintro ⟨v, ret⟩ ⟨j, _⟩ w s ⟨hv, rfl⟩ h
    dsimp only at hv ⊢
    obtain ⟨_, hdebug, -⟩ := dump_of_stands hv
    refine Calls.bind_ok hdebug ?_
    refine Calls.bind (R := Shows lib) (.ofExcept (saysSuccessText_agrees hv ret) h) ?_
    rintro success _ w s rfl h
    refine .ite Iff.rfl ⟨rfl, h⟩ ?_
    refine Calls.bind (R := Shows lib) (.ofExcept (hv.valueAs getString_agrees "token" rfl) h) ?_
    rintro _ token w s rfl h
    have hempty : utf8 token = [] ↔ token = "" := Utf8.utf8_inj (u := "")
    refine .ite hempty ⟨rfl, h.rpc, rfl, h.thread, h.list⟩ ?_
    unfold MainCtrl.startMessageCallBack
    dsimp only
    rw [h.thread]
    cases s.msgCbThread with
    | true => trivial
    | false =>
      rw [if_neg Bool.false_ne_true, if_neg Bool.false_ne_true, Outcome.ok_bind]
      refine Calls.bind (R := Shows lib) (.ofExcept (hv.value "device_list" stands_noElements)
        ⟨h.rpc, rfl, rfl, h.list⟩) ?_
      intro list j w s hlist h
      obtain ⟨text, hdump, htext⟩ := dump_of_stands hlist
      refine Calls.bind_ok hdump ⟨rfl, h.rpc, h.token, h.thread, .inr ⟨list, j, hlist, htext, rfl⟩⟩

/-- A login, with the server that answers it. -/
structure LoginCall where
  username : String
  password : String
  server : List UInt8 → Option (List UInt8)

def loginStep (lib : FloatLib F) (w : Login) (c : LoginCall) : Option Login :=
  (loginText lib c.username c.password c.server w).after

/-- The same login for the calls on parsed values. -/
def LoginCall.event (lib : FloatLib F) (c : LoginCall) : MainCtrl.Event :=
  .loginUser c.username c.password
    (.answered lib (((loginContext c.username c.password).dump lib).toOption.bind c.server))

/-- What is written in a login has a text. -/
theorem loginText_ne_dump {w : Login} {s : MainCtrl} (h : Shows lib w s) (c : LoginCall)
    (e : DumpError) (t : Login) :
    loginText lib c.username c.password c.server w ≠ .raised (.dump e) t := by
  obtain ⟨body, hbody, -⟩ := @BasicJson.ofPairs_read_back F lib
    [("method", "login"), ("username", c.username), ("password", c.password)]
  intro hraised
  have hagrees := loginText_agrees h hbody c.server
  rw [hraised] at hagrees
  obtain ⟨_, _, _, _, hok, _⟩ | ⟨_, _, _, _, heq, _, hraises, _⟩ | ⟨hcrashed, _⟩ := hagrees.cases
  · cases hok
  · cases heq
    cases hraises
  · cases hcrashed

theorem loginStep_event (w : Login) (s : MainCtrl) (c : LoginCall) (w' : Login)
    (h : Shows lib w s) (hstep : loginStep lib w c = some w') :
    ∃ s', s.step (c.event lib) = some s' ∧ Shows lib w' s' := by
  obtain ⟨body, hbody, -⟩ := @BasicJson.ofPairs_read_back F lib
    [("method", "login"), ("username", c.username), ("password", c.password)]
  have hevent : c.event lib =
      .loginUser c.username c.password (.answered lib (c.server body)) := by
    rw [LoginCall.event, loginContext, hbody]
    rfl
  rw [hevent]
  exact (loginText_agrees h hbody c.server).after hstep

theorem Shows.getAllDeviceKey {w : Login} {s : MainCtrl} (h : Shows lib w s) {j : Json}
    (hlist : s.initDeviceList = some j) :
    ∃ v : BasicJson F, v.toJson lib = j ∧ v.dump lib = .ok w.initDeviceList ∧
      (v.Every BasicJson.NotFloat →
        ∃ u : BasicJson F, parse lib (utf8 w.getAllDeviceKey) = .ok u ∧ u.toJson lib = j) := by
  rcases h.list with ⟨-, hnone⟩ | ⟨v, k, hv, hdump, hsome⟩
  · rw [hnone] at hlist
    cases hlist
  · obtain rfl : k = j := Option.some.inj (hsome.symm.trans hlist)
    refine ⟨v, hv.json, hdump, fun hfloat => ⟨v.normal, ?_, ?_⟩⟩
    · obtain ⟨t, ht, hcStr⟩ := (BasicJson.dump_printed v hdump hfloat).cStr
      have hkey : utf8 w.getAllDeviceKey = w.initDeviceList := by
        rw [Login.getAllDeviceKey, ← ht, Utf8.text_utf8, hcStr]
      rw [hkey]
      exact BasicJson.parse_of_dump_of_parsed hv.parsed hdump hfloat
    · rw [BasicJson.toJson_normal, hv.json]

/-- However many logins there were, with whatever answers, the members are those of the same
logins on parsed values, what the next login writes has a text, and the page reads the device
list that the server sent. -/
theorem logins_show {calls : List LoginCall} {w w' : Login} {s : MainCtrl} (h : Shows lib w s)
    (hexec : Runs.exec (loginStep lib) w calls = some w') :
    ∃ s', Runs.exec MainCtrl.step s (calls.map (LoginCall.event lib)) = some s' ∧
      w'.token = utf8 s'.token ∧ w'.msgCbThread = s'.msgCbThread ∧
      (∀ (c : LoginCall) e t,
        loginText lib c.username c.password c.server w' ≠ .raised (.dump e) t) ∧
      ∀ j, s'.initDeviceList = some j →
        ∃ v : BasicJson F, v.toJson lib = j ∧ v.dump lib = .ok w'.initDeviceList ∧
          (v.Every BasicJson.NotFloat →
            ∃ u : BasicJson F, parse lib (utf8 w'.getAllDeviceKey) = .ok u ∧ u.toJson lib = j) := by
  obtain ⟨s', hrun, hshows⟩ := exec_map loginStep_event h hexec
  exact ⟨s', hrun, hshows.token, hshows.thread, loginText_ne_dump hshows,
    fun j hj => hshows.getAllDeviceKey hj⟩

end

/-- The server knows one device. -/
def oneDevice : LoginCall where
  username := "user"
  password := "password"
  server _ := some (utf8 ("\x7b\"code\":200,\"reply\":\x7b\"msg\":\"success\"," ++
    "\"token\":\"t\",\"device_list\":[\"000001\"]\x7d\x7d"))

/-- What a login there leaves behind. -/
def oneDeviceLogin : Login where
  rpc := true
  token := utf8 "t"
  msgCbThread := true
  initDeviceList := utf8 "[\"000001\"]"

theorem logins_show_oneDevice :
    ∃ s', Runs.exec MainCtrl.step { rpc := true }
        ([oneDevice].map (LoginCall.event BasicJson.noFloats)) = some s' ∧
      oneDeviceLogin.token = utf8 s'.token ∧ oneDeviceLogin.msgCbThread = s'.msgCbThread ∧
      (∀ (c : LoginCall) e t, loginText BasicJson.noFloats c.username c.password c.server
        oneDeviceLogin ≠ .raised (.dump e) t) ∧
      ∀ j, s'.initDeviceList = some j →
        ∃ v : BasicJson Unit, v.toJson BasicJson.noFloats = j ∧
          v.dump BasicJson.noFloats = .ok oneDeviceLogin.initDeviceList ∧
          (v.Every BasicJson.NotFloat → ∃ u : BasicJson Unit,
            parse BasicJson.noFloats (utf8 oneDeviceLogin.getAllDeviceKey) = .ok u ∧
            u.toJson BasicJson.noFloats = j) := by
  have hempty : utf8 "" = [] := by decide +kernel
  have hshows : Shows BasicJson.noFloats { rpc := true } { rpc := true } :=
    ⟨rfl, hempty.symm, rfl, .inl ⟨rfl, rfl⟩⟩
  have hexec : Runs.exec (loginStep BasicJson.noFloats) { rpc := true } [oneDevice] =
      some oneDeviceLogin := by
    decide +kernel
  exact logins_show hshows hexec

end MiniSurveillance
