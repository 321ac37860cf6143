import Std.Data.TreeMap
import Mathlib.Data.List.Induction
import Mathlib.Data.List.TakeWhile
import MiniSurveillance.Base.Text
import MiniSurveillance.Base.Words

/-!
# The configuration file

`ConfigCtrl` keeps values under keys. `publish` writes a line `key:value` for each, and
`initValues` reads the file word by word and splits each word at its first colon.

Texts are kept as characters, and the file holds a text in UTF-8, as `publish` writes it.
Every character the reader looks for is ASCII, so the bytes of their UTF-8 form would be
split at the same places and sorted the same way.

* `reload_plain`: plain values come back.
* `reload_iff`: all values come back exactly when they are plain.
* `value_with_space_spills`: a value with a space changes what another key loads as.
-/

namespace MiniSurveillance
open Text Words

structure ConfigCtrl where
  configFile : String := ""
  values : Std.TreeMap String String := {}

namespace ConfigCtrl

def setValue (key value : String) (c : ConfigCtrl) : ConfigCtrl :=
  { c with values := c.values.insert key value }

/-- `getValue`: the index operator enters a key that is missing with the empty text, and
`c_str()` gives the text up to its first NUL. -/
def getValue (key : String) (c : ConfigCtrl) : String × ConfigCtrl :=
  let values := c.values.insertIfNew key ""
  (cStr (values.getD key ""), { c with values := values })

/-- A line of the file. -/
def line (pair : String × String) : String := pair.1 ++ ":" ++ pair.2 ++ "\n"

/-- `publish`; `file` is what the file holds, `none` when there is none. It can be opened
for writing. -/
def publish (c : ConfigCtrl) (file : Option String) : Option String :=
  if c.configFile = "" then file else some (String.join (c.values.toList.map line))

/-- `isspace` of the classic locale. -/
def isSpace (c : Char) : Bool :=
  c == ' ' || c == '\t' || c == '\n' || c == '\x0b' || c == '\x0c' || c == '\r'

/-- A word is cut at its first colon. -/
def cut (word : List Char) : Option (String × String) :=
  if ':' ∈ word then
    some (String.ofList (word.takeWhile (· ≠ ':')), String.ofList (word.dropWhile (· ≠ ':')).tail)
  else none

/-- One round of the loop of `initValues`. -/
def readWord (values : Std.TreeMap String String) (word : List Char) : Std.TreeMap String String :=
  match cut word with
  | none => values
  | some (key, value) => values.insert key value

def initValues (file : Option String) (c : ConfigCtrl) : ConfigCtrl :=
  if c.configFile = "" then c
  else
    match file with
    | none => c
    | some content => { c with values := (words isSpace content.toList).foldl readWord c.values }

def setConfigFile (path : String) (file : Option String) (c : ConfigCtrl) : ConfigCtrl :=
  initValues file { c with configFile := path }

/-! ## Saving and reloading -/

/-- Values are entered one after the other. -/
def enter (sets : List (String × String)) (c : ConfigCtrl) : ConfigCtrl :=
  sets.foldl (fun c pair => c.setValue pair.1 pair.2) c

/-- Values are entered and published, and a fresh object reads the file. -/
def reload (path : String) (sets : List (String × String)) : ConfigCtrl :=
  setConfigFile path ((enter sets { configFile := path }).publish none) {}

/-- Several keys are asked for, one after the other. -/
def getValues : List String → ConfigCtrl → List String
  | [], _ => []
  | key :: keys, c => (c.getValue key).1 :: getValues keys (c.getValue key).2

/-- The value entered last under a key. -/
def lastSet (sets : List (String × String)) (key : String) : Option String :=
  sets.reverse.lookup key

/-- Not empty, without colon and white space. -/
def ProperKey (key : String) : Prop :=
  key ≠ "" ∧ ∀ c ∈ key.toList, c ≠ ':' ∧ isSpace c = false

/-- Without white space and NUL. -/
def Plain (value : String) : Prop := ∀ c ∈ value.toList, isSpace c = false ∧ c ≠ '\x00'

instance (key : String) : Decidable (ProperKey key) :=
  have : Decidable (∀ c ∈ key.toList, c ≠ ':' ∧ isSpace c = false) := List.decidableBAll _ _
  inferInstanceAs (Decidable (_ ∧ _))

instance (value : String) : Decidable (Plain value) :=
  List.decidableBAll (fun c => isSpace c = false ∧ c ≠ '\x00') value.toList

/-! ## The map -/

theorem lastSet_snoc (sets : List (String × String)) (pair : String × String) (key : String) :
    lastSet (sets ++ [pair]) key = if pair.1 = key then some pair.2 else lastSet sets key := by
  rw [lastSet, List.reverse_append, List.reverse_singleton, List.singleton_append, List.lookup_cons]
  split
  · next hsame => rw [if_pos (beq_iff_eq.mp hsame).symm]
  · next hdiffer => rw [if_neg fun heq => beq_eq_false_iff_ne.mp hdiffer heq.symm, lastSet]

theorem mem_of_lastSet {sets : List (String × String)} {key value : String}
    (h : lastSet sets key = some value) : (key, value) ∈ sets := by
  obtain ⟨before, after, heq, _⟩ := List.lookup_eq_some_iff.mp h
  rw [← List.mem_reverse, heq]
  simp

/-- What a map holds after entries one after the other. -/
theorem getElem?_foldl_insert (sets : List (String × String)) (values : Std.TreeMap String String)
    (key : String) :
    (sets.foldl (fun values pair => values.insert pair.1 pair.2) values)[key]? =
      (lastSet sets key).or values[key]? := by
  induction sets using List.reverseRecOn with
  | nil => rfl
  | append_singleton sets pair ih =>
    rw [List.foldl_append, List.foldl_cons, List.foldl_nil, Std.TreeMap.getElem?_insert, ih,
      lastSet_snoc]
    simp only [Std.LawfulEqCmp.compare_eq_iff_eq]
    split
    · rfl
    · rfl

/-- The list of a map's entries holds each once. -/
theorem lastSet_toList (values : Std.TreeMap String String) (key : String) :
    lastSet values.toList key = values[key]? := by
  cases hvalue : values[key]? with
  | some value =>
    have hmem := Std.TreeMap.mem_toList_iff_getElem?_eq_some.mpr hvalue
    cases hlast : lastSet values.toList key with
    | none =>
      have hall := List.lookup_eq_none_iff.mp hlast _ (List.mem_reverse.mpr hmem)
      simp at hall
    | some other =>
      have hother := Std.TreeMap.mem_toList_iff_getElem?_eq_some.mp (mem_of_lastSet hlast)
      rw [← hother, hvalue]
  | none =>
    cases hlast : lastSet values.toList key with
    | none => rfl
    | some other =>
      have hother := Std.TreeMap.mem_toList_iff_getElem?_eq_some.mp (mem_of_lastSet hlast)
      rw [hvalue] at hother
      cases hother

theorem enter_values (sets : List (String × String)) (c : ConfigCtrl) :
    (enter sets c).values =
      sets.foldl (fun values pair => values.insert pair.1 pair.2) c.values := by
  unfold enter
  induction sets generalizing c with
  | nil => rfl
  | cons pair sets ih => rw [List.foldl_cons, ih, List.foldl_cons, setValue]

theorem enter_configFile (sets : List (String × String)) (c : ConfigCtrl) :
    (enter sets c).configFile = c.configFile := by
  unfold enter
  induction sets generalizing c with
  | nil => rfl
  | cons pair sets ih => rw [List.foldl_cons, ih, setValue]

/-- Asking for keys changes no answer. -/
theorem getValues_eq (keys : List String) (c : ConfigCtrl) :
    getValues keys c = keys.map fun key => cStr (c.values.getD key "") := by
  induction keys generalizing c with
  | nil => rfl
  | cons key keys ih =>
    have hget (other : String) :
        (c.getValue key).2.values.getD other "" = c.values.getD other "" := by
      simp only [getValue, Std.TreeMap.getD_insertIfNew, Std.LawfulEqCmp.compare_eq_iff_eq]
      split
      · next hnew =>
        obtain ⟨rfl, hnew⟩ := hnew
        rw [Std.TreeMap.getD_eq_fallback hnew]
      · rfl
    have hhead : (c.getValue key).1 = cStr (c.values.getD key "") := congrArg cStr (hget key)
    simp only [getValues, ih, hget, hhead, List.map_cons]

/-! ## One word -/

/-- The characters of a line in front of its end. -/
def word (pair : String × String) : List Char := pair.1.toList ++ ':' :: pair.2.toList

theorem toList_line (pair : String × String) : (line pair).toList = word pair ++ ['\n'] := by
  simp [line, word]

theorem cut_word {pair : String × String} (hkey : ProperKey pair.1) :
    cut (word pair) = some pair := by
  have hcolon : ∀ c ∈ pair.1.toList, decide (c ≠ ':') = true := fun c hc => by
    simpa using (hkey.2 c hc).1
  rw [cut, if_pos (by simp [word]), word, List.takeWhile_append_of_pos hcolon,
    List.dropWhile_append_of_pos hcolon]
  simp

/-- What is cut out of a word holds nothing the word does not hold. -/
theorem mem_of_cut {word : List Char} {key value : String} (h : cut word = some (key, value)) :
    ∀ c ∈ value.toList, c ∈ word := by
  unfold cut at h
  split at h
  · obtain ⟨_, rfl⟩ := Prod.mk.inj (Option.some.inj h)
    intro c hc
    rw [String.toList_ofList] at hc
    exact (List.dropWhile_suffix _).subset (List.mem_of_mem_tail hc)
  · cases h

/-! ## The file -/

theorem readWords_eq {pairs : List (String × String)} (hkeys : ∀ pair ∈ pairs, ProperKey pair.1)
    (values : Std.TreeMap String String) :
    (pairs.map word).foldl readWord values =
      pairs.foldl (fun values pair => values.insert pair.1 pair.2) values := by
  induction pairs generalizing values with
  | nil => rfl
  | cons pair pairs ih =>
    obtain ⟨hkey, hrest⟩ := List.forall_mem_cons.mp hkeys
    rw [List.map_cons, List.foldl_cons, List.foldl_cons, ih hrest, readWord, cut_word hkey]

/-- The lines of proper keys and plain values are the words of the file. -/
theorem words_of_lines {pairs : List (String × String)}
    (hpairs : ∀ pair ∈ pairs, ProperKey pair.1 ∧ Plain pair.2) :
    words isSpace (String.join (pairs.map line)).toList = pairs.map word := by
  have hlines : (String.join (pairs.map line)).toList =
      (pairs.map word).flatMap fun w => w ++ ['\n'] := by
    rw [String.toList_join, List.flatMap_map, List.flatMap_map]
    exact congrArg (List.flatMap · pairs) (funext toList_line)
  rw [hlines]
  refine words_lines rfl fun w hw => ?_
  obtain ⟨pair, hpair, rfl⟩ := List.mem_map.mp hw
  obtain ⟨hkey, hvalue⟩ := hpairs pair hpair
  refine ⟨by simp [word], fun c hc => ?_⟩
  rcases List.mem_append.mp hc with hc | hc
  · exact (hkey.2 c hc).2
  · rcases List.mem_cons.mp hc with rfl | hc
    · rfl
    · exact (hvalue c hc).1

/-- No value that is read holds white space. -/
theorem readWords_noSpace {read : List (List Char)} (hread : ∀ w ∈ read, ∀ c ∈ w, isSpace c = false)
    {values : Std.TreeMap String String}
    (hvalues : ∀ key, ∀ c ∈ (values.getD key "").toList, isSpace c = false) (key : String) :
    ∀ c ∈ ((read.foldl readWord values).getD key "").toList, isSpace c = false := by
  induction read generalizing values with
  | nil => exact hvalues key
  | cons w read ih =>
    obtain ⟨hw, hrest⟩ := List.forall_mem_cons.mp hread
    refine ih hrest fun other => ?_
    unfold readWord
    cases hcut : cut w with
    | none => exact hvalues other
    | some pair =>
      rw [Std.TreeMap.getD_insert]
      split
      · exact fun c hc => hw c (mem_of_cut hcut c hc)
      · exact hvalues other

/-! ## Reloading -/

theorem cStr_of_plain {value : String} (h : Plain value) : cStr value = value := by
  have hall : value.toList.takeWhile (· ≠ '\x00') = value.toList :=
    List.takeWhile_eq_self_iff.mpr fun c hc => by simpa using (h c hc).2
  rw [cStr, hall, String.ofList_toList]

/-- What `c_str()` leaves holds no NUL, and nothing the text does not hold. -/
theorem mem_cStr {text : String} {c : Char} (h : c ∈ (cStr text).toList) :
    c ∈ text.toList ∧ c ≠ '\x00' := by
  rw [cStr, String.toList_ofList] at h
  exact ⟨(List.takeWhile_prefix _).subset h, by simpa using List.mem_takeWhile_imp h⟩

variable {path : String} {sets : List (String × String)}

theorem getElem?_enter (key : String) :
    (enter sets { configFile := path }).values[key]? = lastSet sets key := by
  rw [enter_values, getElem?_foldl_insert]
  exact Option.or_none

theorem reload_values (hpath : path ≠ "") :
    (reload path sets).values = (words isSpace (String.join
      ((enter sets { configFile := path }).values.toList.map line)).toList).foldl readWord {} := by
  simp only [reload, setConfigFile, initValues, publish, enter_configFile, if_neg hpath]

/-- Plain values come back, and the other keys load as the empty text. -/
theorem reload_plain (hpath : path ≠ "") (hkeys : ∀ pair ∈ sets, ProperKey pair.1)
    (hplain : ∀ key value, lastSet sets key = some value → Plain value) (key : String) :
    (reload path sets).values[key]? = lastSet sets key := by
  have hpairs : ∀ pair ∈ (enter sets { configFile := path }).values.toList,
      ProperKey pair.1 ∧ Plain pair.2 := by
    intro pair hpair
    have hlast := Std.TreeMap.mem_toList_iff_getElem?_eq_some.mp hpair
    rw [getElem?_enter] at hlast
    exact ⟨hkeys _ (mem_of_lastSet hlast), hplain _ _ hlast⟩
  rw [reload_values hpath, words_of_lines hpairs,
    readWords_eq fun pair hpair => (hpairs pair hpair).1, getElem?_foldl_insert, lastSet_toList, getElem?_enter]
  exact Option.or_none

/-- The values come back, in whatever order they are asked for, exactly when they are
plain. -/
theorem reload_iff (hpath : path ≠ "") (hkeys : ∀ pair ∈ sets, ProperKey pair.1) :
    (∀ keys, getValues keys (reload path sets) = keys.map fun key => (lastSet sets key).getD "") ↔
      ∀ key value, lastSet sets key = some value → Plain value := by
  constructor
  · intro hback key value hlast
    have hone := hback [key]
    rw [getValues_eq, List.map_singleton, List.map_singleton, hlast] at hone
    have hvalue : cStr ((reload path sets).values.getD key "") = value := List.singleton_inj.mp hone
    rw [← hvalue]
    intro c hc
    obtain ⟨hread, hnul⟩ := mem_cStr hc
    rw [reload_values hpath] at hread
    refine ⟨readWords_noSpace (fun w hw => sep_of_mem_words hw) (fun other => ?_) key c hread, hnul⟩
    exact fun _ => nofun
  · intro hplain keys
    rw [getValues_eq]
    refine List.map_congr_left fun key _ => ?_
    rw [Std.TreeMap.getD_eq_getD_getElem?, reload_plain hpath hkeys hplain]
    cases hlast : lastSet sets key with
    | none => rfl
    | some value => exact cStr_of_plain (hplain key value hlast)

/-- The address of a server and its port. -/
def server (port : String) : List (String × String) :=
  [("server_ip", "10.0.0.1"), ("server_port", port)]

theorem forall_server {P : String × String → Prop} {port : String}
    (haddress : P ("server_ip", "10.0.0.1")) (hport : P ("server_port", port)) :
    ∀ pair ∈ server port, P pair :=
  List.forall_mem_cons.mpr ⟨haddress, List.forall_mem_singleton.mpr hport⟩

theorem reload_iff_server :
    getValues ["server_port", "server_ip", "user"] (reload "config" (server "80")) =
      ["80", "10.0.0.1", ""] := by
  have hkeys : ∀ pair ∈ server "80", ProperKey pair.1 :=
    forall_server (show ProperKey "server_ip" by decide) (show ProperKey "server_port" by decide)
  have hplain : ∀ pair ∈ server "80", Plain pair.2 :=
    forall_server (show Plain "10.0.0.1" by decide) (show Plain "80" by decide)
  have hback : ∀ keys, getValues keys (reload "config" (server "80")) =
      keys.map fun key => (lastSet (server "80") key).getD "" :=
    (reload_iff (by decide) hkeys).mpr fun key value hlast => hplain _ (mem_of_lastSet hlast)
  exact hback ["server_port", "server_ip", "user"]

/-- A port with a space and more behind it: the port is cut short, and another address is
loaded. -/
theorem value_with_space_spills :
    getValues ["server_ip", "server_port"] (reload "config" (server "80 server_ip:10.0.0.2")) =
        ["10.0.0.2", "80"] ∧
      ¬ ∀ keys, getValues keys (reload "config" (server "80 server_ip:10.0.0.2")) =
        keys.map fun key => (lastSet (server "80 server_ip:10.0.0.2") key).getD "" := by
  have hloads : getValues ["server_ip", "server_port"]
      (reload "config" (server "80 server_ip:10.0.0.2")) = ["10.0.0.2", "80"] := by decide
  refine ⟨hloads, fun hback => ?_⟩
  have hsame := hback ["server_ip", "server_port"]
  rw [hloads] at hsame
  revert hsame
  decide

end ConfigCtrl

end MiniSurveillance
