import MiniSurveillance.ConfigCtrl
import MiniSurveillance.VideoCtrl

/-!
# The folder of the local record

The settings page saves a folder as a URL, and every `VideoCtrl` is bound to the loaded value.
`setlocalRecordDir` cuts the `file:///` off it: from byte 8 on, and as many bytes as there are
UTF-16 units behind the eighth.

* `values_initValues`: the value a file gives a key.
* `localRecordDir_iff`: when the binding does not raise, and when the folder is kept whole.
-/

namespace MiniSurveillance
open Text Words

namespace VideoCtrl

/-- A count of bytes: one below zero becomes a huge unsigned one. -/
def sizeCount (n : Int) : Nat := if n < 0 then (18446744073709551616 + n).toNat else n.toNat

/-- `setlocalRecordDir`: the new `local_record_dir`. -/
def setLocalRecordDir (value : String) : Except Fault (List UInt8) :=
  match substr (utf8 value) 8 (sizeCount ((utf16Length value : Int) - 8)) with
  | some dir => .ok dir
  | none => .error .outOfRange

/-- The cut raises on texts of less than eight bytes. -/
theorem setLocalRecordDir_isOk_iff (value : String) :
    (∃ dir, setLocalRecordDir value = .ok dir) ↔ 8 ≤ (utf8 value).length := by
  unfold setLocalRecordDir substr
  split
  · next dir hdir =>
    refine iff_of_true ⟨dir, rfl⟩ ?_
    split at hdir
    · cases hdir
    · omega
  · next hnone =>
    refine iff_of_false (fun ⟨dir, h⟩ => nomatch h) ?_
    split at hnone
    · omega
    · cases hnone

end VideoCtrl

namespace ConfigCtrl

/-- The keys and values of a file, from the top. -/
def entries (content : String) : List (String × String) :=
  (words isSpace content.toList).filterMap cut

theorem foldl_readWord (read : List (List Char)) (values : Std.TreeMap String String) :
    read.foldl readWord values =
      (read.filterMap cut).foldl (fun values pair => values.insert pair.1 pair.2) values := by
  rw [List.foldl_filterMap]
  refine congrArg (fun f => read.foldl f values) (funext fun values => funext fun w => ?_)
  unfold readWord
  cases cut w with
  | none => rfl
  | some pair => rfl

/-- The value a file gives a key: the last one it has for it. -/
theorem values_initValues {c : ConfigCtrl} (hpath : c.configFile ≠ "") (content key : String) :
    (initValues (some content) c).values[key]? =
      (lastSet (entries content) key).or c.values[key]? := by
  rw [initValues, if_neg hpath, entries, ← getElem?_foldl_insert, ← foldl_readWord]

/-- The value that a file gives a key, if there is a file and it has one. -/
def setting (path : String) (file : Option String) (key : String) : Option String :=
  if path = "" then none else file.bind fun content => lastSet (entries content) key

theorem values_setConfigFile (path : String) (file : Option String) (key : String) :
    (setConfigFile path file {}).values[key]? = setting path file key := by
  unfold setConfigFile setting
  split
  · next hpath =>
    unfold initValues
    rw [if_pos hpath]
    rfl
  · next hpath =>
    cases file with
    | none =>
      unfold initValues
      rw [if_neg hpath]
      rfl
    | some content =>
      rw [values_initValues hpath]
      exact Option.or_none

/-- The value that the windows are bound to. -/
def loadedDir (path : String) (file : Option String) : String :=
  (getValue "local_record_save_path" (setConfigFile path file {})).1

theorem loadedDir_eq (path : String) (file : Option String) :
    loadedDir path file = cStr ((setting path file "local_record_save_path").getD "") := by
  have hone := getValues_eq ["local_record_save_path"] (setConfigFile path file {})
  rw [List.map_singleton, Std.TreeMap.getD_eq_getD_getElem?, values_setConfigFile] at hone
  exact List.singleton_inj.mp hone

/-- The file has a value for the folder, and this has at least eight bytes. -/
def SetsDir (path : String) (file : Option String) : Prop :=
  ∃ value, setting path file "local_record_save_path" = some value ∧
    8 ≤ (utf8 (cStr value)).length

theorem loadedDir_long_iff (path : String) (file : Option String) :
    8 ≤ (utf8 (loadedDir path file)).length ↔ SetsDir path file := by
  rw [loadedDir_eq, SetsDir]
  cases setting path file "local_record_save_path" with
  | none => exact iff_of_false (by decide) fun ⟨_, h, _⟩ => nomatch h
  | some value => simp

end ConfigCtrl

theorem VideoCtrl.sizeCount_natCast (n : Nat) : sizeCount n = n := by
  rw [sizeCount, if_neg (Int.not_lt.mpr (Int.natCast_nonneg n)), Int.toNat_natCast]

/-- The prefix of the URL is cut off, and of the folder as many bytes are kept as it has UTF-16
units. -/
theorem VideoCtrl.setLocalRecordDir_url (folder : String) :
    setLocalRecordDir ("file:///" ++ folder) = .ok ((utf8 folder).take (utf16Length folder)) := by
  have hbytes : (utf8 "file:///").length = 8 := by decide
  have hunits : utf16Length "file:///" = 8 := by decide
  have hlength : ((utf16Length ("file:///" ++ folder) : Nat) : Int) - 8 = utf16Length folder := by
    rw [utf16Length_append, hunits]
    omega
  have hcut : substr (utf8 ("file:///" ++ folder)) 8 (utf16Length folder) =
      some ((utf8 folder).take (utf16Length folder)) := by
    rw [substr, if_neg (by rw [utf8_append, List.length_append]; omega), utf8_append]
    exact congrArg (fun l => some (l.take (utf16Length folder))) (List.drop_left' hbytes)
  unfold setLocalRecordDir
  rw [hlength, sizeCount_natCast, hcut]

open VideoCtrl ConfigCtrl in
/-- Binding the loaded value raises exactly where the file has no value of eight bytes, and a
folder is stored as it is exactly when it is ASCII. -/
theorem localRecordDir_iff (path : String) (file : Option String) (folder : String) :
    ((∃ dir, setLocalRecordDir (loadedDir path file) = .ok dir) ↔ SetsDir path file) ∧
    (setLocalRecordDir ("file:///" ++ folder) = .ok (utf8 folder) ↔ Ascii folder) := by
  constructor
  · rw [setLocalRecordDir_isOk_iff, loadedDir_long_iff]
  · have hunits := utf16Length_le_utf8 folder
    rw [setLocalRecordDir_url, Except.ok.injEq, ← utf16Length_eq_utf8_iff]
    constructor
    · intro hwhole
      have hlength := congrArg List.length hwhole
      rw [List.length_take] at hlength
      omega
    · intro hsame
      rw [hsame, List.take_length]

open VideoCtrl ConfigCtrl in
/-- There is no configuration file yet; and a folder with a name of two Chinese characters is
cut off within the first. -/
theorem missing_dir_raises :
    setLocalRecordDir (loadedDir "./debug/config" none) = .error .outOfRange ∧
      setLocalRecordDir "file:///录像" = .ok [0xE5, 0xBD] ∧ utf8 "录像" ≠ [0xE5, 0xBD] := by
  decide

end MiniSurveillance
