import MiniSurveillance.VideoCtrl

/-!
# The stream URL of a play

`VideoCtrl::play` writes `is_playing`, `is_playing_audio` and the URL of the capture before it
cuts the key name off the URL and starts the capture, which may raise and fail. The cut counts
UTF-16 units in a string of UTF-8 bytes.

* `keyName_lastSix_iff`: when the cut gives the last six characters.
* `play_allOrNothing_iff`: when a play goes through or changes nothing.
-/

namespace MiniSurveillance
open Text

/-- The bytes are those of the last six characters of the text. -/
def LastSix (text : String) (bytes : List UInt8) : Prop :=
  ∃ front last : String, text = front ++ last ∧ last.length = 6 ∧ bytes = utf8 last

/-- The last six characters are ASCII, and the six bytes behind the position that is six UTF-16
units short of the text's length are its last ones. -/
def EndsInPlace (text : String) : Prop :=
  (∃ front last : String, text = front ++ last ∧ last.length = 6 ∧ Ascii last) ∧
  ((utf8 text).drop (utf16Length text - 6)).take 6 = (utf8 text).drop ((utf8 text).length - 6)

/-- ASCII texts of six characters and more end in place. -/
theorem endsInPlace_of_ascii {front last : String} (hfront : Ascii front) (hlast : Ascii last)
    (hsix : last.length = 6) : EndsInPlace (front ++ last) := by
  refine ⟨⟨front, last, rfl, hsix, hlast⟩, ?_⟩
  have hbytes := (length_eq_utf8_iff last).mpr hlast
  rw [utf16Length_append, (utf16Length_eq_utf8_iff front).mpr hfront,
    (utf16Length_eq_utf8_iff last).mpr hlast, ← List.length_append, ← utf8_append]
  refine List.take_of_length_le ?_
  rw [utf8_append, List.length_drop, List.length_append]
  omega

namespace VideoCtrl

/-- The cut gives the last six characters exactly when they are ASCII and in place. -/
theorem keyName_lastSix_iff {url : String} (hlong : 6 ≤ utf16Length url) :
    (∃ name, keyName url = .ok name ∧ LastSix url name) ↔ EndsInPlace url := by
  have hunits := utf16Length_le_utf8 url
  have hname : keyName url = .ok (((utf8 url).drop (utf16Length url - 6)).take 6) := by
    rw [keyName, substr, if_neg (by omega)]
    rw [show ((utf16Length url : Int) - 6).toNat = utf16Length url - 6 by omega]
  have hend {front last : String} (hurl : url = front ++ last) (hsix : (utf8 last).length = 6) :
      (utf8 url).drop ((utf8 url).length - 6) = utf8 last := by
    rw [hurl, utf8_append, List.length_append, hsix, Nat.add_sub_cancel, List.drop_left]
  constructor
  · rintro ⟨name, hok, front, last, hurl, hsix, rfl⟩
    rw [hname] at hok
    have hcut := Except.ok.inj hok
    -- six bytes that are six characters are ASCII
    have hshort := congrArg List.length hcut
    rw [List.length_take, List.length_drop] at hshort
    have hascii : Ascii last := (length_eq_utf8_iff last).mp (by omega)
    exact ⟨⟨front, last, hurl, hsix, hascii⟩, hcut.trans (hend hurl (by omega)).symm⟩
  · rintro ⟨⟨front, last, hurl, hsix, hascii⟩, hplace⟩
    have hbytes := (length_eq_utf8_iff last).mpr hascii
    exact ⟨_, hname, front, last, hurl, hsix, hplace.trans (hend hurl (by omega))⟩

/-- The fields that `play` writes are the same. -/
structure Same (v w : VideoCtrl) : Prop where
  isPlaying : w.isPlaying = v.isPlaying
  isPlayingAudio : w.isPlayingAudio = v.isPlayingAudio
  encryption : w.encryption = v.encryption
  deviceKeyName : w.deviceKeyName = v.deviceKeyName
  rtmpUrl : w.capture.rtmpUrl = v.capture.rtmpUrl

/-- The object plays the stream at the URL. -/
structure Plays (url : String) (w : VideoCtrl) : Prop where
  rtmpUrl : w.capture.rtmpUrl = url
  pullThread : w.capture.pullThread = .running
  isPlaying : w.isPlaying = true
  deviceKeyName : LastSix url w.deviceKeyName

/-- `play` returns true with the stream playing, or fails and changes nothing. -/
def AllOrNothing (v : VideoCtrl) (url encryption : String) : Prop :=
  match v.play url encryption with
  | .ok true w => Plays url w
  | .ok false w => Same v w
  | .raised _ w => Same v w
  | .crashed => False

/-- The object plays already; or no pull thread is left over and the URL ends in place; or a
pull thread runs beside the object, which holds what this very call writes. -/
def PlaysOrKeeps (v : VideoCtrl) (url encryption : String) : Prop :=
  v.isPlaying = true ∨
  v.capture.pullThread = .none ∧ EndsInPlace url ∨
  v.capture.pullThread = .running ∧ v.isPlayingAudio = false ∧ v.capture.rtmpUrl = url ∧
    keyName url = .ok v.deviceKeyName ∧ v.encryption = utf8 encryption

theorem utf16Length_of_endsInPlace {url : String} (h : EndsInPlace url) : 6 ≤ utf16Length url := by
  obtain ⟨⟨front, last, rfl, hsix, _⟩, _⟩ := h
  have hlast := length_le_utf16Length last
  rw [utf16Length_append]
  omega

/-- Where the URL does not end in place, `play` raises behind its writes or keeps another name. -/
theorem play_allOrNothing_iff (v : VideoCtrl) (url encryption : String) :
    v.AllOrNothing url encryption ↔ v.PlaysOrKeeps url encryption := by
  unfold AllOrNothing PlaysOrKeeps
  cases hon : v.isPlaying with
  | true =>
    rw [play_of_playing url encryption hon]
    exact iff_of_true ⟨rfl, rfl, rfl, rfl, rfl⟩ (.inl rfl)
  | false =>
    rcases Nat.lt_or_ge (utf16Length url) 6 with hshort | hlong
    · rw [play_of_short encryption hon hshort]
      refine iff_of_false (fun h => ?_) ?_
      · have hsame : true = v.isPlaying := h.isPlaying
        rw [hon] at hsame
        cases hsame
      · rintro (h | ⟨_, h⟩ | ⟨_, _, _, h, _⟩)
        · cases h
        · exact absurd (utf16Length_of_endsInPlace h) (by omega)
        · rw [keyName_of_short hshort] at h
          cases h
    · obtain ⟨name, hname, hplay⟩ := play_of_long encryption hon hlong
      have hsix : LastSix url name ↔ EndsInPlace url := by
        rw [← keyName_lastSix_iff hlong, hname]
        simp
      rw [hplay, hname]
      cases v.capture.pullThread with
      | none =>
        constructor
        · exact fun h => .inr (.inl ⟨rfl, hsix.mp h.deviceKeyName⟩)
        · rintro (h | ⟨_, h⟩ | ⟨h, _⟩)
          · cases h
          · exact ⟨rfl, rfl, rfl, hsix.mpr h⟩
          · cases h
      | running =>
        constructor
        · intro h
          exact .inr (.inr ⟨rfl, h.isPlayingAudio.symm, h.rtmpUrl.symm,
            congrArg Except.ok h.deviceKeyName, h.encryption.symm⟩)
        · rintro (h | ⟨h, _⟩ | ⟨_, haudio, hurl, hkey, hencryption⟩)
          · cases h
          · cases h
          · exact ⟨hon.symm, haudio.symm, hencryption.symm, Except.ok.inj hkey, hurl.symm⟩
      | ended =>
        refine iff_of_false id ?_
        rintro (h | ⟨h, _⟩ | ⟨h, _⟩)
        · cases h
        · cases h
        · cases h

/-- A device without a stream URL: the object is left playing. -/
theorem play_of_noUrl : ¬ AllOrNothing {} "" "" := fun h => absurd h.isPlaying (by decide)

end VideoCtrl

end MiniSurveillance
