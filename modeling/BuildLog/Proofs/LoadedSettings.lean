import BuildLog.Proofs.CheckedSettings
import BuildLog.Proofs.EncodedTexts
import BuildLog.Proofs.WrittenJson
import BuildLog.SettingsFile

/-!
# Settings that are loaded

Whatever stands in a file, settings that are loaded from it have passed the checks. If there are none, the
error has a code that tells why, unless the bytes of the file are no text, or reading them or checking a value
breaks off.

* `SettingsFile.HoldsNoText`: a file can be read, but its bytes are not those of any text;
* `SettingsFile.checked_eq_ok_iff`, `SettingsFile.checked_codes`: halves of surrogate pairs are refused
  where they matter, and without them nothing is changed;
* `SettingsFile.BreaksOff`: checking named values breaks off, at a pattern with a number that is too large or
  at a choice that cannot be shown. `SettingsFile.ofMembers_cases`: otherwise these are settings that have
  passed the checks, or refused;
* `SettingsFile.FailsWith`, `SettingsFile.FailsBare`: what is found at a path if loading fails with a code or
  without one;
* `SettingsFile.load_outcome_iff`: when loading gives settings or an error with a code, and which code.
-/

namespace BuildLog
namespace SettingsFile

variable {room : Json.Room} {files : Files} {path : FilePath} {document code : Text} {value : Json Codes}
  {members : List (Codes × Json Codes)}

/-! ## What is found at a path -/

/-- A file can be read, but its bytes are not those of any text. -/
def HoldsNoText (files : Files) (path : FilePath) : Prop :=
  ∃ bytes, files path = .ok bytes ∧ ∀ text, bytes ≠ Bytes.ofText text

/-- What is found at a path. -/
inductive Found (files : Files) (path : FilePath) : Prop
  /-- Nothing that can be read. -/
  | nothing (error : ReadError) (h : files path = .error error)
  /-- Bytes that are no text. -/
  | noText (h : HoldsNoText files path)
  /-- A text. -/
  | text (document : Text) (h : files path = .ok (Bytes.ofText document))

theorem found (files : Files) (path : FilePath) : Found files path := by
  cases hfile : files path with
  | error error => exact .nothing error hfile
  | ok bytes =>
    by_cases htext : ∃ document, bytes = Bytes.ofText document
    · obtain ⟨document, rfl⟩ := htext
      exact .text document hfile
    · exact .noText ⟨bytes, hfile, fun document heq => htext ⟨document, heq⟩⟩

/-! ## What comes of it -/

theorem load_of_error {error : ReadError} (h : files path = .error error) :
    load room files path = .error (.unreadable error) := by
  rw [load, h]
  rfl

theorem load_of_ok {bytes : Bytes} (h : files path = .ok bytes) :
    load room files path = (Bytes.decode bytes).mapError .undecodable >>= ofDocument room path := by
  rw [load, h]
  rfl

theorem exists_load_of_holdsNoText (h : HoldsNoText files path) :
    ∃ error, load room files path = .error (.undecodable error) := by
  obtain ⟨bytes, hfile, hbytes⟩ := h
  obtain ⟨error, hdecode⟩ := Bytes.exists_decode_eq_error_iff.2 hbytes
  refine ⟨error, ?_⟩
  rw [load_of_ok hfile, hdecode]
  rfl

theorem load_of_text (h : files path = .ok (Bytes.ofText document)) :
    load room files path = ofDocument room path document := by
  rw [load_of_ok h, Bytes.decode_ofText]
  rfl

theorem ofDocument_of_object (h : Json.read room.reading document = .ok (.object members)) :
    ofDocument room path document = ofMembers room.showing members := by
  rw [ofDocument, h]

theorem ofDocument_of_other (h : Json.read room.reading document = .ok value)
    (hother : ∀ members, value ≠ .object members) :
    ofDocument room path document = .error (.notObject path) := by
  rw [ofDocument, h]
  cases value with
  | object members => exact absurd rfl (hother members)
  | _ => rfl

theorem ofDocument_of_error {fault : Json.ReadingFault}
    (h : Json.read room.reading document = .error fault) :
    ofDocument room path document = .error (.unread fault) := by
  rw [ofDocument, h]

/-! ## Halves of surrogate pairs -/

section

variable {error? : Codes × Json Codes → Option FieldError}
  {check : List (Text × Json) → Except (List FieldError) Settings} {settings : Settings}

/-- Named values are accepted exactly if none of them has an error, and they pass the check. -/
theorem checked_eq_ok_iff : checked error? check members = .ok settings ↔
    members.filterMap error? = [] ∧ check (sound error? members) = .ok settings := by
  unfold checked
  cases members.filterMap error? <;> cases check (sound error? members) <;> simp

/-- Errors that are told with others do not break off the check. -/
theorem exists_breaksOff_checked_iff
    (htold : ∀ entry error, error? entry = some error → error.fault.breaksOff = false) :
    (∃ errors, checked error? check members = .error errors ∧
        errors.any (·.fault.breaksOff) = true) ↔
      ∃ errors, check (sound error? members) = .error errors ∧
        errors.any (·.fault.breaksOff) = true := by
  have hnone : (members.filterMap error?).any (·.fault.breaksOff) = false := by
    rw [List.any_eq_false]
    intro error hmem
    obtain ⟨entry, -, hentry⟩ := List.mem_filterMap.1 hmem
    simp [htold entry error hentry]
  unfold checked
  cases hbroken : members.filterMap error? with
  | nil => rfl
  | cons error errors =>
    rw [hbroken] at hnone
    cases check (sound error? members) with
    | ok settings => simpa using hnone
    | error more =>
      have hmore : (Settings.told (error :: errors ++ more)).any (·.fault.breaksOff) =
          more.any (·.fault.breaksOff) := by
        rw [Settings.any_told, List.any_append, hnone, Bool.false_or]
      simp only [Except.error.injEq, exists_eq_left', hmore]

/-- Where no text is torn, the check is made of all members. -/
theorem checked_codes (hwhole : ∀ entry, error? (Json.memberCodes entry) = none)
    (found : List (Text × Json)) :
    checked error? check (found.map Json.memberCodes) = check found := by
  have hbroken : (found.map Json.memberCodes).filterMap error? = [] := by
    simp [hwhole]
  have hsound : sound error? (found.map Json.memberCodes) = found := by
    have hall : ∀ entry ∈ found.map Json.memberCodes, (error? entry).isNone = true := by
      simp only [List.forall_mem_map, hwhole]
      exact fun _ _ => rfl
    rw [sound, List.filter_eq_self.2 hall]
    simp [Json.memberCodes, Function.comp_def, Json.map_codes_text]
  rw [checked, hbroken, hsound]

theorem isTorn_codes (value : Json) : isTorn (value.map Text.codes) = false := by
  cases value <;> simp [Json.map, isTorn]

theorem fieldError?_codes (entry : Text × Json) : fieldError? (Json.memberCodes entry) = none := by
  simp [fieldError?, halfError?, Json.memberCodes, isTorn_codes]

theorem keptError?_codes (entry : Text × Json) : keptError? (Json.memberCodes entry) = none := by
  simp [keptError?, halfError?, Json.memberCodes, isTorn_codes]

theorem breaksOff_of_halfError? {isBroken : Bool} {field : Text} {error : FieldError}
    (h : halfError? isBroken field = some error) : error.fault.breaksOff = false := by
  unfold halfError? at h
  split at h <;> cases h
  rfl

end

/-! ## What becomes of named values -/

/-- The check of named values breaks off: the pattern has a number that is too large, or a kept choice
cannot be shown. -/
inductive BreaksOff (room : Nat) (members : List (Codes × Json Codes)) : Prop
  /-- The pattern under its name. -/
  | pattern (value : Json) (hform : isKept members = false)
    (hvalue : Json.member? Settings.patternField (sound fieldError? members) = some value)
    (hlarge : Settings.Overflows value)
  /-- The pattern as it is kept. -/
  | keptPattern (value : Json) (hform : isKept members = true)
    (hvalue : Json.member? Settings.patternKey (sound keptError? members) = some value)
    (hlarge : Settings.Overflows value)
  /-- The choice as it is kept. -/
  | keptChoice (value : Json) (hform : isKept members = true)
    (hvalue : Json.member? Settings.enabledKey (sound keptError? members) = some value)
    (hunshown : value.hasLongNumber = true ∨ room < value.levels)

theorem breaksOff_iff_of_kept {room : Nat} (hform : isKept members = true) :
    BreaksOff room members ↔
      (∃ value, Json.member? Settings.enabledKey (sound keptError? members) = some value ∧
        (value.hasLongNumber = true ∨ room < value.levels)) ∨
      ∃ value, Json.member? Settings.patternKey (sound keptError? members) = some value ∧
        Settings.Overflows value := by
  constructor
  · rintro (⟨value, hother, -⟩ | ⟨value, -, hvalue, hlarge⟩ | ⟨value, -, hvalue, hunshown⟩)
    · cases hform.symm.trans hother
    · exact .inr ⟨value, hvalue, hlarge⟩
    · exact .inl ⟨value, hvalue, hunshown⟩
  · rintro (⟨value, hvalue, hunshown⟩ | ⟨value, hvalue, hlarge⟩)
    · exact .keptChoice value hform hvalue hunshown
    · exact .keptPattern value hform hvalue hlarge

theorem breaksOff_iff_of_not_kept {room : Nat} (hform : isKept members = false) :
    BreaksOff room members ↔
      ∃ value, Json.member? Settings.patternField (sound fieldError? members) = some value ∧
        Settings.Overflows value := by
  constructor
  · rintro (⟨value, -, hvalue, hlarge⟩ | ⟨value, hother, -⟩ | ⟨value, hother, -⟩)
    · exact ⟨value, hvalue, hlarge⟩
    · cases hform.symm.trans hother
    · cases hform.symm.trans hother
  · rintro ⟨value, hvalue, hlarge⟩
    exact .pattern value hform hvalue hlarge

/-- The check breaks off exactly if the errors have no code. -/
theorem breaksOff_iff {room : Nat} :
    BreaksOff room members ↔
      ∃ errors, ofMembers room members = .error (.invalid errors) ∧
        (SettingsError.invalid errors).code? = none := by
  have hcode (errors : List FieldError) : (SettingsError.invalid errors).code? = none ↔
      errors.any (·.fault.breaksOff) = true := by
    rw [SettingsError.code?]
    split <;> simp_all
  have hresult (result : Except (List FieldError) Settings) (errors : List FieldError) :
      result.mapError SettingsError.invalid = .error (.invalid errors) ↔ result = .error errors := by
    cases result <;> simp [Except.mapError]
  unfold ofMembers
  cases hform : isKept members with
  | true =>
    have htold (entry : Codes × Json Codes) (error : FieldError) (h : keptError? entry = some error) :
        error.fault.breaksOff = false := breaksOff_of_halfError? h
    rw [breaksOff_iff_of_kept hform, ← Settings.exists_breaksOff_ofProperties_iff,
      ← exists_breaksOff_checked_iff htold]
    simp only [hcode, if_true, hresult]
  | false =>
    have htold (entry : Codes × Json Codes) (error : FieldError) (h : fieldError? entry = some error) :
        error.fault.breaksOff = false := breaksOff_of_halfError? h
    rw [breaksOff_iff_of_not_kept hform, ← Settings.exists_breaksOff_iff,
      ← exists_breaksOff_checked_iff htold]
    simp only [hcode, Bool.false_eq_true, if_false, hresult]

theorem normalPattern_of_ofMembers {found : List (Text × Json)} {settings : Settings}
    (h : Settings.ofMembers found = .ok settings) : Settings.NormalPattern settings.versionPattern :=
  Settings.pattern_of_ofMembers Settings.normalPattern_default
    (fun _ _ => Settings.normalPattern_of_patternOf) h

/-- Kept values are checked under the names of the settings. -/
theorem normalPattern_of_ofProperties {room : Nat} {found : List (Text × Json)} {settings : Settings}
    (h : Settings.ofProperties room found = .ok settings) :
    Settings.NormalPattern settings.versionPattern := by
  unfold Settings.ofProperties at h
  cases henabled : Settings.member found Settings.enabledKey false (Settings.saysTrue room) with
  | error fault =>
    rw [henabled] at h
    cases h
  | ok enabled =>
    rw [henabled] at h
    exact normalPattern_of_ofMembers h

/-- Named values are settings that have passed the checks, or some of them are refused. -/
theorem ofMembers_cases (room : Nat) (members : List (Codes × Json Codes)) :
    (∃ settings, ofMembers room members = .ok settings ∧
        Settings.NormalPattern settings.versionPattern) ∨
      ∃ errors, ofMembers room members = .error (.invalid errors) := by
  have hcases (result : Except (List FieldError) Settings)
      (hnormal : ∀ settings, result = .ok settings → Settings.NormalPattern settings.versionPattern) :
      (∃ settings, result.mapError SettingsError.invalid = .ok settings ∧
        Settings.NormalPattern settings.versionPattern) ∨
      ∃ errors, result.mapError SettingsError.invalid = .error (.invalid errors) := by
    cases result with
    | error errors => exact .inr ⟨errors, rfl⟩
    | ok settings => exact .inl ⟨settings, rfl, hnormal settings rfl⟩
  refine hcases _ fun settings h => ?_
  split at h
  · exact normalPattern_of_ofProperties (checked_eq_ok_iff.1 h).2
  · exact normalPattern_of_ofMembers (checked_eq_ok_iff.1 h).2

/-! ## Codes of errors -/

/-- What is found at a path if loading fails with a code. -/
inductive FailsWith (room : Json.Room) (files : Files) (path : FilePath) : Text → Prop
  /-- Nothing that can be read. -/
  | unreadable (error : ReadError) (h : files path = .error error) :
    FailsWith room files path "SETTINGS_READ_ERROR".toList
  /-- A text that is no document. -/
  | notJson (document : Text) (hfile : files path = .ok (Bytes.ofText document))
    (hread : Json.read room.reading document = .error .noDocument) :
    FailsWith room files path "SETTINGS_READ_ERROR".toList
  /-- A document that does not hold named values. -/
  | notObject (document : Text) (value : Json Codes) (hfile : files path = .ok (Bytes.ofText document))
    (hread : Json.read room.reading document = .ok value) (hother : ∀ members, value ≠ .object members) :
    FailsWith room files path "SETTINGS_FORMAT_ERROR".toList
  /-- Named values that are refused. -/
  | invalid (document : Text) (members : List (Codes × Json Codes))
    (hfile : files path = .ok (Bytes.ofText document))
    (hread : Json.read room.reading document = .ok (.object members))
    (hrefused : ∀ settings, ofMembers room.showing members ≠ .ok settings)
    (hchecked : ¬ BreaksOff room.showing members) :
    FailsWith room files path "INVALID_SETTINGS".toList

/-- A document is too much to be read: one of its numbers is too long, or its values are nested too deep. -/
def IsTooMuch (room : Json.Room) (document : Text) : Prop :=
  (∃ digits, Json.read room.reading document = .error (.longNumber digits)) ∨
    Json.read room.reading document = .error .deepNesting

/-- What is found at a path if loading fails without a code. -/
inductive FailsBare (room : Json.Room) (files : Files) (path : FilePath) : Prop
  /-- Bytes that are no text. -/
  | noText (h : HoldsNoText files path)
  /-- A text that is too much to be read. -/
  | unread (document : Text) (hfile : files path = .ok (Bytes.ofText document))
    (hread : IsTooMuch room document)
  /-- Named values whose check breaks off. -/
  | unchecked (document : Text) (members : List (Codes × Json Codes))
    (hfile : files path = .ok (Bytes.ofText document))
    (hread : Json.read room.reading document = .ok (.object members))
    (hbreaks : BreaksOff room.showing members)

/-- What is found so leads to an error with the code. -/
theorem FailsWith.exists_error (h : FailsWith room files path code) :
    ∃ error, load room files path = .error error ∧ error.code? = some code := by
  cases h with
  | unreadable error h => exact ⟨_, load_of_error h, rfl⟩
  | notJson document hfile hread =>
    exact ⟨_, (load_of_text hfile).trans (ofDocument_of_error hread), rfl⟩
  | notObject document value hfile hread hother =>
    exact ⟨_, (load_of_text hfile).trans (ofDocument_of_other hread hother), rfl⟩
  | invalid document members hfile hread hrefused hchecked =>
    obtain ⟨settings, hsettings, -⟩ | ⟨errors, herrors⟩ := ofMembers_cases room.showing members
    · exact absurd hsettings (hrefused settings)
    · refine ⟨_, (load_of_text hfile).trans ((ofDocument_of_object hread).trans herrors), ?_⟩
      have hcode : (SettingsError.invalid errors).code? ≠ none := fun hnone =>
        hchecked (breaksOff_iff.2 ⟨errors, herrors, hnone⟩)
      rw [SettingsError.code?] at hcode ⊢
      split at hcode
      · exact absurd rfl hcode
      · rename_i hnone
        rw [if_neg hnone]

/-- What is found so leads to an error without a code. -/
theorem FailsBare.exists_error (h : FailsBare room files path) :
    ∃ error, load room files path = .error error ∧ error.code? = none := by
  cases h with
  | noText hnoText =>
    obtain ⟨fault, hload⟩ : ∃ fault, load room files path = .error (.undecodable fault) :=
      exists_load_of_holdsNoText hnoText
    exact ⟨_, hload, rfl⟩
  | unread document hfile hread =>
    obtain ⟨digits, hread⟩ | hread := hread
    · exact ⟨_, (load_of_text hfile).trans (ofDocument_of_error hread), rfl⟩
    · exact ⟨_, (load_of_text hfile).trans (ofDocument_of_error hread), rfl⟩
  | unchecked document members hfile hread hbreaks =>
    obtain ⟨errors, herrors, hcode⟩ := breaksOff_iff.1 hbreaks
    exact ⟨_, (load_of_text hfile).trans ((ofDocument_of_object hread).trans herrors), hcode⟩

/-- Loading gives settings that have passed the checks, unless there is a reason to fail, with a code or
without one. -/
theorem load_cases (room : Json.Room) (files : Files) (path : FilePath) :
    (∃ settings, load room files path = .ok settings ∧
        Settings.NormalPattern settings.versionPattern) ∨
      (∃ code, FailsWith room files path code) ∨ FailsBare room files path := by
  cases found files path with
  | nothing error h => exact .inr (.inl ⟨_, .unreadable error h⟩)
  | noText h => exact .inr (.inr (.noText h))
  | text document hfile =>
    cases hread : Json.read room.reading document with
    | error fault =>
      cases fault with
      | noDocument => exact .inr (.inl ⟨_, .notJson document hfile hread⟩)
      | longNumber digits =>
        exact .inr (.inr (.unread document hfile (.inl ⟨digits, hread⟩)))
      | deepNesting => exact .inr (.inr (.unread document hfile (.inr hread)))
    | ok value =>
      by_cases hobject : ∃ members, value = .object members
      · obtain ⟨members, rfl⟩ := hobject
        obtain ⟨settings, hsettings, hnormal⟩ | ⟨errors, herrors⟩ :=
          ofMembers_cases room.showing members
        · have hload := (load_of_text hfile).trans ((ofDocument_of_object hread).trans hsettings)
          exact .inl ⟨settings, hload, hnormal⟩
        · have hrefused (settings : Settings) : ofMembers room.showing members ≠ .ok settings := by
            rw [herrors]
            nofun
          by_cases hbreaks : BreaksOff room.showing members
          · exact .inr (.inr (.unchecked document members hfile hread hbreaks))
          · exact .inr (.inl ⟨_, .invalid document members hfile hread hrefused hbreaks⟩)
      · have hother (members : List (Codes × Json Codes)) : value ≠ .object members := fun heq =>
          hobject ⟨members, heq⟩
        exact .inr (.inl ⟨_, .notObject document value hfile hread hother⟩)

/-- Settings that are loaded have passed the checks. -/
theorem normalPattern_of_load {settings : Settings} (h : load room files path = .ok settings) :
    Settings.NormalPattern settings.versionPattern := by
  obtain ⟨other, hother, hnormal⟩ | ⟨code, hfails⟩ | hbare := load_cases room files path
  · obtain rfl : settings = other := Except.ok.inj (h.symm.trans hother)
    exact hnormal
  · obtain ⟨error, herror, -⟩ := hfails.exists_error
    cases h.symm.trans herror
  · obtain ⟨error, herror, -⟩ := hbare.exists_error
    cases h.symm.trans herror

/-- Loading fails with a code exactly if there is a reason for it. -/
theorem exists_error_code_iff :
    (∃ error, load room files path = .error error ∧ error.code? = some code) ↔
      FailsWith room files path code := by
  refine ⟨?_, FailsWith.exists_error⟩
  rintro ⟨error, hload, hcode⟩
  obtain ⟨settings, hsettings, -⟩ | ⟨other, hfails⟩ | hbare := load_cases room files path
  · cases hload.symm.trans hsettings
  · obtain ⟨error', hload', hother⟩ := hfails.exists_error
    obtain rfl : error = error' := Except.error.inj (hload.symm.trans hload')
    obtain rfl : code = other := Option.some.inj (hcode.symm.trans hother)
    exact hfails
  · obtain ⟨error', hload', hnone⟩ := hbare.exists_error
    obtain rfl : error = error' := Except.error.inj (hload.symm.trans hload')
    cases hcode.symm.trans hnone

/-- Loading fails without a code exactly if there is a reason for that. -/
theorem exists_error_no_code_iff :
    (∃ error, load room files path = .error error ∧ error.code? = none) ↔
      FailsBare room files path := by
  refine ⟨?_, FailsBare.exists_error⟩
  rintro ⟨error, hload, hnone⟩
  obtain ⟨settings, hsettings, -⟩ | ⟨other, hfails⟩ | hbare := load_cases room files path
  · cases hload.symm.trans hsettings
  · obtain ⟨error', hload', hother⟩ := hfails.exists_error
    obtain rfl : error = error' := Except.error.inj (hload.symm.trans hload')
    cases hnone.symm.trans hother
  · exact hbare

/-- Where reading does not give up and checking does not break off, only bytes that are no text lead to an
error without a code. -/
theorem failsBare_iff_holdsNoText
    (hreads : ∀ document fault, files path = .ok (Bytes.ofText document) →
      Json.read room.reading document = .error fault → fault = .noDocument)
    (hchecks : ∀ document members, files path = .ok (Bytes.ofText document) →
      Json.read room.reading document = .ok (.object members) → ¬ BreaksOff room.showing members) :
    FailsBare room files path ↔ HoldsNoText files path := by
  refine ⟨?_, .noText⟩
  rintro (hnoText | ⟨document, hfile, ⟨digits, hread⟩ | hread⟩ | ⟨document, members, hfile, hread, hbreaks⟩)
  · exact hnoText
  · cases hreads document _ hfile hread
  · cases hreads document _ hfile hread
  · exact absurd hbreaks (hchecks document members hfile hread)

/-- **What comes of loading settings.** At every path, loading gives settings that have passed the checks
or fails with an error that has a code, or it fails with an error without a code. The latter is so exactly
if there is a file with bytes that are no text, or its text is too much to be read, or the check of its
values breaks off; where these two do not happen, only the bytes matter. A code tells what is wrong:
nothing can be read or the text is no document, the document does not hold named values, or some of these
are refused. -/
theorem load_outcome_iff (room : Json.Room) (files : Files) (path : FilePath) :
    ((∃ settings, load room files path = .ok settings ∧
          Settings.NormalPattern settings.versionPattern) ∨
        (∃ error code, load room files path = .error error ∧ error.code? = some code) ↔
      ¬ FailsBare room files path) ∧
    (FailsBare room files path ↔ ∃ error, load room files path = .error error ∧ error.code? = none) ∧
    ((∀ document fault, files path = .ok (Bytes.ofText document) →
        Json.read room.reading document = .error fault → fault = .noDocument) →
      (∀ document members, files path = .ok (Bytes.ofText document) →
        Json.read room.reading document = .ok (.object members) →
          ¬ BreaksOff room.showing members) →
      (FailsBare room files path ↔ HoldsNoText files path)) ∧
    ∀ code, (∃ error, load room files path = .error error ∧ error.code? = some code) ↔
      FailsWith room files path code := by
  refine ⟨⟨?_, ?_⟩, exists_error_no_code_iff.symm, failsBare_iff_holdsNoText,
    fun code => exists_error_code_iff⟩
  · intro houtcome hbare
    obtain ⟨error, hload, hnone⟩ := hbare.exists_error
    rcases houtcome with ⟨settings, hsettings, -⟩ | ⟨error', code, hload', hcode⟩
    · cases hload.symm.trans hsettings
    · obtain rfl : error = error' := Except.error.inj (hload.symm.trans hload')
      cases hnone.symm.trans hcode
  · intro hnot
    obtain hsettings | ⟨code, hfails⟩ | hbare := load_cases room files path
    · exact .inl hsettings
    · obtain ⟨error, hload, hcode⟩ := hfails.exists_error
      exact .inr ⟨error, code, hload, hcode⟩
    · exact absurd hbare hnot

/-- Named values in an encoding with one byte for each character, one of them beyond ASCII: there are neither
settings nor an error with a code. -/
theorem no_outcome_of_single_bytes :
    let document : Text := "\x7b\"version_pattern\": \"\u00ff\"\x7d".toList
    let files : Files := fun _ => .ok (document.map fun c => .ofNat c.toNat)
    let path : FilePath := .ofText "settings.json".toList
    let room : Json.Room := ⟨0, 0⟩
    ¬ ((∃ settings, load room files path = .ok settings) ∨
      ∃ error code, load room files path = .error error ∧ error.code? = some code) := by
  intro document files path room
  have hload : load room files path = .error (.undecodable ⟨.invalidStart, 0xFF, 21, 1⟩) := rfl
  rw [hload]
  rintro (⟨settings, hsettings⟩ | ⟨error, code, herror, hcode⟩)
  · cases hsettings
  · cases herror
    cases hcode

end SettingsFile
end BuildLog
