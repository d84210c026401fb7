import BuildLog.FilePath
import BuildLog.Json.Reader
import BuildLog.Settings

/-!
# Settings in a file

* `SettingsFile.load`: the settings that a JSON file holds, under the names of the settings or in the
  form in which they are kept;
* `SettingsFile.checked`: what a check makes of named values among which halves of surrogate pairs may stand;
* `SettingsError`: why there are none.
-/

namespace BuildLog

/-- Why settings cannot be had. -/
inductive SettingsError where
  /-- The file cannot be read. -/
  | unreadable (error : ReadError)
  /-- The bytes of the file are no text. -/
  | undecodable (error : DecodingError)
  /-- The text of the file is no JSON document, or it is too much to be read. -/
  | unread (fault : Json.ReadingFault)
  /-- The document does not hold named values. -/
  | notObject (path : FilePath)
  /-- Some values of the document are refused. -/
  | invalid (errors : List FieldError)
  /-- Some values that are put in place of these are refused. -/
  | refused (errors : List FieldError)
  deriving DecidableEq

namespace SettingsError

/-- The short code of an error, if it is one of the configuration. A document that is too much to be read and
a check that is broken off have none. -/
def code? : SettingsError → Option Text
  | unreadable _ => some "SETTINGS_READ_ERROR".toList
  | unread .noDocument => some "SETTINGS_READ_ERROR".toList
  | notObject _ => some "SETTINGS_FORMAT_ERROR".toList
  | invalid errors =>
    if errors.any (·.fault.breaksOff) then none else some "INVALID_SETTINGS".toList
  | _ => none

/-- Whether a call tells an error and ends in order. Any other one breaks the call off. -/
def isTold : SettingsError → Bool
  | unread .deepNesting => false
  | invalid errors | refused errors =>
    errors.all fun error => error.fault != .overflow && error.fault != .unshown .deepNesting
  | _ => true

/-- What is said about a document that does not hold named values. -/
def formatMessage (path : FilePath) : Text :=
  "Settings file ".toList ++ path.text ++ " must contain a JSON object".toList

end SettingsError

namespace SettingsFile

/-! ## Halves of surrogate pairs -/

/-- Whether a value is a text with half of a surrogate pair. -/
def isTorn : Json Codes → Bool
  | .string codes => !Codes.isWhole codes
  | _ => false

/-- The error of a setting that half of a surrogate pair stands in. -/
def halfError? (isBroken : Bool) (field : Text) : Option FieldError :=
  if isBroken then some ⟨some field, .notUnicode⟩ else none

/-- The error of a member under its own name: names are texts, and settings are not torn. -/
def fieldError? (entry : Codes × Json Codes) : Option FieldError :=
  let name := Codes.text entry.1
  halfError? (!Codes.isWhole entry.1 || (Settings.fields.contains name && isTorn entry.2)) name

/-- The error of a member that is kept: of these, only the pattern is taken as the text that it is. -/
def keptError? (entry : Codes × Json Codes) : Option FieldError :=
  halfError? (entry.1 == Settings.patternKey.codes && isTorn entry.2) Settings.patternField

/-- The members without an error, with their texts. What else is torn is only shown. -/
def sound (error? : Codes × Json Codes → Option FieldError) (members : List (Codes × Json Codes)) :
    List (Text × Json) :=
  (members.filter fun entry => (error? entry).isNone).map fun entry =>
    (Codes.text entry.1, entry.2.map Codes.text)

/-- What a check makes of the members without an error, unless there are others. -/
def checked (error? : Codes × Json Codes → Option FieldError)
    (check : List (Text × Json) → Except (List FieldError) Settings)
    (members : List (Codes × Json Codes)) : Except (List FieldError) Settings :=
  match members.filterMap error?, check (sound error? members) with
  | [], result => result
  | errors, .ok _ => .error errors
  | errors, .error more => .error (Settings.told (errors ++ more))

/-! ## Documents -/

/-- Whether named values have the form in which settings are kept: one name of that form is enough. -/
def isKept (members : List (Codes × Json Codes)) : Bool :=
  members.any fun entry =>
    entry.1 == Settings.patternKey.codes || entry.1 == Settings.enabledKey.codes

/-- The settings of named values, in either form. -/
def ofMembers (room : Nat) (members : List (Codes × Json Codes)) : Except SettingsError Settings :=
  let settings :=
    if isKept members then checked keptError? (Settings.ofProperties room) members
    else checked fieldError? Settings.ofMembers members
  settings.mapError .invalid

/-- The settings of a document. -/
def ofDocument (room : Json.Room) (path : FilePath) (document : Text) :
    Except SettingsError Settings :=
  match Json.read room.reading document with
  | .error fault => .error (.unread fault)
  | .ok (.object members) => ofMembers room.showing members
  | .ok _ => .error (.notObject path)

/-- The settings in a file. -/
def load (room : Json.Room) (files : Files) (path : FilePath) : Except SettingsError Settings := do
  let bytes ← (files path).mapError .unreadable
  let document ← (Bytes.decode bytes).mapError .undecodable
  ofDocument room path document

end SettingsFile
end BuildLog
