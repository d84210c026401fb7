import BuildLog.Json.Display
import BuildLog.Pattern.Compile
import BuildLog.Text.Blank
import BuildLog.Text.LetterCase

/-!
# Settings of the detection

* `Settings`: whether tools with a version in their name are found, how a version looks, and whether
  backslashes separate components of paths;
* `Settings.ofMembers`, `Settings.attempt`: settings from named values, and one of them set anew. The
  values are checked, and some are brought into form on the way;
* `Settings.properties`, `Settings.ofProperties`: the form in which settings are kept.
-/

namespace BuildLog

/-! ## Errors -/

/-- Why a value is refused. -/
inductive FieldFault where
  /-- A text or number that is no truth value. -/
  | badBool
  /-- Something that cannot be a truth value. -/
  | notBool
  /-- Something that is no text. -/
  | notText
  /-- A text with half of a surrogate pair, which is no character. -/
  | notUnicode
  /-- A text that is too short. -/
  | tooShort
  /-- No value where one is needed. -/
  | missing
  /-- Something that does not have named values. -/
  | notObject
  /-- A name that no setting has. -/
  | unknownName
  /-- A name that no setting has, in an assignment. -/
  | unknownAttribute
  /-- A text with a rule of its own that it breaks, in words. -/
  | invalid (message : Text)
  /-- A pattern with a number that is too large for the machine. This breaks off all checks. -/
  | overflow
  /-- A value that is compared as it is shown, and cannot be shown. This breaks off all checks. -/
  | unshown (fault : Json.ShowingFault)
  deriving DecidableEq

namespace FieldFault

/-- The short name of a fault. -/
def name : FieldFault → Text
  | badBool => "bool_parsing".toList
  | notBool => "bool_type".toList
  | notText => "string_type".toList
  | notUnicode => "string_unicode".toList
  | tooShort => "string_too_short".toList
  | missing => "missing".toList
  | notObject => "model_type".toList
  | unknownName => "extra_forbidden".toList
  | unknownAttribute => "no_such_attribute".toList
  | invalid _ => "value_error".toList
  | overflow => "overflow".toList
  | unshown _ => "unshown".toList

/-- What a fault says, if it has words of its own. -/
def message? : FieldFault → Option Text
  | invalid message => some ("Value error, ".toList ++ message)
  | _ => none

/-- Whether a fault breaks off all checks. Others are told together. -/
def breaksOff : FieldFault → Bool
  | overflow | unshown _ => true
  | _ => false

end FieldFault

/-- A value that is refused, with its name; the whole has no name. -/
structure FieldError where
  field : Option Text
  fault : FieldFault
  deriving DecidableEq

/-! ## Values -/

/-- The texts that mean no. -/
def wordsForNo : List Text :=
  ["0".toList, "off".toList, "f".toList, "false".toList, "n".toList, "no".toList]

/-- The texts that mean yes. -/
def wordsForYes : List Text :=
  ["1".toList, "on".toList, "t".toList, "true".toList, "y".toList, "yes".toList]

/-- The first whole number that is too large for 64 bits with a sign. -/
def wordLimit : Int := 9223372036854775808

/-- A whole number as a truth value. -/
def boolOfInt (value : Int) : Except FieldFault Bool :=
  if value = 0 then .ok false else if value = 1 then .ok true else .error .badBool

/-- A value as a truth value: one itself, zero or one, or a word for yes or no in any case. Whole
numbers beyond 64 bits are not even looked at. -/
def boolOf : Json → Except FieldFault Bool
  | .bool value => .ok value
  | .int value =>
    if -wordLimit ≤ value && value < wordLimit then boolOfInt value else .error .notBool
  | .double value =>
    match value.toInt? with
    | some value => boolOfInt value
    | none => .error .notBool
  | .string value =>
    let word := Text.lowerAscii value
    if wordsForNo.contains word then .ok false
    else if wordsForYes.contains word then .ok true
    else .error .badBool
  | _ => .error .notBool

/-- A value as a text. -/
def textOf : Json → Except FieldFault Text
  | .string value => .ok value
  | _ => .error .notText

/-- Whether a value counts as given: it is neither empty nor zero nor a no. -/
def isGiven : Json → Bool
  | .null => false
  | .bool value => value
  | .int value => value ≠ 0
  | .double (.finite _ significand _) => significand ≠ 0
  | .double _ => true
  | .string value => !value.isEmpty
  | .array items => !items.isEmpty
  | .object members => !members.isEmpty

/-! ## Settings -/

/-- Settings of the detection. -/
structure Settings where
  /-- Whether a version in the name of a tool is accepted. -/
  versionEnabled : Bool
  /-- The pattern of versions. -/
  versionPattern : Text
  /-- Whether a backslash separates components of paths. -/
  matchBackslash : Bool
  deriving DecidableEq

namespace Settings

/-- Numbers with points between them, with a hyphen in front or without. -/
def defaultPattern : Text := "-?\\d+(\\.\\d+)*".toList

/-- The settings without any choice made. -/
def default : Settings := ⟨false, defaultPattern, false⟩

/-- The pattern that versions are matched with, empty if they are not accepted. -/
def effectivePattern (settings : Settings) : Text :=
  if settings.versionEnabled then settings.versionPattern else []

/-- Whether versions look as usual. -/
def hasDefaultPattern (settings : Settings) : Bool :=
  settings.versionPattern == defaultPattern

/-! ## Names -/

/-- The name of the choice to accept versions. -/
def enabledField : Text := "version_pattern_enabled".toList

/-- The name of the pattern of versions. -/
def patternField : Text := "version_pattern".toList

/-- The name of the choice to have backslashes as separators. -/
def backslashField : Text := "match_backslash".toList

/-- All names, in order. -/
def fields : List Text := [enabledField, patternField, backslashField]

/-! ## Checking -/

/-- What is wrong with a text that is no pattern, by the kind of its error. -/
def patternFault (pattern : Text) (error : PatternError) : FieldFault :=
  match error.fault.kind with
  | .pattern =>
    .invalid ("Invalid version pattern '".toList ++ pattern ++ "': ".toList ++ error.message)
  | .value => .invalid error.message
  | .overflow => .overflow

/-- A pattern of versions from a text: the text is trimmed, and without one the usual pattern is
taken. -/
def checkPattern (text : Text) : Except FieldFault Text :=
  let pattern := Text.trim text
  if pattern.isEmpty then .ok defaultPattern
  else
    match Pattern.ofText pattern with
    | .ok _ => .ok pattern
    | .error error => .error (patternFault pattern error)

/-- A pattern of versions from any value. -/
def patternOf (value : Json) : Except FieldFault Text :=
  textOf value >>= checkPattern

/-- The value under a name, checked, or the given one if there is none under that name. -/
def member {α : Type} (members : List (Text × Json)) (field : Text) (otherwise : α)
    (check : Json → Except FieldFault α) : Except FieldFault α :=
  match Json.member? field members with
  | some value => check value
  | none => .ok otherwise

/-- The error of a check, with its name. -/
def errorOf {α : Type} (field : Text) : Except FieldFault α → List FieldError
  | .ok _ => []
  | .error fault => [⟨some field, fault⟩]

/-- The errors about names that no setting has. -/
def unknownNames (members : List (Text × Json)) : List FieldError :=
  (members.filter (!fields.contains ·.1)).map fun entry => ⟨some entry.1, .unknownName⟩

/-- The errors that are told: one that breaks off all checks is told alone. -/
def told (errors : List FieldError) : List FieldError :=
  match errors.find? (·.fault.breaksOff) with
  | some error => [error]
  | none => errors

/-- The settings of named values. All errors are told, those of the settings first. -/
def ofMembers (members : List (Text × Json)) : Except (List FieldError) Settings :=
  let enabled := member members enabledField false boolOf
  let pattern := member members patternField defaultPattern patternOf
  let backslash := member members backslashField false boolOf
  let errors := errorOf enabledField enabled ++ errorOf patternField pattern ++
    errorOf backslashField backslash ++ unknownNames members
  match enabled, pattern, backslash, errors with
  | .ok enabled, .ok pattern, .ok backslash, [] => .ok ⟨enabled, pattern, backslash⟩
  | _, _, _, errors => .error (told errors)

/-- The settings with one of them set. -/
def assign (settings : Settings) (field : Text) (value : Json) : Except FieldError Settings :=
  let checked : Except FieldFault Settings :=
    if field = enabledField then
      (boolOf value).map fun enabled => { settings with versionEnabled := enabled }
    else if field = patternField then
      (patternOf value).map fun pattern => { settings with versionPattern := pattern }
    else if field = backslashField then
      (boolOf value).map fun backslash => { settings with matchBackslash := backslash }
    else .error .unknownAttribute
  checked.mapError fun fault => ⟨some field, fault⟩

/-- The settings after an attempt to set one of them, and why it failed: then nothing is changed. -/
def attempt (settings : Settings) (field : Text) (value : Json) : Settings × Option FieldError :=
  match settings.assign field value with
  | .ok changed => (changed, none)
  | .error error => (settings, some error)

/-- The settings as named values. -/
def toMembers (settings : Settings) : List (Text × Json) :=
  [(enabledField, .bool settings.versionEnabled), (patternField, .string settings.versionPattern),
    (backslashField, .bool settings.matchBackslash)]

/-! ## Properties -/

/-- The name under which the choice to accept versions is kept. -/
def enabledKey : Text := "vPatternEnabled".toList

/-- The name under which the pattern of versions is kept. -/
def patternKey : Text := "vPattern".toList

/-- The texts that are kept; the usual pattern is not. -/
def properties (settings : Settings) : List (Text × Text) :=
  (enabledKey, (if settings.versionEnabled then "true" else "false").toList) ::
    if settings.hasDefaultPattern then [] else [(patternKey, settings.versionPattern)]

/-- Whether a kept value says yes: it is shown as the word for true, in any case. -/
def saysTrue (room : Nat) (value : Json) : Except FieldFault Bool :=
  ((value.display room).mapError .unshown).map fun text => Text.lowerAscii text == "true".toList

/-- The pattern among kept values; without one that counts as given, the usual one is taken. -/
def keptPattern (kept : List (Text × Json)) : Json :=
  match Json.member? patternKey kept with
  | some value => if isGiven value then value else .string defaultPattern
  | none => .string defaultPattern

/-- The settings of kept values. -/
def ofProperties (room : Nat) (kept : List (Text × Json)) : Except (List FieldError) Settings := do
  let enabled ← (member kept enabledKey false (saysTrue room)).mapError fun fault =>
    [⟨some enabledKey, fault⟩]
  ofMembers [(enabledField, .bool enabled), (patternField, keptPattern kept)]

end Settings
end BuildLog
