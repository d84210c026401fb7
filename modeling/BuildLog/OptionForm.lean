import BuildLog.Token

/-!
# Options with a value

An option names itself and gives a value, in one of several forms.

* `OptionForm`: the spellings of an option, and the forms its value may take: joined to the name
  (`-Ipath`), as the next token (`-I path`), behind an equals sign (`--sysroot=path`);
* `OptionForm.match?`: the value of the option at the start of a text, and how much of the text it
  takes. The whole option may stand in quotes (`"-I/a b"`); the value is then joined.
-/

namespace BuildLog

/-- Why the text of an option is refused. -/
inductive ArgumentError where
  /-- The option asks for a value, and the text ends. -/
  | missingValue (option : Text)
  /-- The option was written with an empty value. -/
  | emptyValue (written : Text)
  /-- The name cannot be a name of the preprocessor. -/
  | invalidName (name : Text)
  /-- Any other failure of a reader, with its own code. -/
  | other (code : Text) (message : Text)
  deriving DecidableEq

namespace ArgumentError

/-- The short code of an error. -/
def code : ArgumentError → Text
  | missingValue _ => "MISSING_VALUE".toList
  | emptyValue _ => "EMPTY_VALUE".toList
  | invalidName _ => "INVALID_MACRO".toList
  | other code _ => code

/-- What an error says. -/
def message : ArgumentError → Text
  | missingValue option => "Option ".toList ++ option ++ " lacks a value".toList
  | emptyValue written => "Empty value in '".toList ++ written ++ ['\'']
  | invalidName name => "Invalid macro name '".toList ++ name ++ ['\'']
  | other _ message => message

end ArgumentError

/-- How an option may be written. -/
structure OptionForm where
  /-- The spellings of the option, tried in order. -/
  names : List Text
  /-- Whether the value may follow the name at once. -/
  joined : Bool := true
  /-- Whether the value may be the next token. -/
  separate : Bool := true
  /-- Whether the value may follow an equals sign. -/
  equals : Bool := false
  deriving DecidableEq

/-- A value and the number of characters that the option takes with it. -/
structure OptionMatch where
  value : Text
  width : Nat
  deriving DecidableEq

namespace OptionForm

/-- The value at the start of a text: the first token, or the whole text if its quotes are gone. -/
def valueOf (unquoted : Bool) (text : Text) : OptionMatch :=
  if unquoted then ⟨text, text.length⟩
  else
    let token := Token.read text
    ⟨token.value, token.width⟩

/-- A match with some more characters in front of the value. -/
def behind (characters : Nat) (found : OptionMatch) : OptionMatch :=
  { found with width := characters + found.width }

/-- The value behind the name of an option, if it has one of the forms that the option allows. -/
def valueAfter? (form : OptionForm) (unquoted : Bool) (name rest : Text) :
    Except ArgumentError (Option OptionMatch) :=
  if form.equals && rest.head? == some '=' then
    .ok (some (behind (name.length + 1) (valueOf unquoted rest.tail)))
  else if !Text.startsBlank rest then
    .ok (if form.joined then some (behind name.length (valueOf unquoted rest)) else none)
  else if !form.separate then .ok none
  else if Text.isAllBlank rest then .error (.missingValue name)
  else
    let start := name.length + Text.leadingBlanks rest
    .ok (some (behind start (valueOf unquoted (Text.trimStart rest))))

/-- The first spelling that the text starts with and that has a value in an allowed form. -/
def firstMatch? (form : OptionForm) (unquoted : Bool) (text : Text) :
    List Text → Except ArgumentError (Option OptionMatch)
  | [] => .ok none
  | name :: names =>
    match name.isPrefixOf? text with
    | none => firstMatch? form unquoted text names
    | some rest =>
      match form.valueAfter? unquoted name rest with
      | .ok none => firstMatch? form unquoted text names
      | found => found

/-- The option with its value inside a quoted token: the value is joined, and the option takes the
whole token. -/
def matchQuoted? (form : OptionForm) (text : Text) : Except ArgumentError (Option OptionMatch) :=
  let token := Token.read text
  let attached := { form with separate := false }
  (attached.firstMatch? true token.value form.names).map
    (Option.map fun found => ⟨found.value, token.width⟩)

/-- The value of the option at the start of a text, and how much of the text the two take. -/
def match? (form : OptionForm) : Text → Except ArgumentError (Option OptionMatch)
  | [] => .ok none
  | c :: rest =>
    if Token.isQuote c then form.matchQuoted? (c :: rest)
    else form.firstMatch? false (c :: rest) form.names

end OptionForm
end BuildLog
