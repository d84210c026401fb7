import BuildLog.Entry
import BuildLog.OptionForm
import BuildLog.Path.Resolve
import BuildLog.Text.Alphanumeric

/-!
# Option rules

What an option of a compiler means. A rule looks at the start of the remaining arguments, and either
takes an option with all that belongs to it or leaves everything as it is.

* `ArgumentReader`: anything that may be asked to read the next argument;
* `OptionRule`: the catalogue of readers, and `OptionRule.reader`, what each of them does;
* `isDefinableName`, `machineOptionWidth?`: the names that can be defined, and the options of the
  target machine.
-/

namespace BuildLog

/-- A reader of the next argument. It gets what was found so far, the directory of the compiler and
the remaining arguments, which do not start with a blank. It says what is found now, and how many
characters it took (none were taken if that is not positive) or why it failed. -/
abbrev ArgumentReader := ParsedArguments → Text → Text → ParsedArguments × Except ArgumentError Int

/-! ## Names of definitions -/

/-- Whether a name may start with a character. -/
def isNameStart (c : Char) : Bool :=
  c.isAlpha || c == '_' || c == '$'

/-- Whether a name may go on with a character. -/
def isNameChar (c : Char) : Bool :=
  Text.isWordChar c || c == '$'

/-- Whether a text is at its end, one line feed aside. -/
def isFinished (text : Text) : Bool :=
  text == [] || text == ['\n']

/-- Whether a list of parameters stands here, with nothing behind it. -/
def isParameterList : Text → Bool
  | '(' :: rest =>
    match rest.dropWhile (· != ')') with
    | ')' :: tail => isFinished tail
    | _ => false
  | _ => false

/-- Whether a text can be defined: a name, with a list of parameters or without. -/
def isDefinableName : Text → Bool
  | [] => false
  | c :: rest =>
    let tail := rest.dropWhile isNameChar
    isNameStart c && (isFinished tail || isParameterList tail)

/-! ## Options of the target machine -/

/-- Whether an option of the target machine may hold a character behind its `-m`. -/
def isMachineChar (c : Char) : Bool :=
  Text.isWordChar c || ['.', ',', '+', '=', '-'].contains c

/-- The length of the option of the target machine at the start of a text. -/
def machineOptionWidth? : Text → Option Nat
  | '-' :: 'm' :: rest =>
    let run := rest.takeWhile isMachineChar
    if !run.isEmpty && Text.startsBlank (rest.drop run.length) then some (run.length + 2) else none
  | _ => none

/-! ## Options with a value -/

/-- What the value of an option says. -/
inductive ValueMeaning where
  /-- A directory to search, marked as one of the system or not. -/
  | includePath (system : Bool)
  /-- A definition; the first of the separators ends its name, and without one the value is `1`. -/
  | define (separators : Text)
  /-- A name whose definition is taken back. -/
  | undefine
  /-- A file to include first. -/
  | includeFile
  /-- A file of definitions. -/
  | definitionsFile
  /-- Something that changes what is built into the compiler; the option is kept as written. -/
  | builtin
  deriving DecidableEq

namespace ValueMeaning

/-- The name and the replacement in a definition. -/
def splitDefinition (separators value : Text) : Text × Text :=
  match value.dropWhile (!separators.contains ·) with
  | [] => (value, ['1'])
  | _ :: replacement => (value.takeWhile (!separators.contains ·), replacement)

/-- A finding about a name, if it can be defined. -/
def named (name : Text) (entry : Entry) : Except ArgumentError Finding :=
  if isDefinableName name then .ok (.entry entry) else .error (.invalidName name)

/-- What a value says, given the directory of the compiler and the option as it was written. -/
def finding (meaning : ValueMeaning) (directory value written : Text) :
    Except ArgumentError Finding :=
  match meaning with
  | includePath system => .ok (.entry (.includePath (Path.resolve directory value) system))
  | define separators =>
    let parts := splitDefinition separators value
    named parts.1 (.define parts.1 parts.2)
  | undefine => named value (.undefine value)
  | includeFile => .ok (.entry (.includeFile (Path.resolve directory value)))
  | definitionsFile => .ok (.entry (.definitionsFile (Path.resolve directory value)))
  | builtin => .ok (.builtin written)

end ValueMeaning

/-! ## The catalogue -/

/-- A rule for one category of options. -/
inductive OptionRule where
  /-- An option with a value. -/
  | valued (form : OptionForm) (meaning : ValueMeaning)
  /-- Flags without a value that change what is built into the compiler. -/
  | flag (flags : List Text)
  /-- The options of the target machine. -/
  | machine
  deriving DecidableEq

namespace OptionRule

/-- What a rule takes from the start of a text: a finding, and the number of characters that it
stands for. -/
def take? (rule : OptionRule) (directory text : Text) :
    Except ArgumentError (Option (Finding × Nat)) :=
  match rule with
  | valued form meaning => do
    match ← form.match? text with
    | none => return none
    | some found =>
      let written := text.take found.width
      if found.value.isEmpty then throw (.emptyValue written)
      let finding ← meaning.finding directory found.value written
      return some (finding, found.width)
  | flag flags =>
    let word := text.takeWhile (!Text.isBlank ·)
    .ok (if flags.contains word then some (.builtin word, word.length) else none)
  | machine =>
    .ok ((machineOptionWidth? text).map fun width => (.builtin (text.take width), width))

/-- A rule as a reader: what it takes is added to the findings. -/
def reader (rule : OptionRule) : ArgumentReader := fun parsed directory text =>
  match rule.take? directory text with
  | .error error => (parsed, .error error)
  | .ok none => (parsed, .ok 0)
  | .ok (some (finding, width)) => (parsed.add finding, .ok width)

end OptionRule
end BuildLog
