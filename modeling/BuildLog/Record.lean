import BuildLog.Detector
import BuildLog.Query

/-!
# Records of a build log

A record tells which file was compiled, by which command line and in which directory.

* `CompileCommand.ofJson`: a record from a value, if it has the three texts;
* `Record.validate`: the record that was handed in, as a value or made before;
* `Diagnostic`: a problem with a record;
* `RecordResult`, `Detector.process`, `Detector.processRecord`: what is found out about one record.

Problems with records are results, not errors; but a pattern may have a fault, and a value that is no record
may be such that it cannot be shown in the message about it.
-/

namespace BuildLog

/-! ## Records -/

/-- A record: a source file, the command line that compiled it, and the directory of the compiler. -/
structure CompileCommand where
  file : Text
  command : Text
  directory : Text
  deriving DecidableEq

namespace CompileCommand

/-- A text that must not be empty. -/
def nonEmpty (text : Text) : Except FieldFault Text :=
  if text.isEmpty then .error .tooShort else .ok text

/-- A text that must not be blank. -/
def nonBlank (text : Text) : Except FieldFault Text :=
  if Text.isAllBlank text then .error (.invalid "command must not be blank".toList) else .ok text

/-- The text under a name, checked. -/
def member (members : List (Text × Json)) (field : Text) (check : Text → Except FieldFault Text) :
    Except FieldFault Text :=
  match Json.member? field members with
  | some value => textOf value >>= check
  | none => .error .missing

/-- The name of the source file. -/
def fileField : Text := "file".toList

/-- The name of the command line. -/
def commandField : Text := "command".toList

/-- The name of the directory. -/
def directoryField : Text := "directory".toList

/-- A record from named values. All errors are told; other values do not matter. -/
def ofMembers (members : List (Text × Json)) : Except (List FieldError) CompileCommand :=
  let file := member members fileField nonEmpty
  let command := member members commandField fun text => nonEmpty text >>= nonBlank
  let directory := member members directoryField .ok
  match file, command, directory with
  | .ok file, .ok command, .ok directory => .ok ⟨file, command, directory⟩
  | _, _, _ =>
    .error (Settings.errorOf fileField file ++ Settings.errorOf commandField command ++
      Settings.errorOf directoryField directory)

/-- A record from a value, which must have named values. -/
def ofJson : Json → Except (List FieldError) CompileCommand
  | .object members => ofMembers members
  | _ => .error [⟨none, .notObject⟩]

end CompileCommand

/-- Why a value is no record. -/
inductive StructuralError where
  /-- The value does not have named values. -/
  | unexpectedEntry (value : Json)
  /-- One of the texts is missing or of no use. -/
  | missingField (errors : List FieldError)

namespace StructuralError

/-- The short code of an error. -/
def code : StructuralError → Text
  | unexpectedEntry _ => "UNEXPECTED_ENTRY".toList
  | missingField _ => "MISSING_FIELD".toList

/-- What an error says about a value as it is shown. -/
def message (room : Nat) : StructuralError → Except Json.ShowingFault Text
  | unexpectedEntry value =>
    (value.display room).map fun text =>
      "File format error: unexpected entry '".toList ++ text ++ ['\'']
  | missingField _ =>
    .ok "File format error: 'file', 'command' or 'directory' missing in JSON object".toList

end StructuralError

/-- The record in a value of a build log. -/
def CompileCommand.validate : Json → Except StructuralError CompileCommand
  | .object members => (ofMembers members).mapError .missingField
  | value => .error (.unexpectedEntry value)

/-- A record as it is handed in. -/
inductive Record where
  /-- A value of a build log. -/
  | value (json : Json)
  /-- A record that was made before. -/
  | made (command : CompileCommand)

/-- The record that was handed in. One that was made before is not checked again. -/
def Record.validate : Record → Except StructuralError CompileCommand
  | .value json => CompileCommand.validate json
  | .made command => .ok command

/-! ## Diagnostics -/

/-- What a problem is about. -/
inductive DiagnosticKind where
  /-- The form of a record or of a whole file. -/
  | structural
  /-- A command without a known tool. -/
  | noMatch
  deriving DecidableEq

/-- The name of a kind of problem. -/
def DiagnosticKind.name : DiagnosticKind → Text
  | structural => "structural".toList
  | noMatch => "no_match".toList

/-- A problem, and where it is known, the file, the place of the record and the command line. -/
structure Diagnostic where
  kind : DiagnosticKind
  message : Text
  file : Option Text
  index : Option Int
  command : Option Text
  deriving DecidableEq

/-- The place of a record as it is shown. -/
def placeText : Option Int → Except Json.ShowingFault Text
  | none => .ok "None".toList
  | some index => Json.displayInt index

/-- The problem with a value that is no record. A warning tells it together with the place, so that has to be
shown as well. -/
def StructuralError.diagnostic (error : StructuralError) (room : Nat) (index : Option Int) :
    Except Json.ShowingFault Diagnostic := do
  let message ← error.message room
  let _ ← placeText index
  return ⟨.structural, message, none, index, none⟩

/-! ## Results -/

/-- What is found out about one record. -/
inductive RecordResult where
  /-- It is no record. -/
  | rejected (diagnostic : Diagnostic)
  /-- The tool is not known. -/
  | unmatched (file directory : Text) (diagnostic : Diagnostic)
  /-- The tool is known. The arguments are parsed if that was asked for. -/
  | matched (file directory : Text) (outcome : Outcome) (parsed : Option ParsedArguments)
      (query : Query)

namespace RecordResult

/-- The source file, seen from the directory of the compiler. -/
def file? : RecordResult → Option Text
  | rejected _ => none
  | unmatched file .. => some file
  | matched file .. => some file

/-- The directory of the compiler. -/
def directory? : RecordResult → Option Text
  | rejected _ => none
  | unmatched _ directory _ => some directory
  | matched _ directory .. => some directory

/-- The detected tool. -/
def outcome? : RecordResult → Option Outcome
  | matched _ _ outcome .. => some outcome
  | _ => none

/-- The parsed arguments. -/
def parsed? : RecordResult → Option ParsedArguments
  | matched _ _ _ parsed _ => parsed
  | _ => none

/-- The query for built-in settings. -/
def query? : RecordResult → Option Query
  | matched _ _ _ _ query => some query
  | _ => none

/-- The problems with the record. -/
def diagnostics : RecordResult → List Diagnostic
  | rejected diagnostic => [diagnostic]
  | unmatched _ _ diagnostic => [diagnostic]
  | matched .. => []

/-- Whether the tool is known and there is no problem. -/
def success (result : RecordResult) : Bool :=
  result.outcome?.isSome && result.diagnostics.isEmpty

end RecordResult

/-! ## Processing -/

/-- Why nothing is found out about a record. -/
inductive RecordFault where
  /-- A pattern has a fault. -/
  | badPattern (error : PatternError)
  /-- What is wrong with the record cannot be told. -/
  | unshown (fault : Json.ShowingFault)
  deriving DecidableEq

/-- What a fault says. -/
def RecordFault.message : RecordFault → Text
  | badPattern error => error.message
  | unshown fault => fault.message

/-- What a detector finds out about a record, the detector after it, and the commands that were handed
to the expander. -/
structure Processed where
  result : Except RecordFault RecordResult
  detector : Detector
  expanded : List Text

namespace Detector

/-- Processes a record that has its three texts. -/
def processCommand (detector : Detector) (command : CompileCommand) (index : Option Int)
    (parsing : Bool) : Processed :=
  let file := Path.resolve command.directory command.file
  let found := detector.detect command.command
  let result := (found.result.mapError .badPattern).map fun
    | none =>
      .unmatched file command.directory
        ⟨.noMatch, unknownToolMessage command.command, some file, index, some command.command⟩
    | some outcome =>
      let parsed := if parsing then some (parseArguments outcome command.directory) else none
      .matched file command.directory outcome parsed (Query.ofOutcome outcome parsed)
  ⟨result, found.detector, found.expanded⟩

/-- Processes a value of a build log, which stands at the given place, with room for showing it. -/
def process (detector : Detector) (room : Nat) (value : Json) (index : Option Int) (parsing : Bool) :
    Processed :=
  match CompileCommand.validate value with
  | .error error =>
    ⟨((error.diagnostic room index).map .rejected).mapError .unshown, detector, []⟩
  | .ok command => detector.processCommand command index parsing

/-- Processes a record as it is handed in. -/
def processRecord (detector : Detector) (room : Nat) (record : Record) (index : Option Int)
    (parsing : Bool) : Processed :=
  match record with
  | .value json => detector.process room json index parsing
  | .made command => detector.processCommand command index parsing

end Detector
end BuildLog
