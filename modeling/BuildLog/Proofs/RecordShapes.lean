import BuildLog.Proofs.RecordResults

/-!
# Shapes of results

A record is rejected, or its tool is not known, or it is, and the result shows which.

* `Record.Holds`: the texts of a record that was handed in. `Record.validate_eq_ok_iff`: these are the ones
  that pass the check;
* `Detector.Rejects`, `Detector.LeavesUnmatched`, `Detector.Matches`: what is known about a record and its
  result in each of the three cases, and `Detector.Shows` for all of them;
* `Detector.Agrees`: a line is treated like a record with that line;
* `Detector.shape_of_processRecord`: each result has just one shape, and `parseLine` agrees with it.
-/

namespace BuildLog

/-! ## Checked records -/

namespace CompileCommand

variable {members : List (Text × Json)} {field text given : Text} {record : CompileCommand}

/-- The three texts of a record stand under their names: the file is not empty, and the command is not
blank. -/
structure StandsIn (members : List (Text × Json)) (record : CompileCommand) : Prop where
  file : Json.member? fileField members = some (.string record.file)
  command : Json.member? commandField members = some (.string record.command)
  directory : Json.member? directoryField members = some (.string record.directory)
  file_ne_nil : record.file ≠ []
  not_blank : ∃ c ∈ record.command, Text.isBlank c = false

/-- A member passes if it is a text and that passes, if the check changes nothing. -/
theorem member_eq_ok_iff {check : Text → Except FieldFault Text} {property : Prop}
    (hcheck : ∀ given, check given = .ok text ↔ given = text ∧ property) :
    member members field check = .ok text ↔
      Json.member? field members = some (.string text) ∧ property := by
  unfold member
  cases Json.member? field members with
  | none => simp
  | some value =>
    cases value with
    | string given =>
      have hpassed : (textOf (.string given) >>= check) = check given := rfl
      simp [hpassed, hcheck]
    | _ => simp [textOf, bind, Except.bind]

theorem nonEmpty_eq_ok_iff : nonEmpty given = .ok text ↔ given = text ∧ text ≠ [] := by
  unfold nonEmpty
  cases given with
  | nil => simp +contextual
  | cons c given =>
    constructor
    · rintro ⟨⟩
      exact ⟨rfl, List.cons_ne_nil _ _⟩
    · rintro ⟨rfl, -⟩
      rfl

theorem nonBlank_eq_ok_iff :
    nonBlank given = .ok text ↔ given = text ∧ ∃ c ∈ text, Text.isBlank c = false := by
  unfold nonBlank
  constructor
  · split
    · nofun
    · rename_i hblank
      rintro ⟨⟩
      exact ⟨rfl, by simpa [Text.isAllBlank] using hblank⟩
  · rintro ⟨rfl, hblank⟩
    rw [if_neg (by simpa [Text.isAllBlank] using hblank)]

/-- A text that is not blank is not empty either. -/
theorem nonEmpty_nonBlank_eq_ok_iff :
    (nonEmpty given >>= nonBlank) = .ok text ↔
      given = text ∧ ∃ c ∈ text, Text.isBlank c = false := by
  cases given with
  | nil =>
    constructor
    · nofun
    · rintro ⟨rfl, _, hmem, -⟩
      cases hmem
  | cons c given => exact nonBlank_eq_ok_iff

theorem ofMembers_eq_ok_iff_members :
    ofMembers members = .ok record ↔
      member members fileField nonEmpty = .ok record.file ∧
        member members commandField (fun text => nonEmpty text >>= nonBlank) = .ok record.command ∧
        member members directoryField .ok = .ok record.directory := by
  obtain ⟨file, command, directory⟩ := record
  unfold ofMembers
  dsimp only
  cases member members fileField nonEmpty <;>
    cases member members commandField (fun text => nonEmpty text >>= nonBlank) <;>
      cases member members directoryField .ok <;> simp

/-- A record is read from the members in which it stands. -/
theorem ofMembers_eq_ok_iff : ofMembers members = .ok record ↔ record.StandsIn members := by
  have hfile : member members fileField nonEmpty = .ok record.file ↔
      Json.member? fileField members = some (.string record.file) ∧ record.file ≠ [] :=
    member_eq_ok_iff fun _ => nonEmpty_eq_ok_iff
  have hcommand : member members commandField (fun text => nonEmpty text >>= nonBlank) =
      .ok record.command ↔ Json.member? commandField members = some (.string record.command) ∧
        ∃ c ∈ record.command, Text.isBlank c = false :=
    member_eq_ok_iff fun _ => nonEmpty_nonBlank_eq_ok_iff
  have hdirectory : member members directoryField .ok = .ok record.directory ↔
      Json.member? directoryField members = some (.string record.directory) ∧ True :=
    member_eq_ok_iff fun _ => by simp
  rw [ofMembers_eq_ok_iff_members, hfile, hcommand, hdirectory]
  constructor
  · rintro ⟨⟨hfile, hne⟩, ⟨hcommand, hblank⟩, hdirectory, -⟩
    exact ⟨hfile, hcommand, hdirectory, hne, hblank⟩
  · rintro ⟨hfile, hcommand, hdirectory, hne, hblank⟩
    exact ⟨⟨hfile, hne⟩, ⟨hcommand, hblank⟩, hdirectory, trivial⟩

end CompileCommand

/-- The texts of a record that was handed in: those of one that was made before, or those that stand in a
value with names. -/
def Record.Holds : Record → CompileCommand → Prop
  | .made command, record => record = command
  | .value json, record => ∃ members, json = .object members ∧ record.StandsIn members

/-- A value with names passes the check if a record is read from its members. -/
theorem CompileCommand.validate_object_eq_ok_iff {members : List (Text × Json)}
    {record : CompileCommand} :
    validate (.object members) = .ok record ↔ ofMembers members = .ok record := by
  change (ofMembers members).mapError StructuralError.missingField = .ok record ↔ _
  cases ofMembers members <;> simp [Except.mapError]

namespace Record

variable {input : Record} {record : CompileCommand}

/-- A record passes the check with its texts. -/
theorem validate_eq_ok_iff : input.validate = .ok record ↔ input.Holds record := by
  cases input with
  | made command => simp [validate, Holds, eq_comm]
  | value json =>
    cases json with
    | object members =>
      rw [validate, CompileCommand.validate_object_eq_ok_iff, CompileCommand.ofMembers_eq_ok_iff]
      simp [Holds]
    | _ => simp [validate, CompileCommand.validate, Holds]

end Record

/-! ## Results -/

/-- How much of a result there is. -/
inductive Shape where
  /-- Only a problem with the form of the record. -/
  | rejected
  /-- The file, and the problem that its tool is not known. -/
  | unmatched
  /-- The file, its tool and the query. -/
  | matched
  deriving DecidableEq

/-- The shape of a result. -/
def RecordResult.shape : RecordResult → Shape
  | rejected _ => .rejected
  | unmatched .. => .unmatched
  | matched .. => .matched

namespace Detector

variable {detector after : Detector} {room : Nat} {input : Record} {record : CompileCommand}
  {index : Option Int} {parsing : Bool} {result : RecordResult}

/-- A record without texts is rejected: the result holds one problem and nothing else, and the detector is
the same. -/
structure Rejects (detector : Detector) (room : Nat) (input : Record) (index : Option Int)
    (result : RecordResult) (after : Detector) : Prop where
  noRecord : ∀ record, ¬ input.Holds record
  file : result.file? = none
  directory : result.directory? = none
  outcome : result.outcome? = none
  parsed : result.parsed? = none
  query : result.query? = none
  diagnostics : ∃ error message, input.validate = .error error ∧ error.message room = .ok message ∧
    result.diagnostics = [⟨.structural, message, none, index, none⟩]
  unchanged : after = detector

/-- The command of a record has no known tool: the result holds the file and one problem that tells the
file, the place and the command. -/
structure LeavesUnmatched (detector : Detector) (record : CompileCommand) (index : Option Int)
    (result : RecordResult) : Prop where
  noTool : (detector.detect record.command).result = .ok none
  file : result.file? = some (Path.resolve record.directory record.file)
  directory : result.directory? = some record.directory
  outcome : result.outcome? = none
  parsed : result.parsed? = none
  query : result.query? = none
  diagnostics : result.diagnostics =
    [⟨.noMatch, unknownToolMessage record.command, result.file?, index, some record.command⟩]

/-- The command of a record has a known tool: the result holds the tool, the query and, if that was asked
for, the parsed arguments, and there is no problem. -/
structure Matches (detector : Detector) (record : CompileCommand) (parsing : Bool)
    (result : RecordResult) : Prop where
  tool : ∃ outcome, (detector.detect record.command).result = .ok (some outcome) ∧
    result.outcome? = some outcome ∧ result.query? = some (Query.ofOutcome outcome result.parsed?)
  file : result.file? = some (Path.resolve record.directory record.file)
  directory : result.directory? = some record.directory
  parsed : result.parsed?.isSome = parsing
  diagnostics : result.diagnostics = []

/-- What a shape says about a record that was handed in, its result, and the detector after it. -/
def Shows (detector : Detector) (room : Nat) (input : Record) (index : Option Int) (parsing : Bool)
    (result : RecordResult) (after : Detector) : Shape → Prop
  | .rejected => detector.Rejects room input index result after
  | .unmatched => ∃ record, input.Holds record ∧ detector.LeavesUnmatched record index result
  | .matched => ∃ record, input.Holds record ∧ detector.Matches record parsing result

/-- What is said about a shape is said about the shape of the result: without a file it is rejected, and
only with a tool it is matched. -/
theorem Shows.eq_shape {shape : Shape} (h : detector.Shows room input index parsing result after shape) :
    shape = result.shape := by
  cases shape with
  | rejected =>
    have hfile := h.file
    cases result with
    | rejected => rfl
    | unmatched => cases hfile
    | matched => cases hfile
  | unmatched =>
    obtain ⟨_, -, hunmatched⟩ := h
    cases result with
    | rejected => cases hunmatched.file
    | unmatched => rfl
    | matched => cases hunmatched.outcome
  | matched =>
    obtain ⟨_, -, hmatched⟩ := h
    obtain ⟨outcome, -, htool, -⟩ := hmatched.tool
    cases result with
    | rejected => cases htool
    | unmatched => cases htool
    | matched => rfl

/-- A record with texts is processed by its command. -/
theorem processRecord_of_holds (h : input.Holds record) :
    detector.processRecord room input index parsing =
      ⟨((detector.detect record.command).result.mapError .badPattern).map
          (.ofAnswer record index parsing),
        (detector.detect record.command).detector, (detector.detect record.command).expanded⟩ := by
  have hvalid := Record.validate_eq_ok_iff.2 h
  cases input with
  | value json => exact process_of_ok hvalid
  | made command =>
    obtain rfl : record = command := h
    simp only [processRecord, processCommand]
    congr

/-- A record without texts is rejected. -/
theorem rejects_of_not_holds (hnone : ∀ record, ¬ input.Holds record)
    (h : (detector.processRecord room input index parsing).result = .ok result) :
    detector.Rejects room input index result
      (detector.processRecord room input index parsing).detector := by
  cases input with
  | made command => exact absurd rfl (hnone command)
  | value json =>
    cases hvalidate : CompileCommand.validate json with
    | ok record =>
      have hvalid : (Record.value json).validate = .ok record := hvalidate
      exact absurd (Record.validate_eq_ok_iff.1 hvalid) (hnone record)
    | error error =>
      obtain ⟨error', message, hvalidate', hmessage, rfl, hunchanged⟩ | ⟨record, -, hvalidate', -⟩ :=
        process_cases h
      · exact ⟨hnone, rfl, rfl, rfl, rfl, rfl, ⟨error', message, hvalidate', hmessage, rfl⟩, hunchanged⟩
      · cases hvalidate.symm.trans hvalidate'

/-- The result of a record whose command has no known tool. -/
theorem leavesUnmatched_ofAnswer (h : (detector.detect record.command).result = .ok none) :
    detector.LeavesUnmatched record index (.ofAnswer record index parsing none) :=
  ⟨h, rfl, rfl, rfl, rfl, rfl, rfl⟩

/-- The result of a record whose command has a known tool. -/
theorem matches_ofAnswer {outcome : Outcome}
    (h : (detector.detect record.command).result = .ok (some outcome)) :
    detector.Matches record parsing (.ofAnswer record index parsing (some outcome)) where
  tool := ⟨outcome, h, rfl, rfl⟩
  file := rfl
  directory := rfl
  parsed := by cases parsing <;> rfl
  diagnostics := rfl

/-- Of a record with texts, the detector has an answer, and the result is made of it. -/
theorem exists_answer_of_holds (hholds : input.Holds record)
    (h : (detector.processRecord room input index parsing).result = .ok result) :
    ∃ answer, (detector.detect record.command).result = .ok answer ∧
      result = .ofAnswer record index parsing answer := by
  rw [processRecord_of_holds hholds] at h
  cases hanswer : (detector.detect record.command).result with
  | error error =>
    rw [hanswer] at h
    cases h
  | ok answer =>
    rw [hanswer] at h
    cases h
    exact ⟨answer, rfl, rfl⟩

/-- Every result has a shape. -/
theorem exists_shows (h : (detector.processRecord room input index parsing).result = .ok result) :
    ∃ shape, detector.Shows room input index parsing result
      (detector.processRecord room input index parsing).detector shape := by
  by_cases hholds : ∃ record, input.Holds record
  · obtain ⟨record, hholds⟩ := hholds
    obtain ⟨answer, hanswer, rfl⟩ := exists_answer_of_holds hholds h
    cases answer with
    | none => exact ⟨.unmatched, record, hholds, leavesUnmatched_ofAnswer hanswer⟩
    | some outcome => exact ⟨.matched, record, hholds, matches_ofAnswer hanswer⟩
  · exact ⟨.rejected, rejects_of_not_holds (fun record hrecord => hholds ⟨record, hrecord⟩) h⟩

/-! ## Records and their lines -/

/-- A line and a record with that line are treated alike: the tool of the line is unknown if the result has
the shape of that, the tool and the arguments are those of the result, and nothing else is different
afterwards. -/
structure Agrees (line : ParsedLine) (processed : Processed) (result : RecordResult) (shape : Shape) :
    Prop where
  unknown : (∃ text, line.result = .error (.unknownTool text)) ↔ shape = .unmatched
  known : ∀ outcome parsed, line.result = .ok (outcome, parsed) ↔
    result.outcome? = some outcome ∧ result.parsed? = some parsed
  detector : line.detector = processed.detector
  expanded : line.expanded = processed.expanded

variable {line : Text}

theorem parseLine_of_unknown (directory : Text) (h : (detector.detect line).result = .ok none) :
    (detector.parseLine line directory).result = .error (.unknownTool line) := by
  simp only [parseLine, h]

theorem parseLine_of_known {outcome : Outcome} (directory : Text)
    (h : (detector.detect line).result = .ok (some outcome)) :
    (detector.parseLine line directory).result =
      .ok (outcome, parseArguments outcome directory) := by
  simp only [parseLine, h]

/-- A record whose arguments are parsed is treated like its line. -/
theorem agrees_of_shows {shape : Shape} (hholds : input.Holds record)
    (h : (detector.processRecord room input index true).result = .ok result)
    (hshape : detector.Shows room input index true result
      (detector.processRecord room input index true).detector shape) :
    Agrees (detector.parseLine record.command record.directory)
      (detector.processRecord room input index true) result shape := by
  obtain ⟨answer, hanswer, rfl⟩ := exists_answer_of_holds hholds h
  have hprocessed : detector.processRecord room input index true = _ := processRecord_of_holds hholds
  cases answer with
  | none =>
    obtain rfl : shape = .unmatched := hshape.eq_shape
    have hline := parseLine_of_unknown record.directory hanswer
    exact {
      unknown := iff_of_true ⟨_, hline⟩ rfl
      known := fun outcome parsed => by simp [hline, RecordResult.ofAnswer, RecordResult.outcome?]
      detector := by rw [hprocessed]; rfl
      expanded := by rw [hprocessed]; rfl }
  | some outcome =>
    obtain rfl : shape = .matched := hshape.eq_shape
    have hline := parseLine_of_known record.directory hanswer
    exact {
      unknown := by simp [hline]
      known := fun other parsed => by
        simp [hline, RecordResult.ofAnswer, RecordResult.outcome?, RecordResult.parsed?]
      detector := by rw [hprocessed]; rfl
      expanded := by rw [hprocessed]; rfl }

/-- Every result has just one shape, which tells all there is about it, and a record whose arguments are
parsed is treated like its line. -/
theorem shape_of_processRecord
    (h : (detector.processRecord room input index parsing).result = .ok result) :
    (∃! shape, detector.Shows room input index parsing result
      (detector.processRecord room input index parsing).detector shape) ∧
    ∀ record shape, input.Holds record → parsing = true →
      detector.Shows room input index parsing result
        (detector.processRecord room input index parsing).detector shape →
      Agrees (detector.parseLine record.command record.directory)
        (detector.processRecord room input index parsing) result shape := by
  constructor
  · obtain ⟨shape, hshape⟩ := exists_shows h
    exact ⟨shape, hshape, fun other hother => hother.eq_shape.trans hshape.eq_shape.symm⟩
  · rintro record shape hholds rfl hshape
    exact agrees_of_shows hholds h hshape

/-- A record with one more member, after a line with the same tool: the remembered probe accepts it, and
its arguments are parsed. -/
theorem shape_of_processRecord_remembered :
    let room : Nat := 0
    let detector := (start .default .known none).run [.detect "gcc -c b.c".toList]
    let input : Record := .value (.object [("output".toList, .string "a.o".toList),
      ("file".toList, .string "a.c".toList), ("command".toList, .string "gcc -DA -c a.c".toList),
      ("directory".toList, .string "/b".toList)])
    let processed := detector.processRecord room input (some 1) true
    ∃ result, processed.result = .ok result ∧
      detector.Shows room input (some 1) true result processed.detector .matched ∧
      Agrees (detector.parseLine "gcc -DA -c a.c".toList "/b".toList) processed result .matched := by
  intro room detector input processed
  have hoption : processed.result.toOption.map (·.shape) = some .matched := by
    decide +kernel
  obtain ⟨result, hresult, hmatched⟩ := exists_of_toOption_map hoption
  obtain ⟨⟨shape, hshape, -⟩, hagrees⟩ := shape_of_processRecord hresult
  obtain rfl : shape = .matched := hshape.eq_shape.trans hmatched
  have hholds : input.Holds ⟨"a.c".toList, "gcc -DA -c a.c".toList, "/b".toList⟩ :=
    Record.validate_eq_ok_iff.1 (by rfl)
  exact ⟨result, hresult, hshape, hagrees _ _ hholds rfl hshape⟩

end Detector
end BuildLog
