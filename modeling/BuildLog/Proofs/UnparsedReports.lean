import BuildLog.Proofs.ReportCounts

/-!
# Reports without parsing

The detector does not know whether arguments are parsed, and a report takes entries and the arguments of
queries from parsing only. So a report without parsing can be told from the one with it.

* `RecordResult.unparsed`: a result without what parsing has found. `Detector.process_unparsed`: this is
  the result without parsing, and the detector after it is the same;
* `Report.unparsed`: a report without what parsing has found. `Report.add_unparsed`: it is made from the
  results without it, and `Report.ofRecords_unparsed`: it is the report without parsing;
* `Report.LeavesOutParsing`: what two such reports have in common, and what the second one lacks.
  `Report.leavesOutParsing_of_ofRecords`: so it is for every build log.
-/

namespace BuildLog

/-! ## Results -/

/-- A query without the arguments that were found by parsing. -/
def Query.unparsed (query : Query) : Query :=
  { query with arguments := [] }

namespace RecordResult

/-- A result without what parsing has found. -/
def unparsed : RecordResult → RecordResult
  | matched file directory outcome _ query => matched file directory outcome none query.unparsed
  | result => result

variable (result : RecordResult)

@[simp] theorem file?_unparsed : result.unparsed.file? = result.file? := by
  cases result <;> rfl

@[simp] theorem directory?_unparsed : result.unparsed.directory? = result.directory? := by
  cases result <;> rfl

@[simp] theorem outcome?_unparsed : result.unparsed.outcome? = result.outcome? := by
  cases result <;> rfl

@[simp] theorem parsed?_unparsed : result.unparsed.parsed? = none := by
  cases result <;> rfl

@[simp] theorem diagnostics_unparsed : result.unparsed.diagnostics = result.diagnostics := by
  cases result <;> rfl

theorem ofAnswer_unparsed (record : CompileCommand) (index : Option Int) (answer : Option Outcome) :
    (ofAnswer record index true answer).unparsed = ofAnswer record index false answer := by
  cases answer <;> rfl

end RecordResult

/-- A record without parsing: its result is the one with parsing, without what parsing has found, and the
detector is the same afterwards. -/
theorem Detector.process_unparsed (detector : Detector) (room : Nat) (value : Json)
    (index : Option Int) :
    detector.process room value index false =
      { detector.process room value index true with
        result := (detector.process room value index true).result.map (·.unparsed) } := by
  cases hvalue : CompileCommand.validate value with
  | error error =>
    rw [process_of_error hvalue, process_of_error hvalue]
    cases error.diagnostic room index <;> rfl
  | ok record =>
    rw [process_of_ok hvalue, process_of_ok hvalue]
    cases (detector.detect record.command).result with
    | error error => rfl
    | ok answer => simp only [Except.map, Except.mapError, RecordResult.ofAnswer_unparsed]

namespace Report

/-! ## Reports -/

/-- A report without what parsing has found. -/
def unparsed (report : Report) : Report :=
  { report with
    results := report.results.map (·.unparsed)
    files := []
    projectPaths := []
    queries := (report.queries.map (·.unparsed)).eraseDups }

theorem addEntries_unparsed (report : Report) (file language : Text) (entries : List Entry) :
    (report.addEntries file language entries).unparsed = report.unparsed := by
  rw [addEntries]
  split <;> rfl

/-- One more result, without what parsing has found. -/
theorem add_unparsed (report : Report) (result : RecordResult) :
    (report.add result).unparsed = report.unparsed.add result.unparsed := by
  cases result with
  | rejected diagnostic => simp [add, unparsed, RecordResult.unparsed, RecordResult.diagnostics]
  | unmatched file directory diagnostic =>
    simp [add, unparsed, RecordResult.unparsed, RecordResult.diagnostics]
  | matched file directory outcome parsed query =>
    simp only [add, addEntries_unparsed]
    simp [unparsed, RecordResult.unparsed, RecordResult.diagnostics, addEntries,
      eraseDups_map_addNew]

/-- All values from a place on: the reports with parsing and without it stay together, and both break off
at the same value. -/
theorem addAll_unparsed (room index : Nat) (values : List Json) (report : Report) (detector : Detector) :
    addAll room false index values (report.unparsed, detector) =
      (addAll room true index values (report, detector)).map fun after => (after.1.unparsed, after.2) := by
  induction values generalizing index report detector with
  | nil => rfl
  | cons value values ih =>
    rw [addAll, addAll, Detector.process_unparsed]
    cases (detector.process room value (some index) true).result with
    | error error => rfl
    | ok result =>
      simp only [Except.map, ← add_unparsed]
      exact ih (index + 1) (report.add result) _

/-- The report without parsing is the one with parsing, without what parsing has found. -/
theorem ofRecords_unparsed (room : Nat) (detector : Detector) (source : Option Text) (values : List Json) :
    ofRecords room detector false source values =
      (ofRecords room detector true source values).map unparsed := by
  have hall := addAll_unparsed room 0 values (start source) detector
  rw [show (start source).unparsed = start source from rfl] at hall
  rw [ofRecords, ofRecords, hall]
  cases addAll room true 0 values (start source, detector) <;> rfl

/-! ## What is left out -/

/-- A report without parsing beside the one with it. -/
structure LeavesOutParsing (full bare : Report) : Prop where
  /-- Record by record, the same is found out but for what parsing finds. -/
  files : bare.results.map (·.file?) = full.results.map (·.file?)
  directories : bare.results.map (·.directory?) = full.results.map (·.directory?)
  outcomes : bare.results.map (·.outcome?) = full.results.map (·.outcome?)
  diagnostics : bare.results.map (·.diagnostics) = full.results.map (·.diagnostics)
  /-- The same numbers, but for that of the queries. -/
  records : bare.statistics.records = full.statistics.records
  detected : bare.statistics.detected = full.statistics.detected
  rejected : bare.statistics.rejected = full.statistics.rejected
  unknownTools : bare.statistics.unknownTools = full.statistics.unknownTools
  tools : bare.statistics.tools = full.statistics.tools
  hitRatio : bare.statistics.hitRatio = full.statistics.hitRatio
  /-- Nothing that parsing finds. -/
  parsed : ∀ result ∈ bare.results, result.parsed? = none
  noFiles : bare.files = []
  noPaths : bare.projectPaths = []
  /-- The first appearances of the queries without their arguments. -/
  queries : bare.queries = (full.queries.map fun query => { query with arguments := [] }).eraseDups

theorem leavesOutParsing_unparsed (report : Report) : report.LeavesOutParsing report.unparsed where
  files := by simp [unparsed]
  directories := by simp [unparsed]
  outcomes := by simp [unparsed]
  diagnostics := by simp [unparsed]
  records := by simp [statistics, unparsed]
  detected := by simp [statistics, unparsed, List.countP_map, Function.comp_def]
  rejected := rfl
  unknownTools := rfl
  tools := rfl
  hitRatio := rfl
  parsed := by simp [unparsed]
  noFiles := rfl
  noPaths := rfl
  queries := rfl

/-- **Parsing changes nothing but what is parsed.** The values of a build log have a report without parsing
exactly if they have one with parsing; otherwise the same fault is met. Of the two reports, the one without
parsing says the same of each record, has the same numbers, has no entries and no directories to search,
and has the queries of the other one without their arguments, each once, where it appears first. -/
theorem leavesOutParsing_of_ofRecords (room : Nat) (settings : Settings) (registry : Registry)
    (expander : Option Expander) (source : Option Text) (values : List Json) :
    let report (parsing : Bool) :=
      ofRecords room (.start settings registry expander) parsing source values
    (∀ error, report true = .error error ↔ report false = .error error) ∧
      ∀ full, report true = .ok full → ∃ bare, report false = .ok bare ∧ full.LeavesOutParsing bare := by
  intro report
  have hreport : report false = (report true).map unparsed := ofRecords_unparsed room _ source values
  rw [hreport]
  constructor
  · intro error
    cases report true <;> simp [Except.map]
  · intro full hfull
    exact ⟨full.unparsed, by rw [hfull]; rfl, full.leavesOutParsing_unparsed⟩

/-- Two command lines of one compiler for two versions of its language, and a value that is no record:
without parsing, there is one query for both. -/
theorem leavesOutParsing_of_ofRecords_versions :
    let record (command : String) : Json := .object [("file".toList, .string "a.c".toList),
      ("command".toList, .string command.toList), ("directory".toList, .string "/b".toList)]
    let values : List Json := [record "gcc -std=c99 -I/x -c a.c", .int 7, record "gcc -std=c11 -c a.c"]
    let room : Nat := 0
    let report (parsing : Bool) := ofRecords room (.start .default .known none) parsing none values
    ∃ full bare, report true = .ok full ∧ report false = .ok bare ∧ full.LeavesOutParsing bare ∧
      full.queries.map (·.arguments) = [["-std=c99".toList], ["-std=c11".toList]] ∧
      bare.queries.map (·.arguments) = [[]] := by
  intro record values room report
  have harguments : (report true).toOption.map (fun full => full.queries.map (·.arguments)) =
      some [["-std=c99".toList], ["-std=c11".toList]] := by
    decide +kernel
  have hnone : (report false).toOption.map (fun bare => bare.queries.map (·.arguments)) =
      some [[]] := by
    decide +kernel
  obtain ⟨full, hfull, hfullArguments⟩ := exists_of_toOption_map harguments
  obtain ⟨-, hbare⟩ := leavesOutParsing_of_ofRecords room .default .known none none values
  obtain ⟨bare, hbare, hleaves⟩ := hbare full hfull
  refine ⟨full, bare, hfull, hbare, hleaves, hfullArguments, ?_⟩
  rw [show report false = .ok bare from hbare] at hnone
  exact Option.some.inj hnone

end Report
end BuildLog
