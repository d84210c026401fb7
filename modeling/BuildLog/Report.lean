import BuildLog.Number.Fixed
import BuildLog.Record

/-!
# Reports

What is learned from a whole build log.

* `Report.add`: the result of one more record merged into a report;
* `Report.ofRecords`: the report of a list of records, processed in order by one detector;
* `Statistics`: the numbers of a report;
* `Report.toJson`: a report as it is written to a file.

Everything keeps the order of the records: files and languages stand where they appear first.
-/

namespace BuildLog

/-! ## Lists by key -/

/-- Values under keys, in the order in which the keys appeared. -/
abbrev Grouped (α : Type) := List (Text × α)

namespace Grouped

/-- The value under a key changed; a new key gets the change of the given value. -/
def alter {α : Type} (entries : Grouped α) (key : Text) (fresh : α) (change : α → α) : Grouped α :=
  match entries with
  | [] => [(key, change fresh)]
  | (other, value) :: rest =>
    if other = key then (other, change value) :: rest
    else (other, value) :: alter rest key fresh change

end Grouped

/-- A list with one more element at its end, unless it holds it already. -/
def addNew {α : Type} [DecidableEq α] (items : List α) (item : α) : List α :=
  if item ∈ items then items else items ++ [item]

/-! ## Reports -/

/-- What is learned from one build log. -/
structure Report where
  /-- The name of the build log. -/
  source : Option Text
  /-- The results of the records. -/
  results : List RecordResult
  /-- All entries of each file that has any. -/
  files : Grouped (List Entry)
  /-- The directories to search for each language that has entries, each once. -/
  projectPaths : Grouped (List Entry)
  /-- All problems. -/
  diagnostics : List Diagnostic
  /-- How many records each tool has. -/
  tools : Grouped Nat
  /-- The queries, each once. -/
  queries : List Query
  hits : Nat
  scans : Nat

namespace Report

/-- The report of a build log without records. -/
def start (source : Option Text) : Report :=
  ⟨source, [], [], [], [], [], [], 0, 0⟩

/-- A report with the entries of one more record. -/
def addEntries (report : Report) (file language : Text) (entries : List Entry) : Report :=
  if entries.isEmpty then report
  else
    { report with
      files := report.files.alter file [] (· ++ entries)
      projectPaths := report.projectPaths.alter language [] fun known =>
        (entries.filter (·.isIncludePath)).foldl addNew known }

/-- A report with the result of one more record. -/
def add (report : Report) (result : RecordResult) : Report :=
  let report :=
    { report with
      results := report.results ++ [result]
      diagnostics := report.diagnostics ++ result.diagnostics }
  match result with
  | .matched file _ outcome parsed query =>
    let signature := outcome.probe.signature
    let report :=
      { report with
        tools := report.tools.alter signature.name 0 (· + 1)
        queries := addNew report.queries query }
    report.addEntries file signature.toolchain.language ((parsed.map (·.entries)).getD [])
  | _ => report

/-- A report and the detector that is at work on it, after the values of a build log from the given
place on. -/
def addAll (room : Nat) (parsing : Bool) :
    Nat → List Json → Report × Detector → Except RecordFault (Report × Detector)
  | _, [], state => .ok state
  | index, value :: values, (report, detector) =>
    let processed := detector.process room value (some index) parsing
    match processed.result with
    | .error error => .error error
    | .ok result => addAll room parsing (index + 1) values (report.add result, processed.detector)

/-- The report of the values of a build log, processed in order by a new detector. -/
def ofRecords (room : Nat) (detector : Detector) (parsing : Bool) (source : Option Text)
    (values : List Json) : Except RecordFault Report :=
  (addAll room parsing 0 values (start source, detector)).map fun (report, detector) =>
    { report with hits := detector.hits, scans := detector.scans }

/-- The report of a build log that could not be read. -/
def failed (source message : Text) : Report :=
  { start (some source) with diagnostics := [⟨.structural, message, some source, none, none⟩] }

end Report

/-! ## Statistics -/

/-- The numbers of a report. -/
structure Statistics where
  records : Nat
  detected : Nat
  rejected : Nat
  unknownTools : Nat
  tools : Grouped Nat
  queries : Nat
  hits : Nat
  scans : Nat

namespace Statistics

/-- How many problems are of a kind. -/
def countKind (kind : DiagnosticKind) (diagnostics : List Diagnostic) : Nat :=
  diagnostics.countP (·.kind == kind)

/-- The share of lines that the remembered probe accepted, zero if there were no lines. -/
def hitRatio (statistics : Statistics) : Double :=
  let lines := statistics.hits + statistics.scans
  if lines = 0 then .zero false else .nearest false statistics.hits lines

/-- The share of lines that the remembered probe accepted, with six places behind the point. -/
def hitRatioText (statistics : Statistics) : Text :=
  statistics.hitRatio.fixed 6

end Statistics

namespace Report

/-- The numbers of a report. -/
def statistics (report : Report) : Statistics :=
  { records := report.results.length
    detected := report.results.countP (·.outcome?.isSome)
    rejected := Statistics.countKind .structural report.diagnostics
    unknownTools := Statistics.countKind .noMatch report.diagnostics
    tools := report.tools
    queries := report.queries.length
    hits := report.hits
    scans := report.scans }

end Report
end BuildLog
