import BuildLog.Markup
import BuildLog.Report

/-!
# What is printed about a report

* `ConsoleItem`: a table, a line or the numbers of a report;
* `ConsoleItem.ofReport`: all that is printed about one report.

Texts from the build log are escaped, so that they are not taken for markup.
-/

namespace BuildLog

/-- Something that is printed. -/
inductive ConsoleItem where
  /-- A table with a title. -/
  | table (title : Text) (columns : List Text) (rows : List (List Text))
  /-- A line with markup. -/
  | line (markup : Text)
  /-- The numbers of a report. -/
  | statistics (statistics : Statistics)

namespace ConsoleItem

/-- The columns of the table of records. -/
def columns : List Text :=
  ["File".toList, "Tool".toList, "Include paths".toList, "Macros".toList, "Built-in flags".toList]

/-- A definition as it is shown: taken back, or with its value. -/
def definitionText : Entry → Text
  | .undefine name => '-' :: 'U' :: name
  | .define name value => name ++ '=' :: value
  | entry => entry.name

/-- The row of a record with a known tool. -/
def row (file : Text) (outcome : Outcome) (parsed : Option ParsedArguments) : List Text :=
  let parsed := parsed.getD .none
  [file, outcome.probe.signature.name,
    Text.joined ['\n'] (parsed.includePaths.map (·.name)),
    Text.joined ['\n'] (parsed.definitions.map definitionText),
    Text.joined [' '] parsed.builtinArguments].map Markup.escape

/-- The row of a record, if its tool is known. -/
def row? : RecordResult → Option (List Text)
  | .matched file _ outcome parsed _ => some (row file outcome parsed)
  | _ => none

/-- The line about a problem. -/
def ofDiagnostic (diagnostic : Diagnostic) : ConsoleItem :=
  .line ("[yellow]".toList ++ diagnostic.kind.name ++ "[/yellow]: ".toList ++
    Markup.escape diagnostic.message)

/-- The title of a report without a name. -/
def untitled : Text := "build log".toList

/-- All that is printed about a report, with its numbers if they are asked for. -/
def ofReport (report : Report) (showStatistics : Bool) : List ConsoleItem :=
  let title := (report.source.filter (!·.isEmpty)).getD untitled
  table title columns (report.results.filterMap row?) :: report.diagnostics.map ofDiagnostic ++
    if showStatistics then [statistics report.statistics] else []

end ConsoleItem
end BuildLog
