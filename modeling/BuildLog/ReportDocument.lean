import BuildLog.Report

/-!
# Reports as documents

Everything that is learned can be written as a JSON document. Parts that say nothing are left out where
their absence says the same.
-/

namespace BuildLog

/-- A named text. -/
private def textMember (name : String) (value : Text) : Text × Json :=
  (name.toList, .string value)

/-- A named text, if there is one. -/
private def textMember? (name : String) (value : Option Text) : List (Text × Json) :=
  (value.map fun value => (name.toList, Json.string value)).toList

/-- A named list of texts. -/
private def textsMember (name : String) (values : List Text) : Text × Json :=
  (name.toList, .array (values.map .string))

/-- A named number. -/
private def numberMember (name : String) (value : Nat) : Text × Json :=
  (name.toList, .int value)

/-- An entry: its kind and name, and what else it says. -/
def Entry.toJson (entry : Entry) : Json :=
  let kind (kind : String) : List (Text × Json) :=
    [textMember "kind" kind.toList, textMember "name" entry.name]
  match entry with
  | includePath _ system =>
    .object (kind "include_path" ++ if system then [("system".toList, .bool true)] else [])
  | define _ value => .object (kind "macro" ++ [textMember "value" value])
  | undefine _ => .object (kind "macro" ++ [("undefined".toList, .bool true)])
  | includeFile _ => .object (kind "include_file")
  | definitionsFile _ => .object (kind "macro_file")

/-- Parsed arguments, as named values. -/
def ParsedArguments.toMembers (parsed : ParsedArguments) : List (Text × Json) :=
  [("entries".toList, .array (parsed.entries.map (·.toJson))),
    textsMember "builtin_detection_args" parsed.builtinArguments]

/-- A query, with its call in both forms. -/
def Query.toJson (query : Query) : Json :=
  .object
    [textMember "command" query.command,
      textMember "language_id" query.language,
      textMember "detection_type" query.kind.name,
      textsMember "arguments" query.arguments,
      textsMember "argv" (query.argv []),
      textMember "command_line" (query.commandLine [])]

/-- A problem. -/
def Diagnostic.toJson (diagnostic : Diagnostic) : Json :=
  .object
    ([textMember "kind" diagnostic.kind.name, textMember "message" diagnostic.message] ++
      textMember? "file" diagnostic.file ++
      (diagnostic.index.map fun index => ("index".toList, Json.int index)).toList ++
      textMember? "command" diagnostic.command)

/-- A text, or the empty value. -/
def Json.ofText? : Option Text → Json
  | some text => .string text
  | none => .null

/-- The result of a record, as named values. -/
def RecordResult.toMembers (result : RecordResult) : List (Text × Json) :=
  let tool :=
    match result.outcome? with
    | none => []
    | some outcome =>
      [textMember "tool" outcome.probe.signature.name,
        textMember "command" outcome.invocation.command,
        textMember "strategy" outcome.probe.strategy.name,
        textMember "language_id" outcome.probe.signature.toolchain.language]
  let diagnostics :=
    if result.diagnostics.isEmpty then []
    else [("diagnostics".toList, .array (result.diagnostics.map (·.toJson)))]
  [("file".toList, Json.ofText? result.file?),
    ("directory".toList, Json.ofText? result.directory?)] ++ tool ++
    ((result.parsed?.map (·.toMembers)).getD []) ++ diagnostics

/-- The numbers of a report, as named values. -/
def Statistics.toMembers (statistics : Statistics) : List (Text × Json) :=
  [numberMember "total_records" statistics.records,
    numberMember "detected" statistics.detected,
    numberMember "rejected" statistics.rejected,
    numberMember "unknown_tools" statistics.unknownTools,
    ("by_tool".toList, .object (statistics.tools.map fun entry => (entry.1, .int entry.2))),
    numberMember "builtins_queries" statistics.queries,
    ("cache_hit_ratio".toList, .double statistics.hitRatio)]

/-- A report. -/
def Report.toJson (report : Report) : Json :=
  .object
    [("source".toList, Json.ofText? report.source),
      ("files".toList,
        .object (report.files.map fun entry => (entry.1, .array (entry.2.map (·.toJson))))),
      ("project_include_paths".toList,
        .object (report.projectPaths.map fun entry =>
          (entry.1, .array (entry.2.map fun path => .string path.name)))),
      ("builtins_queries".toList, .array (report.queries.map (·.toJson))),
      ("diagnostics".toList, .array (report.diagnostics.map (·.toJson))),
      ("statistics".toList, .object report.statistics.toMembers)]

end BuildLog
