import BuildLog.Proofs.CommandCuts
import BuildLog.Proofs.QueryTokens
import BuildLog.Proofs.RecordResults

/-!
# The line of a query

The call of a query can be written as one line, and the line should stand for the call: read as a command
with arguments, it should give the tokens of the call again.

* `Query.LineReadsBack`: the line of a query is read back as its call. `Query.lineReadsBack_iff`: that
  depends on the command and on the tokens of the arguments;
* `Detector.exists_of_process_query`: where the query of a record comes from;
* `Detector.lineReadsBack_of_process_iff`: for the records of a log, it depends on their quotes alone.
-/

namespace BuildLog

namespace Token

instance (value : Text) : Decidable (ReadsBack value) :=
  inferInstanceAs (Decidable (_ ∧ _ ∧ _))

end Token

/-! ## The call as a line -/

theorem BuiltinsKind.queryFlags_readsBack {kind : BuiltinsKind} {flags : List String}
    (h : kind.queryFlags? = some flags) : ∀ flag ∈ flags, Token.ReadsBack flag.toList := by
  cases kind <;> cases h <;> decide

namespace Query

variable {query : Query}

/-- The line of a query is read back as the call: the command, and behind it the other tokens. -/
def LineReadsBack (query : Query) : Prop :=
  ∃ rest, Invocation.ofLine? (query.commandLine []) = some ⟨query.command, rest⟩ ∧
    Token.values rest = (query.argv []).tail

theorem sourceName_eq_or (query : Query) :
    query.sourceName = "spec.cpp".toList ∨ query.sourceName = "spec.cu".toList ∨
      query.sourceName = "spec.c".toList := by
  unfold sourceName
  split
  · exact .inl rfl
  · split
    · exact .inr (.inl rfl)
    · exact .inr (.inr rfl)

/-- The usual source file has no quotes. -/
theorem sourceName_readsBack (query : Query) : Token.ReadsBack query.sourceName := by
  rcases query.sourceName_eq_or with h | h | h <;> rw [h] <;> decide

/-- The line of a query is read back as the call if, and only if, the command and the tokens of the
arguments read back: flags and source file always do. -/
theorem lineReadsBack_iff (hsupported : query.isSupported = true) :
    query.LineReadsBack ↔ Invocation.ReadsBack query.command ∧
      ∀ value ∈ query.arguments.flatMap Token.values, Token.ReadsBack value := by
  obtain ⟨flags, hflags⟩ := Option.isSome_iff_exists.1 hsupported
  have hargv : query.argv [] = query.command :: (query.arguments.flatMap Token.values ++
      (flags.map (·.toList) ++ [query.sourceName])) := by
    rw [argv_of_flags hflags]
    simp
  have hflagsBack : ∀ value ∈ flags.map (·.toList), Token.ReadsBack value := by
    intro value hvalue
    obtain ⟨flag, hflag, rfl⟩ := List.mem_map.1 hvalue
    exact BuiltinsKind.queryFlags_readsBack hflags flag hflag
  rw [LineReadsBack, commandLine, hargv, List.tail_cons, Invocation.ofLine?_line_iff]
  simp only [List.forall_mem_append, List.forall_mem_singleton, query.sourceName_readsBack, and_true]
  exact and_congr_right fun _ => and_iff_left hflagsBack

end Query

/-! ## Queries of records -/

/-- No token of an argument that is kept stands for nothing. -/
theorem Toolchain.value_ne_nil_of_mem (language : String) (kind : BuiltinsKind)
    {rules : List OptionRule} (hplain : ∀ rule ∈ rules, rule.hasPlainNames = true)
    (directory text : Text) :
    ∀ value ∈ ((ofRules language kind rules).parse directory text).builtinArguments.flatMap
      Token.values, value ≠ [] := by
  obtain ⟨portions, -, hkept, hsound⟩ := exists_portions hplain (Word.spaced_list text) directory
  rw [parse_eq language kind hplain]
  change ∀ value ∈ ((findings rules directory (Word.list text)).filterMap
    Finding.argument?).flatMap Token.values, value ≠ []
  rw [← hkept, Portion.values_kept hsound]
  intro value hvalue
  obtain ⟨token, htoken, rfl⟩ := List.mem_map.1 hvalue
  exact Portion.value_ne_nil_of_mem_keptTokens hsound token htoken

/-- A family that reads its arguments by rules with plain names. -/
def Toolchain.HasRules (toolchain : Toolchain) : Prop :=
  ∃ language kind rules, toolchain = .ofRules language kind rules ∧
    ∀ rule ∈ rules, rule.hasPlainNames = true

/-- The known tools all belong to such families. -/
theorem Registry.known_hasRules : ∀ signature ∈ known, signature.toolchain.HasRules := by
  have gnu (language : String) (kind : BuiltinsKind) :
      (Toolchain.ofRules language kind gnuRules).HasRules := ⟨_, _, _, rfl, by decide⟩
  have cuda : Toolchain.cuda.HasRules := ⟨_, _, cudaRules, rfl, by decide⟩
  have visual : Toolchain.visualCpp.HasRules := ⟨_, _, visualRules, rfl, by decide⟩
  simp only [known, List.forall_mem_cons, List.not_mem_nil, false_imp_iff, implies_true, and_true]
  exact ⟨gnu _ _, gnu _ _, gnu _ _, gnu _ _, gnu _ _, gnu _ _, cuda, gnu _ _, gnu _ _, gnu _ _, visual,
    gnu _ _, gnu _ _, gnu _ _, gnu _ _, gnu _ _, gnu _ _, gnu _ _, gnu _ _, gnu _ _, gnu _ _, gnu _ _,
    gnu _ _⟩

namespace Detector

variable {detector : Detector}

/-- A query of a record is that of the tool of its command line. -/
theorem exists_of_process_query {room : Nat} {value : Json} {index : Option Int} {parsing : Bool}
    {result : RecordResult} {query : Query}
    (hresult : (detector.process room value index parsing).result = .ok result)
    (hquery : result.query? = some query) :
    ∃ record outcome, CompileCommand.validate value = .ok record ∧
      (detector.detect record.command).result = .ok (some outcome) ∧
      query = Query.ofOutcome outcome
        (if parsing then some (parseArguments outcome record.directory) else none) := by
  rcases process_cases hresult with
    ⟨error, message, -, -, rfl, -⟩ | ⟨record, answer, hrecord, hanswer, rfl, -⟩
  · cases hquery
  · cases answer with
    | none => cases hquery
    | some outcome =>
      cases hquery
      exact ⟨record, outcome, hrecord, hanswer, rfl⟩

/-- A query that comes out of a record, read off the answer. -/
theorem exists_of_toOption_query {room : Nat} {value : Json} {index : Option Int} {parsing : Bool}
    {query : Query}
    (h : (detector.process room value index parsing).result.toOption.bind RecordResult.query? =
      some query) :
    ∃ result, (detector.process room value index parsing).result = .ok result ∧
      result.query? = some query := by
  cases hresult : (detector.process room value index parsing).result with
  | error error =>
    rw [hresult] at h
    cases h
  | ok result =>
    rw [hresult] at h
    exact ⟨result, rfl, h⟩

variable {settings : Settings} {registry : Registry} {expander : Option Expander} {calls : List Call}
  {line : Text} {outcome : Outcome}

/-- What a detector finds is a signature of its registry. -/
theorem mem_registry_of_result
    (h : (((start settings registry expander).run calls).detect line).result = .ok (some outcome)) :
    outcome.probe.signature ∈ registry := by
  have hlast : ((start settings registry expander).run (calls ++ [.detect line])).last =
      some outcome.probe := by
    rw [run, List.foldl_append]
    exact (answered_of_detect h).last
  exact List.mem_of_getElem? (belongsTo_of_last hlast).placed

/-- The command of an outcome is that of the line, or the long form of it, for a command with short
names. -/
theorem ofLine?_or_longForm_of_result
    (h : (((start settings registry expander).run calls).detect line).result = .ok (some outcome)) :
    Invocation.ofLine? line = some outcome.invocation ∨
      ∃ expand invocation, expander = some expand ∧ Invocation.ofLine? line = some invocation ∧
        Path.hasShortName invocation.command = true ∧
        outcome.invocation.command = expand invocation.command := by
  have htraced : ((start settings registry expander).run calls).Traced (fun _ => True) registry
      expander := traced_run trivial fun _ _ _ _ => trivial
  rcases last_or_scan_of_result h with ⟨-, hprobe⟩ | hscan
  · exact .inl (Probe.outcome?_eq_some_iff.1 hprobe).2.1
  · rw [htraced.scan_eq] at hscan
    rcases (Detection.recognized_of_scan hscan).1 with hprobe | ⟨invocation, hline, -, -, -, hlong, -⟩
    · exact .inl (Probe.outcome?_eq_some_iff.1 hprobe).2.1
    · obtain ⟨expand, hexpander, hshort, -, hsame⟩ := Detection.longForm?_eq_some_iff.1 hlong
      exact .inr ⟨expand, invocation, hexpander, hline, hshort, by rw [hsame]⟩

/-- **When the line of a query stands for its call.** In every run of a detector of the known tools, the
line of a query that was made for a record is read back as the call if, and only if, no token of its
arguments holds a double quote, and those that hold a single quote hold a blank as well. The command
always reads back, unless it is the long form of another one. -/
theorem lineReadsBack_of_process_iff (settings : Settings) (expander : Option Expander)
    (calls : List Call) (room : Nat) (value : Json) (index : Option Int) (parsing : Bool)
    (result : RecordResult) (query : Query)
    (hresult : (((start settings Registry.known expander).run calls).process room value index
      parsing).result = .ok result)
    (hquery : result.query? = some query) (hsupported : query.isSupported = true) :
    (query.LineReadsBack ↔ Invocation.ReadsBack query.command ∧
      ∀ token ∈ query.arguments.flatMap Token.values,
        '"' ∉ token ∧ ('\'' ∈ token → token.any Text.isBlank = true)) ∧
    (Invocation.ReadsBack query.command ∨
      ∃ expand record invocation, expander = some expand ∧
        CompileCommand.validate value = .ok record ∧
        Invocation.ofLine? record.command = some invocation ∧
        Path.hasShortName invocation.command = true ∧
        query.command = expand invocation.command) := by
  obtain ⟨record, outcome, hrecord, hdetected, rfl⟩ := exists_of_process_query hresult hquery
  have hne : ∀ token ∈ (Query.ofOutcome outcome (if parsing then
      some (parseArguments outcome record.directory) else none)).arguments.flatMap Token.values,
      token ≠ [] := by
    cases parsing with
    | false => exact nofun
    | true =>
      obtain ⟨language, kind, rules, htoolchain, hplain⟩ :=
        Registry.known_hasRules _ (mem_registry_of_result hdetected)
      have hvalues := Toolchain.value_ne_nil_of_mem language kind hplain record.directory
        outcome.invocation.arguments
      rw [← htoolchain] at hvalues
      exact hvalues
  constructor
  · rw [Query.lineReadsBack_iff hsupported]
    refine and_congr_right fun _ => forall₂_congr fun token htoken => ?_
    exact and_iff_right (hne token htoken)
  · rcases ofLine?_or_longForm_of_result hdetected with hline | hlong
    · exact .inl (Invocation.readsBack_of_ofLine? hline)
    · obtain ⟨expand, invocation, hexpander, hline, hshort, hcommand⟩ := hlong
      exact .inr ⟨expand, record, invocation, hexpander, hrecord, hline, hshort, hcommand⟩

/-- A command and two values with blanks are written in double quotes, which take care of a single quote
among them. -/
theorem lineReadsBack_of_process_quoted :
    let settings : Settings := ⟨true, Settings.defaultPattern, false⟩
    let value : Json := .object [("file".toList, .string "a.c".toList),
      ("command".toList, .string
        "\"C:/My Tools/gcc\" -I\"x\" --sysroot \"/it's here\" -std='c 11' -c a.c".toList),
      ("directory".toList, .string "/b".toList)]
    let query : Query := ⟨"C:/My Tools/gcc".toList, "c".toList, .gcc,
      ["--sysroot \"/it's here\"".toList, "-std='c 11'".toList]⟩
    ∃ result, (((start settings Registry.known none).run [.detect "gcc -c b.c".toList]).process 0
        value (some 1) true).result = .ok result ∧
      result.query? = some query ∧ query.isSupported = true ∧
      query.commandLine [] = ("\"C:/My Tools/gcc\" --sysroot \"/it's here\" \"-std=c 11\" " ++
        "-E -P -dM -Wp,-v spec.c").toList ∧
      query.LineReadsBack := by
  intro settings value query
  obtain ⟨result, hresult, hquery⟩ : ∃ result, (((start settings Registry.known none).run
      [.detect "gcc -c b.c".toList]).process 0 value (some 1) true).result = .ok result ∧
      result.query? = some query := exists_of_toOption_query (by decide +kernel)
  obtain ⟨hiff, hcommand⟩ := lineReadsBack_of_process_iff settings none
    [.detect "gcc -c b.c".toList] 0 value (some 1) true result query hresult hquery rfl
  have hown : Invocation.ReadsBack query.command := hcommand.resolve_right nofun
  exact ⟨result, hresult, hquery, rfl, by decide +kernel, hiff.2 ⟨hown, by decide +kernel⟩⟩

/-- A single quote without a blank is written as it stands. It opens a group in the line of the query, which
then has one token where the call has six. -/
theorem not_lineReadsBack_of_apostrophe :
    let value : Json := .object [("file".toList, .string "a.c".toList),
      ("command".toList, .string "gcc --sysroot=\"/it's\" -c a.c".toList),
      ("directory".toList, .string "/b".toList)]
    let query : Query := ⟨"gcc".toList, "c".toList, .gcc, ["--sysroot=\"/it's\"".toList]⟩
    (∃ result, ((start .default Registry.known none).process 0 value none true).result = .ok result ∧
      result.query? = some query) ∧
    query.isSupported = true ∧
    query.argv [] = ["gcc".toList, "--sysroot=/it's".toList, "-E".toList, "-P".toList, "-dM".toList,
      "-Wp,-v".toList, "spec.c".toList] ∧
    Invocation.ofLine? (query.commandLine []) =
      some ⟨"gcc".toList, " --sysroot=/it's -E -P -dM -Wp,-v spec.c".toList⟩ ∧
    Token.values " --sysroot=/it's -E -P -dM -Wp,-v spec.c".toList =
      ["--sysroot=/its -E -P -dM -Wp,-v spec.c".toList] ∧
    ¬ query.LineReadsBack := by
  intro value query
  have hline : Invocation.ofLine? (query.commandLine []) =
      some ⟨"gcc".toList, " --sysroot=/it's -E -P -dM -Wp,-v spec.c".toList⟩ := by decide +kernel
  refine ⟨exists_of_toOption_query (by decide +kernel), rfl, by decide +kernel, hline,
    by decide +kernel, ?_⟩
  rintro ⟨rest, hsame, hvalues⟩
  rw [hline] at hsame
  cases hsame
  exact absurd hvalues (by decide +kernel)

end Detector
end BuildLog
