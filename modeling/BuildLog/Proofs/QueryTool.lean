import BuildLog.Proofs.CommandCuts
import BuildLog.Proofs.InstalledTools
import BuildLog.Proofs.QueryTokens

/-!
# The tool of a query

The line of a query is a command line itself, so a scan may look for its tool, and should find the one
that the query was made for.

* `Detection.scan_of_same_command`: lines with the same command have the same tool, unless it was found by
  the long form of the command;
* `Detection.scan_commandLine`: a scan of the line of a query finds the tool of the query, whatever its
  arguments are.
-/

namespace BuildLog

namespace Detection

variable {registry : Registry} {version line other : Text} {withBackslash : Bool}
  {expander : Option Expander} {invocation again : Invocation} {outcome : Outcome}

/-- Lines with the same command have the same tool, if it was found by the command as it is written. -/
theorem scan_of_same_command (hline : Invocation.ofLine? line = some invocation)
    (hother : Invocation.ofLine? other = some again) (hcommand : again.command = invocation.command)
    (hscan : (scan registry version withBackslash expander line).result = .ok (some outcome))
    (hown : outcome.invocation.command = invocation.command) :
    (scan registry version withBackslash expander other).result =
      .ok (some ⟨outcome.probe, again⟩) := by
  rw [scan_result hline] at hscan
  match hsearch : first? version invocation (order registry version withBackslash) with
  | .error error =>
    rw [hsearch] at hscan
    cases hscan
  | .ok (some found) =>
    rw [hsearch] at hscan
    cases hscan
    have hsame := first?_of_same_name version (congrArg (Path.name .posix) hcommand)
      (order registry version withBackslash)
    rw [hsearch] at hsame
    have hagain := hsame.eq_some
    rw [scan_eq_first? hother (by rw [hagain]; nofun), hagain]
  | .ok none =>
    -- only a long form is left, and that is another command
    rw [hsearch, orElse_none] at hscan
    cases withBackslash with
    | false => cases hscan
    | true =>
      obtain ⟨hlong, -⟩ := firstLong?_eq_some_iff.1 hscan
      obtain ⟨expand, -, -, hne, hsame⟩ := longForm?_eq_some_iff.1 hlong
      rw [hsame] at hown
      exact absurd hown hne

/-- **The line of a query has the tool of the query.** If a scan finds a tool by the command of a line as
it is written, then a scan of the line of the query for that tool finds the same signature under the same
convention in the same style of paths, with the same command, whatever the arguments and the source file
are. -/
theorem scan_commandLine (registry : Registry) (version : Text) (withBackslash : Bool)
    (expander : Option Expander) (line : Text) (outcome : Outcome)
    (hscan : (scan registry version withBackslash expander line).result = .ok (some outcome))
    (hown : (Invocation.ofLine? line).map (·.command) = some outcome.invocation.command)
    (parsed : Option ParsedArguments)
    (hsupported : (Query.ofOutcome outcome parsed).isSupported = true) (source : Text) :
    let query := Query.ofOutcome outcome parsed
    ∃ again, (scan registry version withBackslash expander (query.commandLine source)).result =
        .ok (some again) ∧
      again.probe = outcome.probe ∧ again.invocation.command = outcome.invocation.command := by
  intro query
  obtain ⟨invocation, hline, hcommand⟩ := Option.map_eq_some_iff.1 hown
  obtain ⟨flags, hflags⟩ := Option.isSome_iff_exists.1 hsupported
  have hreads : Invocation.ReadsBack outcome.invocation.command := by
    rw [← hcommand]
    exact Invocation.readsBack_of_ofLine? hline
  obtain ⟨arguments, hother⟩ : ∃ arguments, Invocation.ofLine? (query.commandLine source) =
      some ⟨outcome.invocation.command, arguments⟩ := by
    rw [Query.commandLine, Query.argv_of_flags hflags]
    exact Invocation.exists_ofLine?_line hreads _
  exact ⟨⟨outcome.probe, _⟩, scan_of_same_command hline hother hcommand.symm hscan hcommand.symm,
    rfl, rfl⟩

/-- A command in quotes that holds blanks, backslashes and a single quote, in front of an argument that
opens a group. -/
theorem scan_commandLine_quoted :
    let registry : Registry := [Registry.plain "pcc" .gnuC, Registry.portable "dmc" .gnuC]
    let command := "C:\\it's here\\DMC-8.EXE".toList
    let line := '"' :: command ++ "\" -c a.c".toList
    let outcome : Outcome :=
      ⟨⟨1, Registry.portable "dmc" .gnuC, .withVersionAndExtension, .windows⟩,
        ⟨command, " -c a.c".toList⟩⟩
    let query := Query.ofOutcome outcome (some ⟨[], ["--sysroot='/it".toList]⟩)
    (scan registry "-[0-9]+".toList true none line).result = .ok (some outcome) ∧
    (Invocation.ofLine? line).map (·.command) = some outcome.invocation.command ∧
    query.isSupported = true ∧
    ∃ again, (scan registry "-[0-9]+".toList true none (query.commandLine "my spec.c".toList)).result =
        .ok (some again) ∧
      again.probe = outcome.probe ∧ again.invocation.command = command := by
  intro registry command line outcome query
  have hscan : (scan registry "-[0-9]+".toList true none line).result = .ok (some outcome) := rfl
  have hown : (Invocation.ofLine? line).map (·.command) = some outcome.invocation.command := rfl
  exact ⟨hscan, hown, rfl, scan_commandLine registry "-[0-9]+".toList true none line outcome hscan hown
    (some ⟨[], ["--sysroot='/it".toList]⟩) rfl "my spec.c".toList⟩

end Detection
end BuildLog
