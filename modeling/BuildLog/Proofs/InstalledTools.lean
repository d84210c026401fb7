import BuildLog.Proofs.ScanSearch
import Mathlib.Data.List.TakeWhile

/-!
# Where a tool is installed

A tool is known by the name of its command. The directory in front of the name is no concern of any probe,
however open the pattern of the tool is.

* `Path.name_name`: in either style, the name of a command is that of its last component behind slashes;
* `Probe.accepts_of_same_name`: a probe answers commands of the same name in the same way;
* `Detection.SameTool`: two answers that differ only in the invocation that they belong to;
* `Detection.scan_of_same_name`: lines with commands of the same name have the same tool, wherever it is
  installed.
-/

namespace BuildLog

/-- Every separator of the plain style is one of the Windows style. So the name in either style stands
behind the last slash. -/
theorem Path.name_name (style : PathStyle) (path : Text) :
    name style (name .posix path) = name style path := by
  have hinside (c : Char) : style.isSeparator c = false → PathStyle.posix.isSeparator c = false := by
    cases style with
    | posix => exact id
    | windows =>
      intro hc
      rw [PathStyle.isSeparator, Bool.or_eq_false_iff] at hc
      exact hc.1
  rw [name, name, name, List.reverse_reverse, List.takeWhile_takeWhile]
  congr 2
  funext c
  cases hc : style.isSeparator c with
  | true => simp
  | false => simp [hinside c hc]

/-- A probe judges a command by its name alone. -/
theorem Probe.accepts_of_same_name (probe : Probe) (version : Text) {command other : Text}
    (hname : Path.name .posix other = Path.name .posix command) :
    probe.accepts version other = probe.accepts version command := by
  have hsame : Path.name probe.style other = Path.name probe.style command := by
    rw [← Path.name_name, hname, Path.name_name]
  rw [accepts, accepts, Signature.accepts_eq_acceptsName, hsame, Signature.accepts_eq_acceptsName]

namespace Detection

/-- Two answers that differ only in the invocation that they belong to. -/
inductive SameTool (invocation again : Invocation) :
    Except PatternError (Option Outcome) → Except PatternError (Option Outcome) → Prop
  /-- Both searches meet the same fault. -/
  | fault (error : PatternError) : SameTool invocation again (.error error) (.error error)
  /-- Both searches find nothing. -/
  | nothing : SameTool invocation again (.ok none) (.ok none)
  /-- Both searches find the same signature under the same convention in the same style of paths, each with
  its own command and arguments. -/
  | found (probe : Probe) :
    SameTool invocation again (.ok (some ⟨probe, invocation⟩)) (.ok (some ⟨probe, again⟩))

variable {line other : Text} {invocation again : Invocation}

/-- What one search finds, the other finds too. -/
theorem SameTool.eq_some {outcome : Outcome} {answer : Except PatternError (Option Outcome)}
    (h : SameTool invocation again (.ok (some outcome)) answer) :
    answer = .ok (some ⟨outcome.probe, again⟩) := by
  cases h
  rfl

/-- A search looks at the name of a command alone. -/
theorem first?_of_same_name (version : Text)
    (hname : Path.name .posix again.command = Path.name .posix invocation.command)
    (probes : List Probe) :
    SameTool invocation again (first? version invocation probes) (first? version again probes) := by
  induction probes with
  | nil => exact .nothing
  | cons probe probes ih =>
    have hsame := probe.accepts_of_same_name version hname
    match haccepts : probe.accepts version invocation.command with
    | .error error =>
      rw [first?_cons_of_fault haccepts, first?_cons_of_fault (hsame.trans haccepts)]
      exact .fault error
    | .ok true =>
      rw [first?_cons_of_accepts haccepts, first?_cons_of_accepts (hsame.trans haccepts)]
      exact .found probe
    | .ok false =>
      rw [first?_cons_of_refuses haccepts, first?_cons_of_refuses (hsame.trans haccepts)]
      exact ih

/-- **A tool is found wherever it is installed.** For lines with commands that are the same behind their
last slash, the scans without an expander fail with the same fault, or find nothing, or find the same
signature under the same convention in the same style of paths, each with the command and the arguments of
its own line. -/
theorem scan_of_same_name (registry : Registry) (version : Text) (withBackslash : Bool)
    (hline : Invocation.ofLine? line = some invocation) (hother : Invocation.ofLine? other = some again)
    (hname : Path.name .posix again.command = Path.name .posix invocation.command) :
    SameTool invocation again (scan registry version withBackslash none line).result
      (scan registry version withBackslash none other).result := by
  rw [scan_without_expander hline, scan_without_expander hother]
  exact first?_of_same_name version hname _

/-- A command in quotes below directories with blanks and names of tools, and the same name without quotes
below another one. Neither the open pattern nor the version is found in the directories, and the backslash
that both names share is taken for a separator in the end. -/
theorem scan_of_same_name_quoted :
    let registry : Registry := [Registry.plain "pgcc" .gnuC, Registry.portableFamily ".+-pgcc" .gnuC]
    let version := "-[0-9]+".toList
    let invocation : Invocation := ⟨"D:/x-pgcc 4.8/pgcc/bin\\Arm-PGCC-8.EXE".toList, " -c a.c".toList⟩
    let again : Invocation := ⟨"/opt/it's/bin\\Arm-PGCC-8.EXE".toList, "\t-c b.c".toList⟩
    let line := "\"D:/x-pgcc 4.8/pgcc/bin\\Arm-PGCC-8.EXE\" -c a.c".toList
    let other := "/opt/it's/bin\\Arm-PGCC-8.EXE\t-c b.c".toList
    Invocation.ofLine? line = some invocation ∧ Invocation.ofLine? other = some again ∧
      Path.name .posix again.command = Path.name .posix invocation.command ∧
      ∃ probe : Probe, probe.position = 1 ∧ probe.strategy = .withVersionAndExtension ∧
        probe.style = .windows ∧
        (scan registry version true none line).result = .ok (some ⟨probe, invocation⟩) ∧
        (scan registry version true none other).result = .ok (some ⟨probe, again⟩) := by
  intro registry version invocation again line other
  have hline : Invocation.ofLine? line = some invocation := by decide +kernel
  have hother : Invocation.ofLine? other = some again := by decide +kernel
  have hname : Path.name .posix again.command = Path.name .posix invocation.command := by decide +kernel
  refine ⟨hline, hother, hname, ?_⟩
  have hfound : ((scan registry version true none line).result.toOption.join.any fun outcome =>
      outcome.probe.position == 1 && outcome.probe.strategy == .withVersionAndExtension &&
        outcome.probe.style == .windows) = true := by decide +kernel
  have hsame := scan_of_same_name registry version true hline hother hname
  generalize (scan registry version true none line).result = result at hsame hfound ⊢
  generalize (scan registry version true none other).result = second at hsame ⊢
  cases hsame with
  | fault error => cases hfound
  | nothing => cases hfound
  | found probe =>
    simp only [Except.toOption, Option.join_some, Option.any_some, Bool.and_eq_true,
      beq_iff_eq] at hfound
    exact ⟨probe, hfound.1.1, hfound.1.2, hfound.2, rfl, rfl⟩

end Detection
end BuildLog
