import BuildLog.Proofs.CommandCuts
import BuildLog.Proofs.NamePatterns
import BuildLog.Proofs.ProbeOrder

/-!
# Literal names

A name that is given literally is found as it is, whatever characters it has, and a pattern of versions
behind it stays within its bounds.

* `Signature.Names`: the names of a tool under the four conventions;
* `Signature.ofText_source`: the pattern of a literal name under a convention;
* `Signature.accepts_literal`: a tool with a literal name accepts exactly its names;
* `Signature.literal_names`: a line is accepted exactly if its command has a name of the tool, and then the
  whole command and all that follows are the answer.
-/

namespace BuildLog

/-! ## Names under a convention -/

/-- The names of a tool: the literal name, with an extension, a version or both behind it. A version is a
text that the pattern of versions matches from its start to its end. -/
def Signature.Names (signature : Signature) (version : Pattern) : Strategy → Text → Prop
  | .basename, name => name = signature.name
  | .withExtension, name =>
    ∃ extension, signature.extension = some extension ∧ name = signature.name ++ '.' :: extension
  | .withVersion, name =>
    ∃ number, version.matchesAll false number = true ∧ name = signature.name ++ number
  | .withVersionAndExtension, name =>
    ∃ number extension, version.matchesAll false number = true ∧
      signature.extension = some extension ∧ name = signature.name ++ number ++ '.' :: extension

/-- The patterns in use match exactly their texts: that of versions on its own and that of each
convention. -/
structure Signature.AllDecided (signature : Signature) (version : Text) : Prop where
  versions : ∀ pattern, Pattern.ofText version = .ok pattern → pattern.IsDecided
  names : ∀ strategy pattern,
    Pattern.ofText (signature.source strategy version) = .ok pattern → pattern.IsDecided

/-! ## Joined patterns -/

namespace Signature

variable {signature : Signature} {version : Text} {pattern : Pattern}

/-- The pattern of a literal name under a convention. -/
def joined (signature : Signature) (version : Pattern) (strategy : Strategy) : Pattern :=
  Pattern.literal signature.name
    (if strategy.usesVersion then
      .seq (.group none version) (.literal (signature.ending strategy) .empty)
    else .literal (signature.ending strategy) .empty)

theorem ofText_source (hliteral : signature.isPattern = false)
    (hpattern : Pattern.ofText version = .ok pattern) (hne : version ≠ [])
    (hflags : ¬ Pattern.SetsFlags version) (strategy : Strategy) :
    Pattern.ofText (signature.source strategy version) = .ok (signature.joined pattern strategy) := by
  unfold source joined
  rw [nameSource, hliteral, if_neg Bool.false_ne_true]
  by_cases huses : strategy.usesVersion = true
  · rw [if_pos huses, if_pos huses]
    exact Pattern.ofText_joined _ hpattern hne hflags
  · rw [if_neg huses, if_neg huses, Pattern.namePattern_eq]
    have htext : Pattern.escape signature.name ++ [] ++ Pattern.escape (signature.ending strategy) =
        Pattern.escape (signature.name ++ signature.ending strategy) := by
      rw [List.append_nil]
      exact List.flatMap_append.symm
    show Pattern.ofText (Pattern.escape signature.name ++ [] ++
      Pattern.escape (signature.ending strategy)) = _
    rw [htext, Pattern.ofText_escape, Pattern.literal_append]

/-- Joining brings in nothing but characters. -/
theorem joined_isDecided (hregular : pattern.isRegular = true) (hgives : pattern.hasPossessive = false)
    (strategy : Strategy) :
    (signature.joined pattern strategy).IsDecided := by
  intro text
  apply Pattern.matchesIn_iff_spells
  · rw [joined, Pattern.isRegular_literal]
    split
    · simpa [Pattern.isRegular, Pattern.isRegular_literal] using hregular
    · rw [Pattern.isRegular_literal]
      rfl
  · rw [joined, Pattern.hasPossessive_literal]
    split
    · simpa [Pattern.hasPossessive, Pattern.hasPossessive_literal] using hgives
    · rw [Pattern.hasPossessive_literal]
      rfl

/-- The texts of a joined pattern. -/
theorem spells_joined_iff (strategy : Strategy) (name : Text) :
    Pattern.Spells .plain (signature.joined pattern strategy) name ↔
      ∃ number, name = signature.name ++ number ++ signature.ending strategy ∧
        if strategy.usesVersion then Pattern.Spells .plain pattern number else number = [] := by
  rw [joined, Pattern.spells_literal_iff rfl]
  by_cases huses : strategy.usesVersion = true
  · simp only [if_pos huses]
    constructor
    · rintro ⟨_, rfl, number, ending, rfl, hnumber, hending⟩
      rw [Pattern.spells_literal_empty_iff rfl] at hending
      exact ⟨number, by rw [hending, List.append_assoc], hnumber⟩
    · rintro ⟨number, rfl, hnumber⟩
      refine ⟨number ++ signature.ending strategy, List.append_assoc .., number, _, rfl, hnumber, ?_⟩
      exact (Pattern.spells_literal_empty_iff rfl).2 rfl
  · simp only [if_neg huses, Pattern.spells_literal_empty_iff (rfl : Mode.plain.ignoreCase = false)]
    constructor
    · rintro ⟨_, rfl, rfl⟩
      exact ⟨[], by rw [List.append_nil], rfl⟩
    · rintro ⟨_, rfl, rfl⟩
      exact ⟨_, by rw [List.append_nil], rfl⟩

/-- The names of a tool are the texts of its joined patterns. -/
theorem names_iff (hversion : pattern.IsDecided) {strategy : Strategy}
    (hsupports : signature.supports strategy = true) (hextension : signature.extension ≠ some [])
    (name : Text) :
    signature.Names pattern strategy name ↔
      Pattern.Spells .plain (signature.joined pattern strategy) name := by
  have hsuffix (h : strategy.usesExtension = true) : ∃ extension,
      signature.extension = some extension ∧ signature.ending strategy = '.' :: extension := by
    rw [supports, h, Bool.not_true, Bool.or_false, Option.isSome_iff_exists] at hsupports
    obtain ⟨extension, hsome⟩ := hsupports
    have hne : extension ≠ [] := by
      rintro rfl
      exact hextension hsome
    exact ⟨extension, hsome, ending_of_usesExtension h hsome hne⟩
  rw [spells_joined_iff]
  simp only [← hversion _]
  cases strategy with
  | basename =>
    rw [ending_of_not_usesExtension rfl]
    simp [Names, Strategy.usesVersion]
  | withExtension =>
    obtain ⟨extension, hsome, hending⟩ := hsuffix rfl
    rw [hending]
    simp [Names, Strategy.usesVersion, hsome]
  | withVersion =>
    rw [ending_of_not_usesExtension rfl]
    simp [Names, Strategy.usesVersion, and_comm]
  | withVersionAndExtension =>
    obtain ⟨extension, hsome, hending⟩ := hsuffix rfl
    rw [hending]
    simp [Names, Strategy.usesVersion, hsome, and_comm]

/-- No name has an extension where the tool has none. -/
theorem not_names_of_not_supports {strategy : Strategy} (h : signature.supports strategy = false)
    (name : Text) : ¬ signature.Names pattern strategy name := by
  obtain ⟨hnone, huses⟩ : signature.extension = none ∧ strategy.usesExtension = true := by
    simpa [supports] using h
  cases strategy with
  | basename => cases huses
  | withVersion => cases huses
  | withExtension =>
    rintro ⟨extension, hsome, -⟩
    rw [hnone] at hsome
    cases hsome
  | withVersionAndExtension =>
    rintro ⟨number, extension, -, hsome, -⟩
    rw [hnone] at hsome
    cases hsome

/-- A tool with a literal name accepts exactly its names. -/
theorem accepts_literal (hliteral : signature.isPattern = false)
    (hextension : signature.extension ≠ some []) (hpattern : Pattern.ofText version = .ok pattern)
    (hne : version ≠ []) (hflags : ¬ Pattern.SetsFlags version) (hregular : pattern.isRegular = true)
    (hdecided : pattern.hasPossessive = true → signature.AllDecided version) (strategy : Strategy)
    (command : Text) :
    ∃ accepted, signature.accepts strategy .posix version command = .ok accepted ∧
      (accepted = true ↔ signature.Names pattern strategy (Path.name .posix command)) := by
  have hsource := ofText_source hliteral hpattern hne hflags strategy
  cases hsupports : signature.supports strategy with
  | false =>
    refine ⟨false, by simp [accepts, hsupports], ?_⟩
    simpa using not_names_of_not_supports hsupports _
  | true =>
    have hboth : pattern.IsDecided ∧ (signature.joined pattern strategy).IsDecided := by
      by_cases hpossessive : pattern.hasPossessive = true
      · have hall := hdecided hpossessive
        exact ⟨hall.versions pattern hpattern, hall.names strategy _ hsource⟩
      · rw [Bool.not_eq_true] at hpossessive
        exact ⟨Pattern.matchesIn_iff_spells hregular hpossessive .plain,
          joined_isDecided hregular hpossessive strategy⟩
    refine ⟨_, accepts_of_ofText hsupports (fun _ => hne) hsource .posix command, ?_⟩
    rw [names_iff hboth.1 hsupports hextension]
    exact hboth.2 _

end Signature

/-! ## Lines -/

/-- **Literal names are found literally**, under all four conventions. Where the pattern of versions has
nothing in it but characters, sets, groups, alternatives and repetitions, no probe fails, and a line is
accepted exactly if its command has a name of the tool: neither the name nor the version reaches beyond its
place, however the name of the command can be cut. Of possessive repetitions, which give nothing back, it is
assumed that they miss no text of their patterns. The answer is the whole command and what follows it. -/
theorem Signature.literal_names {signature : Signature} (hliteral : signature.isPattern = false)
    (hextension : signature.extension ≠ some []) {version : Text} (hne : version ≠ [])
    {pattern : Pattern} (hpattern : Pattern.ofText version = .ok pattern)
    (hregular : pattern.isRegular = true) (hflags : ¬ Pattern.SetsFlags version)
    (hdecided : pattern.hasPossessive = true → signature.AllDecided version)
    {line : Text} {invocation : Invocation} (hline : Invocation.ofLine? line = some invocation) :
    invocation.StandsIn line ∧ ∀ strategy,
      (signature.Names pattern strategy (Path.name .posix invocation.command) →
        signature.matchLine? strategy .posix version line = .ok (some invocation)) ∧
      (¬ signature.Names pattern strategy (Path.name .posix invocation.command) →
        signature.matchLine? strategy .posix version line = .ok none) := by
  refine ⟨Invocation.standsIn_of_ofLine? hline, ?_⟩
  intro strategy
  obtain ⟨accepted, haccepts, hnames⟩ := accepts_literal hliteral hextension hpattern hne hflags hregular
    hdecided strategy invocation.command
  rw [matchLine?_of_accepts hline haccepts, ← hnames]
  cases accepted <;> simp

/-- The plus signs of a name are no repetitions, and both kinds of versions stand behind the whole name. -/
theorem Signature.literal_names_alternatives :
    let signature := Registry.portable "zapcc++" .gnuCpp
    let version := "\\d|-\\d+".toList
    let digit : Pattern := .set false [.ofClass false .digit]
    let pattern : Pattern :=
      .alt (.seq digit .empty) (.seq (.char '-') (.seq (.iterate .greedy 1 none digit) .empty))
    let invocation : Invocation := ⟨"/usr/bin/zapcc++-12.exe".toList, " -c a.c".toList⟩
    (signature.isPattern = false ∧ signature.extension ≠ some [] ∧ version ≠ [] ∧
      Pattern.ofText version = .ok pattern ∧ pattern.isRegular = true ∧ ¬ Pattern.SetsFlags version ∧
      (pattern.hasPossessive = true → signature.AllDecided version) ∧
      Invocation.ofLine? "\"/usr/bin/zapcc++-12.exe\" -c a.c".toList = some invocation) ∧
    signature.matchLine? .withVersionAndExtension .posix version
        "\"/usr/bin/zapcc++-12.exe\" -c a.c".toList = .ok (some invocation) ∧
      signature.matchLine? .withVersionAndExtension .posix version "zapccc7.exe".toList = .ok none := by
  intro signature version digit pattern invocation
  have hliteral : signature.isPattern = false := rfl
  have hextension : signature.extension ≠ some [] := by decide
  have hne : version ≠ [] := by decide
  have hpattern : Pattern.ofText version = .ok pattern := rfl
  have hregular : pattern.isRegular = true := rfl
  have hflags : ¬ Pattern.SetsFlags version := by decide +kernel
  have hgives : pattern.hasPossessive = true → signature.AllDecided version := nofun
  have hline : Invocation.ofLine? "\"/usr/bin/zapcc++-12.exe\" -c a.c".toList = some invocation := rfl
  have hother : Invocation.ofLine? "zapccc7.exe".toList = some ⟨"zapccc7.exe".toList, []⟩ := rfl
  have hfirst := literal_names hliteral hextension hne hpattern hregular hflags hgives hline
  have hsecond := literal_names hliteral hextension hne hpattern hregular hflags hgives hother
  refine ⟨⟨hliteral, hextension, hne, hpattern, hregular, hflags, hgives, hline⟩, ?_, ?_⟩
  · apply (hfirst.2 .withVersionAndExtension).1
    exact ⟨"-12".toList, Registry.executable, by decide +kernel, rfl, rfl⟩
  · apply (hsecond.2 .withVersionAndExtension).2
    rintro ⟨number, extension, -, -, hname⟩
    have hhead : "zapccc".toList = "zapcc+".toList := congrArg (List.take 6) hname
    exact absurd hhead (by decide)

end BuildLog
