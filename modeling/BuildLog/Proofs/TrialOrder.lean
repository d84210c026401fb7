import BuildLog.Proofs.ScanSearch

/-!
# The order of trials

A scan tries probes in up to three passes, and the last of these looks at another form of the command.
Which of all trials decides is a matter of one order: first the pass counts, then the convention, and
then the place in the registry.

* `Pass`, `Trial`: the passes of a scan, and a probe that is tried in one of them;
* `Trial.Planned`: which trials belong to the scan of a command;
* `Trial.Precedes`: the order of trials, and `Trial.Accepts`: a trial that accepts a line;
* `Detection.scan_finds_first`: a scan finds the first trial that accepts.
-/

namespace BuildLog

/-! ## Passes -/

/-- A pass of a scan over the registry. -/
inductive Pass where
  /-- All signatures, with plain slashes. -/
  | slashes
  /-- The signatures for Windows, with backslashes. -/
  | backslashes
  /-- The signatures for Windows once more, with the long form of the command. -/
  | longForm
  deriving DecidableEq

namespace Pass

/-- The place of a pass in a scan. -/
def rank : Pass → Nat
  | slashes => 0
  | backslashes => 1
  | longForm => 2

/-- How paths are read in a pass. -/
def style : Pass → PathStyle
  | slashes => .posix
  | backslashes => .windows
  | longForm => .windows

/-- The pass in which a style of paths is tried on the command as it is written. -/
def written : PathStyle → Pass
  | .posix => slashes
  | .windows => backslashes

/-- The form of a command that a pass looks at. -/
def command (expander : Option Expander) (text : Text) : Pass → Text
  | slashes => text
  | backslashes => text
  | longForm => (expander.map (· text)).getD text

/-- Whether a pass is made for a command. -/
def IsMade (withBackslash : Bool) (expander : Option Expander) (text : Text) : Pass → Prop
  | slashes => True
  | backslashes => withBackslash = true
  | longForm => withBackslash = true ∧ expander.isSome = true ∧ Path.hasShortName text = true

@[simp] theorem style_written (style : PathStyle) : (written style).style = style := by
  cases style <;> rfl

@[simp] theorem command_written (expander : Option Expander) (text : Text) (style : PathStyle) :
    (written style).command expander text = text := by
  cases style <;> rfl

theorem rank_written_lt (style : PathStyle) : (written style).rank < longForm.rank := by
  cases style <;> decide

theorem eq_written_of_ne_longForm {pass : Pass} (h : pass ≠ longForm) : pass = written pass.style := by
  cases pass with
  | slashes => rfl
  | backslashes => rfl
  | longForm => exact absurd rfl h

end Pass

/-! ## Trials -/

/-- A probe that is tried in a pass. -/
structure Trial where
  pass : Pass
  probe : Probe

namespace Trial

/-- Whether a trial comes before another one: first the pass counts, then the convention, and then the
place in the registry. -/
def Precedes (first second : Trial) : Prop :=
  first.pass.rank < second.pass.rank ∨ first.pass = second.pass ∧
    (first.probe.strategy.rank < second.probe.strategy.rank ∨
      first.probe.strategy = second.probe.strategy ∧
        first.probe.position < second.probe.position)

/-- The trials that belong to the scan of a command. -/
structure Planned (registry : Registry) (version : Text) (withBackslash : Bool)
    (expander : Option Expander) (command : Text) (trial : Trial) : Prop where
  /-- The signature stands at its place in the registry. -/
  placed : registry[trial.probe.position]? = some trial.probe.signature
  /-- Paths are read as the pass reads them. -/
  style_eq : trial.probe.style = trial.pass.style
  /-- Names with a version are tried only if there is a pattern for versions. -/
  version_ne : trial.probe.strategy.usesVersion = true → version ≠ []
  /-- Behind the first pass, only signatures for Windows are tried. -/
  onWindows : trial.pass ≠ .slashes → trial.probe.signature.onWindows = true
  /-- The pass is made for the command. -/
  made : trial.pass.IsMade withBackslash expander command

/-- The outcome of a trial on an invocation, if it accepts. -/
def outcome (expander : Option Expander) (invocation : Invocation) (trial : Trial) : Outcome :=
  ⟨trial.probe, ⟨trial.pass.command expander invocation.command, invocation.arguments⟩⟩

/-- A trial of the scan of a line accepts it, with the given outcome. -/
def Accepts (registry : Registry) (version : Text) (withBackslash : Bool)
    (expander : Option Expander) (line : Text) (trial : Trial) (outcome : Outcome) : Prop :=
  ∃ invocation, Invocation.ofLine? line = some invocation ∧
    trial.Planned registry version withBackslash expander invocation.command ∧
    outcome = trial.outcome expander invocation ∧
    trial.probe.accepts version outcome.invocation.command = .ok true

/-- A trial decides about a line if it accepts, and every other trial that accepts comes later. -/
def Decides (registry : Registry) (version : Text) (withBackslash : Bool)
    (expander : Option Expander) (line : Text) (trial : Trial) (outcome : Outcome) : Prop :=
  trial.Accepts registry version withBackslash expander line outcome ∧
    ∀ other found, other.Accepts registry version withBackslash expander line found →
      other = trial ∨ trial.Precedes other

theorem Precedes.asymm {first second : Trial} (h : first.Precedes second) :
    ¬ second.Precedes first := by
  rintro (hother | ⟨hpass, hother⟩)
  · rcases h with h | ⟨h, -⟩
    · omega
    · rw [h] at hother
      omega
  · rcases h with h | ⟨-, h | ⟨hstrategy, hposition⟩⟩
    · rw [hpass] at h
      omega
    · rcases hother with hother | ⟨hother, -⟩
      · omega
      · rw [hother] at h
        omega
    · rcases hother with hother | ⟨-, hother⟩
      · rw [hstrategy] at hother
        omega
      · omega

variable {registry : Registry} {version command line : Text} {withBackslash : Bool}
  {expander : Option Expander} {trial other : Trial} {outcome found : Outcome}

/-- What a trial says about a line is one outcome. -/
theorem Accepts.unique
    (h : trial.Accepts registry version withBackslash expander line outcome)
    (hfound : trial.Accepts registry version withBackslash expander line found) :
    outcome = found := by
  obtain ⟨invocation, hline, -, rfl, -⟩ := h
  obtain ⟨again, hagain, -, rfl, -⟩ := hfound
  rw [hline] at hagain
  cases hagain
  rfl

/-- At most one outcome decides about a line. -/
theorem Decides.unique
    (h : trial.Decides registry version withBackslash expander line outcome)
    (hfound : other.Decides registry version withBackslash expander line found) :
    outcome = found := by
  rcases h.2 other found hfound.1 with rfl | hlater
  · exact h.1.unique hfound.1
  · rcases hfound.2 trial outcome h.1 with rfl | hearlier
    · exact h.1.unique hfound.1
    · exact absurd hearlier hlater.asymm

/-- On the command as it is written, the trials of a scan are its probes. -/
theorem planned_written_iff {probe : Probe} :
    (⟨.written probe.style, probe⟩ : Trial).Planned registry version withBackslash expander command ↔
      probe ∈ Detection.order registry version withBackslash := by
  rw [Detection.mem_order_iff]
  constructor
  · rintro ⟨hplaced, -, hversion, hwindows, hmade⟩
    refine ⟨hplaced, hversion, ?_⟩
    intro hstyle
    simp only [hstyle, Pass.written, Pass.IsMade] at hwindows hmade
    exact ⟨hmade, hwindows (by decide)⟩
  · rintro ⟨hplaced, hversion, hwindows⟩
    refine ⟨hplaced, (Pass.style_written _).symm, hversion, ?_, ?_⟩
    · intro hpass
      cases hstyle : probe.style with
      | posix =>
        rw [hstyle] at hpass
        exact absurd rfl hpass
      | windows => exact (hwindows hstyle).2
    · cases hstyle : probe.style with
      | posix => trivial
      | windows => exact (hwindows hstyle).1

theorem Planned.mem_order (h : trial.Planned registry version withBackslash expander command)
    (hpass : trial.pass ≠ .longForm) :
    trial.probe ∈ Detection.order registry version withBackslash := by
  obtain ⟨pass, probe⟩ := trial
  have hwritten : pass = .written probe.style := by
    have hstyle : probe.style = pass.style := h.style_eq
    rw [hstyle]
    exact Pass.eq_written_of_ne_longForm hpass
  subst hwritten
  exact planned_written_iff.1 h

/-- The trials on the long form of a command are the probes for Windows. -/
theorem planned_longForm_iff {probe : Probe} :
    (⟨.longForm, probe⟩ : Trial).Planned registry version withBackslash expander command ↔
      probe ∈ Detection.round (Detection.onWindows (Detection.placed registry)) .windows version ∧
        Pass.longForm.IsMade withBackslash expander command := by
  simp only [Detection.mem_round_iff, Detection.onWindows, List.mem_filter, Detection.mem_placed_iff,
    Detection.mem_strategies_iff]
  constructor
  · rintro ⟨hplaced, hstyle, hversion, hwindows, hmade⟩
    have hlater : Pass.longForm ≠ Pass.slashes := by decide
    exact ⟨⟨⟨hplaced, hwindows hlater⟩, hversion, hstyle⟩, hmade⟩
  · rintro ⟨⟨⟨hplaced, hwindows⟩, hversion, hstyle⟩, hmade⟩
    exact ⟨hplaced, hstyle, hversion, fun _ => hwindows, hmade⟩

/-- The order of probes is the order of their trials on the command as it is written. -/
theorem precedes_written {first second : Probe} (h : first.Precedes second) :
    (⟨.written first.style, first⟩ : Trial).Precedes ⟨.written second.style, second⟩ := by
  rcases h with h | ⟨hstyle, h⟩
  · left
    cases hfirst : first.style <;> cases hsecond : second.style <;>
      simp_all [PathStyle.rank, Pass.written, Pass.rank]
  · right
    exact ⟨congrArg Pass.written hstyle, h⟩

end Trial

/-! ## The first trial -/

namespace Detection

variable {registry : Registry} {version line : Text} {withBackslash : Bool}
  {expander : Option Expander} {invocation : Invocation} {probes : List Probe} {outcome : Outcome}

/-- In a sorted row, a search finds the first of the probes that accept. -/
theorem eq_or_precedes_of_first? (hsorted : probes.Pairwise Probe.Precedes)
    (h : first? version invocation probes = .ok (some outcome)) {other : Probe}
    (hmem : other ∈ probes) (haccepts : other.accepts version invocation.command = .ok true) :
    other = outcome.probe ∨ outcome.probe.Precedes other := by
  obtain ⟨-, -, earlier, later, rfl, hearlier⟩ := first?_eq_some_iff.1 h
  rcases List.mem_append.1 hmem with hother | hother
  · have hrefuses := hearlier other hother
    rw [haccepts] at hrefuses
    cases hrefuses
  · rcases List.mem_cons.1 hother with rfl | hother
    · exact .inl rfl
    · have hrest := (List.pairwise_append.1 hsorted).2.1
      exact .inr ((List.pairwise_cons.1 hrest).1 other hother)

variable {trial : Trial}

/-- A trial on the command as it is written accepts as its probe does. -/
theorem accepts_of_mem_order (hline : Invocation.ofLine? line = some invocation)
    (haccepts : trial.Accepts registry version withBackslash expander line outcome)
    (hpass : trial.pass ≠ .longForm) :
    trial = ⟨.written trial.probe.style, trial.probe⟩ ∧
      trial.probe ∈ order registry version withBackslash ∧
      trial.probe.accepts version invocation.command = .ok true := by
  obtain ⟨again, hagain, hplanned, rfl, htrue⟩ := haccepts
  rw [hline] at hagain
  cases hagain
  have hwritten : trial.pass = .written trial.probe.style := by
    rw [hplanned.style_eq]
    exact Pass.eq_written_of_ne_longForm hpass
  refine ⟨?_, hplanned.mem_order hpass, ?_⟩
  · rw [← hwritten]
  · rw [Trial.outcome, hwritten, Pass.command_written] at htrue
    exact htrue

/-- A trial on the long form of a command accepts as its probe does. -/
theorem accepts_of_longForm (hline : Invocation.ofLine? line = some invocation)
    (haccepts : trial.Accepts registry version withBackslash expander line outcome)
    (hpass : trial.pass = .longForm) :
    trial = ⟨.longForm, trial.probe⟩ ∧
      trial.probe ∈ round (onWindows (placed registry)) .windows version ∧
      Pass.longForm.IsMade withBackslash expander invocation.command ∧
      trial.probe.accepts version (Pass.longForm.command expander invocation.command) = .ok true := by
  obtain ⟨again, hagain, hplanned, rfl, htrue⟩ := haccepts
  rw [hline] at hagain
  cases hagain
  obtain ⟨pass, probe⟩ := trial
  subst hpass
  obtain ⟨hmem, hmade⟩ := Trial.planned_longForm_iff.1 hplanned
  exact ⟨rfl, hmem, hmade, htrue⟩

/-- A search for the command as it is written finds the trial that decides. -/
theorem exists_decides_of_first? (hline : Invocation.ofLine? line = some invocation)
    (h : first? version invocation (order registry version withBackslash) = .ok (some outcome)) :
    ∃ trial : Trial, trial.Decides registry version withBackslash expander line outcome := by
  obtain ⟨hinvocation, haccepts, earlier, later, horder, -⟩ := first?_eq_some_iff.1 h
  have hmem : outcome.probe ∈ order registry version withBackslash := by
    rw [horder]
    simp
  refine ⟨⟨.written outcome.probe.style, outcome.probe⟩, ?_, ?_⟩
  · refine ⟨invocation, hline, Trial.planned_written_iff.2 hmem, ?_, ?_⟩
    · rw [Trial.outcome, Pass.command_written, ← hinvocation]
    · rw [hinvocation]
      exact haccepts
  · intro other found hother
    by_cases hpass : other.pass = .longForm
    · right
      left
      rw [hpass]
      exact Pass.rank_written_lt _
    · obtain ⟨htrial, hothermem, htrue⟩ := accepts_of_mem_order hline hother hpass
      rw [htrial]
      rcases eq_or_precedes_of_first? order_pairwise h hothermem htrue with hsame | hlater
      · rw [hsame]
        exact .inl rfl
      · exact .inr (Trial.precedes_written hlater)

/-- After a search in vain for the command as it is written, no trial of the first passes accepts. -/
theorem longForm_of_accepts (hline : Invocation.ofLine? line = some invocation)
    (hnone : first? version invocation (order registry version withBackslash) = .ok none)
    (haccepts : trial.Accepts registry version withBackslash expander line outcome) :
    trial.pass = .longForm := by
  by_contra hpass
  obtain ⟨-, hmem, htrue⟩ := accepts_of_mem_order hline haccepts hpass
  rw [first?_eq_none_iff.1 hnone _ hmem] at htrue
  cases htrue

/-- After that, a trial of the last pass looks at another form of the command than the one written. -/
theorem longForm?_of_accepts (hline : Invocation.ofLine? line = some invocation)
    (hnone : first? version invocation (order registry version withBackslash) = .ok none)
    (haccepts : trial.Accepts registry version withBackslash expander line outcome) :
    longForm? expander invocation =
      some ⟨Pass.longForm.command expander invocation.command, invocation.arguments⟩ := by
  have hpass := longForm_of_accepts hline hnone haccepts
  obtain ⟨-, hmem, hmade, htrue⟩ := accepts_of_longForm hline haccepts hpass
  obtain ⟨hbackslash, hexpander, hshort⟩ := hmade
  obtain ⟨expand, rfl⟩ := Option.isSome_iff_exists.1 hexpander
  simp only [Pass.command, Option.map_some, Option.getD_some] at htrue ⊢
  have hother : expand invocation.command ≠ invocation.command := by
    intro hsame
    have hwritten : trial.probe ∈ order registry version withBackslash := by
      rw [order, if_pos hbackslash]
      exact List.mem_append_right _ hmem
    rw [hsame, first?_eq_none_iff.1 hnone _ hwritten] at htrue
    cases htrue
  exact longForm?_eq_some_iff.2 ⟨expand, rfl, hshort, hother, rfl⟩

/-- A long form is that of the last pass, which is made. -/
theorem isMade_of_longForm? {long : Invocation} (hback : withBackslash = true)
    (h : longForm? expander invocation = some long) :
    Pass.longForm.IsMade withBackslash expander invocation.command ∧
      long = ⟨Pass.longForm.command expander invocation.command, invocation.arguments⟩ := by
  obtain ⟨expand, rfl, hshort, -, rfl⟩ := longForm?_eq_some_iff.1 h
  exact ⟨⟨hback, rfl, hshort⟩, rfl⟩

/-- After a search in vain for the command as it is written, a search for its long form finds the trial
that decides. -/
theorem exists_decides_of_firstLong? (hline : Invocation.ofLine? line = some invocation)
    (hnone : first? version invocation (order registry version withBackslash) = .ok none)
    (hback : withBackslash = true)
    (h : firstLong? version expander invocation
      (round (onWindows (placed registry)) .windows version) = .ok (some outcome)) :
    ∃ trial : Trial, trial.Decides registry version withBackslash expander line outcome := by
  obtain ⟨hlong, hsearch⟩ := firstLong?_eq_some_iff.1 h
  obtain ⟨hmade, hinvocation⟩ := isMade_of_longForm? hback hlong
  obtain ⟨-, haccepts, earlier, later, hprobes, -⟩ := first?_eq_some_iff.1 hsearch
  have hmem : outcome.probe ∈ round (onWindows (placed registry)) .windows version := by
    rw [hprobes]
    simp
  refine ⟨⟨.longForm, outcome.probe⟩, ?_, ?_⟩
  · refine ⟨invocation, hline, Trial.planned_longForm_iff.2 ⟨hmem, hmade⟩, ?_, haccepts⟩
    rw [Trial.outcome, ← hinvocation]
  · intro other found hother
    have hpass := longForm_of_accepts hline hnone hother
    obtain ⟨htrial, hothermem, -, htrue⟩ := accepts_of_longForm hline hother hpass
    rw [htrial]
    have hcommand : outcome.invocation.command =
        Pass.longForm.command expander invocation.command := by rw [hinvocation]
    rw [← hcommand] at htrue
    have hsorted : (round (onWindows (placed registry)) .windows version).Pairwise Probe.Precedes :=
      round_pairwise .windows (placed_pairwise.filter _)
    rcases eq_or_precedes_of_first? hsorted hsearch hothermem htrue with hsame | hlater
    · rw [hsame]
      exact .inl rfl
    · -- both probes look for Windows names, so only the convention and the place count
      have hstyle := (mem_round_iff.1 hmem).2.2
      have hotherstyle := (mem_round_iff.1 hothermem).2.2
      rcases hlater with hrank | ⟨-, hrest⟩
      · rw [hstyle, hotherstyle] at hrank
        exact absurd hrank (Nat.lt_irrefl _)
      · exact .inr (.inr ⟨rfl, hrest⟩)

/-- What a scan finds is what a trial decides. -/
theorem exists_decides_of_scan
    (h : (scan registry version withBackslash expander line).result = .ok (some outcome)) :
    ∃ trial : Trial, trial.Decides registry version withBackslash expander line outcome := by
  cases hline : Invocation.ofLine? line with
  | none =>
    rw [scan_of_no_command hline] at h
    cases h
  | some invocation =>
    by_cases hnone : first? version invocation (order registry version withBackslash) = .ok none
    · rw [scan_result hline, hnone, orElse_none] at h
      split at h
      · rename_i hback
        exact exists_decides_of_firstLong? hline hnone hback h
      · cases h
    · rw [scan_eq_first? hline hnone] at h
      exact exists_decides_of_first? hline h

/-- If a scan finds nothing, no trial accepts. -/
theorem not_accepts_of_scan
    (h : (scan registry version withBackslash expander line).result = .ok none) (trial : Trial)
    (outcome : Outcome) :
    ¬ trial.Accepts registry version withBackslash expander line outcome := by
  intro haccepts
  obtain ⟨invocation, hline, -⟩ := id haccepts
  have hnone := first?_of_scan_eq_none hline h
  have hpass := longForm_of_accepts hline hnone haccepts
  have hlong := longForm?_of_accepts hline hnone haccepts
  obtain ⟨-, hmem, ⟨hback, -⟩, htrue⟩ := accepts_of_longForm hline haccepts hpass
  rw [scan_result hline, hnone, orElse_none, if_pos hback, firstLong?, hlong] at h
  rw [first?_eq_none_iff.1 h _ hmem] at htrue
  cases htrue

/-- Where all patterns are in order, no probe of a scan has a fault. -/
theorem faultless_of_patterns
    (hpatterns : ∀ signature ∈ registry, ∀ strategy, ∃ pattern,
      Pattern.ofText (signature.source strategy version) = .ok pattern)
    {probe : Probe} (hmem : probe ∈ order registry version withBackslash) :
    probe.Faultless version := by
  intro command
  have hsignature := List.mem_of_getElem? (mem_order_iff.1 hmem).1
  obtain ⟨pattern, hpattern⟩ := hpatterns _ hsignature probe.strategy
  rw [Probe.accepts, Signature.accepts, hpattern]
  split
  · exact ⟨false, rfl⟩
  · exact ⟨_, rfl⟩

/-- Where all patterns are in order, a scan has an answer. -/
theorem exists_scan_eq_ok_of_patterns
    (hpatterns : ∀ signature ∈ registry, ∀ strategy, ∃ pattern,
      Pattern.ofText (signature.source strategy version) = .ok pattern)
    (withBackslash : Bool) (expander : Option Expander) (line : Text) :
    ∃ found, (scan registry version withBackslash expander line).result = .ok found := by
  cases hscan : (scan registry version withBackslash expander line).result with
  | ok found => exact ⟨found, rfl⟩
  | error error =>
    cases hline : Invocation.ofLine? line with
    | none =>
      rw [scan_of_no_command hline] at hscan
      cases hscan
    | some invocation =>
      obtain ⟨fault, hfault⟩ := (exists_scan_eq_error_iff hline).1 ⟨error, hscan⟩
      have hfaultless : ∀ probe ∈ order registry version withBackslash, probe.Faultless version :=
        fun probe hmem => faultless_of_patterns hpatterns hmem
      obtain ⟨answer, hanswer⟩ := exists_first?_eq_ok invocation hfaultless
      rw [hanswer] at hfault
      cases hfault

/-- **A scan finds the first trial that accepts**, in the order of passes, conventions and places in the
registry, and it finds nothing exactly if no trial accepts. -/
theorem scan_finds_first (registry : Registry) (version : Text)
    (hpatterns : ∀ signature ∈ registry, ∀ strategy, ∃ pattern,
      Pattern.ofText (signature.source strategy version) = .ok pattern)
    (withBackslash : Bool) (expander : Option Expander) (line : Text) :
    ∃ found, (scan registry version withBackslash expander line).result = .ok found ∧
      (found = none ↔ ∀ (trial : Trial) outcome,
        ¬ trial.Accepts registry version withBackslash expander line outcome) ∧
      ∀ outcome, found = some outcome ↔
        ∃ trial : Trial, trial.Decides registry version withBackslash expander line outcome := by
  obtain ⟨found, hscan⟩ := exists_scan_eq_ok_of_patterns hpatterns withBackslash expander line
  refine ⟨found, hscan, ?_, ?_⟩
  · constructor
    · rintro rfl
      exact not_accepts_of_scan hscan
    · intro hnone
      cases found with
      | none => rfl
      | some outcome =>
        obtain ⟨trial, haccepts, -⟩ := exists_decides_of_scan hscan
        exact absurd haccepts (hnone trial outcome)
  · intro outcome
    constructor
    · rintro rfl
      exact exists_decides_of_scan hscan
    · rintro ⟨trial, hdecides⟩
      cases found with
      | none => exact absurd hdecides.1 (not_accepts_of_scan hscan trial outcome)
      | some other =>
        obtain ⟨_, hother⟩ := exists_decides_of_scan hscan
        rw [hother.unique hdecides]

/-- Tools of which several have a name like `lcc-8`, with the number as a version or as part of the
name. -/
def numbered : Registry :=
  [Registry.plain "lcc-8" .gnuC, Registry.portable "lcc" .gnuC,
    Registry.portableFamily "lcc-[0-9]+" .gnuCpp]

/-- Behind a short name, the signature that stands first is not for Windows, and the second one comes
too late, since it accepts the name only with a version. -/
theorem scan_finds_first_behind_short_name :
    let version := "-[0-9]+".toList
    let long := "C:\\Tools\\LCC-8.EXE".toList
    let line := "C:\\PROGRA~1\\LCC~1.EXE -c a.c".toList
    (∀ signature ∈ numbered, ∀ strategy, ∃ pattern,
      Pattern.ofText (signature.source strategy version) = .ok pattern) ∧
    ∃ trial : Trial, trial.Decides numbered version true (some fun _ => long) line
      ⟨⟨2, Registry.portableFamily "lcc-[0-9]+" .gnuCpp, .withExtension, .windows⟩,
        ⟨long, " -c a.c".toList⟩⟩ := by
  intro version long line
  have hpatterns : ∀ signature ∈ numbered, ∀ strategy, ∃ pattern,
      Pattern.ofText (signature.source strategy version) = .ok pattern := by
    have hall : ∀ signature ∈ numbered, ∀ strategy ∈ Strategy.all,
        (Pattern.ofText (signature.source strategy version)).toOption.isSome = true := by
      decide +kernel
    intro signature hsignature strategy
    have hsome := hall signature hsignature strategy (by cases strategy <;> decide)
    cases hpattern : Pattern.ofText (signature.source strategy version) with
    | ok pattern => exact ⟨pattern, rfl⟩
    | error error =>
      rw [hpattern] at hsome
      cases hsome
  have hscan : (scan numbered version true (some fun _ => long) line).result = .ok (some
      ⟨⟨2, Registry.portableFamily "lcc-[0-9]+" .gnuCpp, .withExtension, .windows⟩,
        ⟨long, " -c a.c".toList⟩⟩) := rfl
  obtain ⟨found, hfound, -, hdecides⟩ :=
    scan_finds_first numbered version hpatterns true (some fun _ => long) line
  rw [hscan] at hfound
  cases hfound
  exact ⟨hpatterns, (hdecides _).1 rfl⟩

end Detection
end BuildLog
