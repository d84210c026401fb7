import BuildLog.Proofs.TrialOrder

/-!
# Long forms of commands

The expander is asked for the long form of a command as the last resort, and what it says reaches only the
signatures for Windows.

* `Detection.NeedsLongForm`: when a scan asks for the long form of a command;
* `Detection.scan_expanded_cases`, `Detection.scan_expanded_of_needs`: it asks once then, and not at all
  otherwise;
* `Detection.scan_of_no_windows`: without signatures for Windows it never asks, and backslashes do not
  matter;
* `Detection.scan_expands_for_windows`: all this, and whose the outcomes with a long form are.
-/

namespace BuildLog

theorem Signature.accepts_of_no_version {strategy : Strategy} (signature : Signature)
    (huses : strategy.usesVersion = true) (style : PathStyle) (command : Text) :
    signature.accepts strategy style [] command = .ok false := by
  simp [accepts, huses]

namespace Detection

variable {registry : Registry} {version line : Text} {withBackslash : Bool}
  {expander : Option Expander} {invocation : Invocation} {outcome : Outcome} {command : Text}

/-- A scan needs the long form of a command: there is an expander, backslashes separate components, some
signature is for Windows, the command has short names, and nothing accepts it as it is written. -/
structure NeedsLongForm (registry : Registry) (version : Text) (withBackslash : Bool)
    (expander : Option Expander) (command : Text) : Prop where
  expander : expander.isSome = true
  backslash : withBackslash = true
  windows : ∃ signature ∈ registry, signature.onWindows = true
  shortName : Path.hasShortName command = true
  slashes : ∀ signature ∈ registry, ∀ strategy,
    signature.accepts strategy .posix version command = .ok false
  backslashes : ∀ signature ∈ registry, signature.onWindows = true → ∀ strategy,
    signature.accepts strategy .windows version command = .ok false

/-! ## Signatures and their probes -/

/-- The signatures of a registry that are tried in a style of paths refuse a command if the probes of a
scan do. -/
theorem accepts_of_order_refuses
    (h : ∀ probe ∈ order registry version withBackslash, probe.accepts version command = .ok false)
    {signature : Signature} (hmem : signature ∈ registry) (strategy : Strategy) {style : PathStyle}
    (hstyle : style = .windows → withBackslash = true ∧ signature.onWindows = true) :
    signature.accepts strategy style version command = .ok false := by
  obtain ⟨position, hplaced⟩ := List.mem_iff_getElem?.1 hmem
  by_cases hversion : strategy.usesVersion = true → version ≠ []
  · exact h ⟨position, signature, strategy, style⟩ (mem_order_iff.2 ⟨hplaced, hversion, hstyle⟩)
  · simp only [Classical.not_imp, not_not] at hversion
    obtain ⟨huses, rfl⟩ := hversion
    exact signature.accepts_of_no_version huses style command

/-- The probes of a scan refuse a command if all signatures do that are tried. -/
theorem order_refuses_of_accepts
    (hslashes : ∀ signature ∈ registry, ∀ strategy,
      signature.accepts strategy .posix version command = .ok false)
    (hbackslashes : ∀ signature ∈ registry, signature.onWindows = true → ∀ strategy,
      signature.accepts strategy .windows version command = .ok false) :
    ∀ probe ∈ order registry version withBackslash, probe.accepts version command = .ok false := by
  intro probe hprobe
  obtain ⟨hplaced, -, hwindows⟩ := mem_order_iff.1 hprobe
  have hmem := List.mem_of_getElem? hplaced
  cases hstyle : probe.style with
  | posix =>
    rw [Probe.accepts, hstyle]
    exact hslashes _ hmem probe.strategy
  | windows =>
    rw [Probe.accepts, hstyle]
    exact hbackslashes _ hmem (hwindows hstyle).2 probe.strategy

/-- There are probes for Windows if there are signatures for Windows. -/
theorem exists_onWindows_iff :
    (∃ signature ∈ registry, signature.onWindows = true) ↔
      round (onWindows (placed registry)) .windows version ≠ [] := by
  have hbasename : Strategy.basename ∈ strategies version := mem_strategies_iff.2 nofun
  constructor
  · rintro ⟨signature, hmem, hwindows⟩ hnil
    obtain ⟨position, hplaced⟩ := List.mem_iff_getElem?.1 hmem
    have hprobe : (⟨position, signature, .basename, .windows⟩ : Probe) ∈
        round (onWindows (placed registry)) .windows version :=
      mem_round_iff.2 ⟨List.mem_filter.2 ⟨mem_placed_iff.2 hplaced, hwindows⟩, hbasename, rfl⟩
    rw [hnil] at hprobe
    cases hprobe
  · intro hne
    obtain ⟨probe, hprobe⟩ := List.exists_mem_of_ne_nil _ hne
    obtain ⟨hplaced, hwindows⟩ := List.mem_filter.1 (mem_round_iff.1 hprobe).1
    exact ⟨probe.signature, List.mem_of_getElem? (mem_placed_iff.1 hplaced), hwindows⟩

/-! ## What is asked -/

theorem scanExpanded_expanded {probes : List Probe} :
    (scanExpanded probes version expander invocation).expanded =
      if expander.isSome && Path.hasShortName invocation.command then [invocation.command]
      else [] := by
  cases expander with
  | none => rfl
  | some expand =>
    cases hshort : Path.hasShortName invocation.command <;> simp [scanExpanded, hshort]

theorem scan_of_refused (hline : Invocation.ofLine? line = some invocation)
    (hslashes : first? version invocation (round (placed registry) .posix version) = .ok none) :
    scan registry version true expander line = scanWindows registry version expander invocation := by
  simp [scan, hline, hslashes]

theorem scanWindows_of_refused
    (hwindows : round (onWindows (placed registry)) .windows version ≠ [])
    (hbackslashes : first? version invocation
      (round (onWindows (placed registry)) .windows version) = .ok none) :
    scanWindows registry version expander invocation = scanExpanded
      (round (onWindows (placed registry)) .windows version) version expander invocation := by
  simp [scanWindows, hwindows, hbackslashes]

/-- A scan that needs the long form of a command asks for it once. -/
theorem scan_expanded_of_needs (hline : Invocation.ofLine? line = some invocation)
    (h : NeedsLongForm registry version withBackslash expander invocation.command) :
    (scan registry version withBackslash expander line).expanded = [invocation.command] := by
  obtain ⟨hexpander, rfl, hwindows, hshort, hslashes, hbackslashes⟩ := h
  have hrefuse : ∀ probe ∈ order registry version true,
      probe.accepts version invocation.command = .ok false :=
    order_refuses_of_accepts hslashes hbackslashes
  rw [scan_of_refused hline (first?_eq_none_iff.2 fun probe hprobe =>
      hrefuse probe (List.mem_append_left _ hprobe)),
    scanWindows_of_refused (exists_onWindows_iff.1 hwindows) (first?_eq_none_iff.2 fun probe hprobe =>
      hrefuse probe (List.mem_append_right _ hprobe)),
    scanExpanded_expanded, hexpander, hshort]
  rfl

/-- Signatures for Windows that find a tool or a fault for the command as it is written ask for nothing. -/
theorem scanWindows_expanded_of_not_refused
    (h : first? version invocation (round (onWindows (placed registry)) .windows version) ≠ .ok none) :
    (scanWindows registry version expander invocation).expanded = [] := by
  unfold scanWindows
  dsimp only
  split
  · rfl
  · cases hbackslashes : first? version invocation
        (round (onWindows (placed registry)) .windows version) with
    | error error => rfl
    | ok found =>
      cases found with
      | some outcome => rfl
      | none => exact absurd hbackslashes h

/-- A scan that finds a tool or a fault for the command as it is written asks for nothing. -/
theorem scan_expanded_of_not_refused (hline : Invocation.ofLine? line = some invocation)
    (h : first? version invocation (order registry version withBackslash) ≠ .ok none) :
    (scan registry version withBackslash expander line).expanded = [] := by
  rw [order, first?_append] at h
  unfold scan
  rw [hline]
  dsimp only
  cases hslashes : first? version invocation (round (placed registry) .posix version) with
  | error error => rfl
  | ok found =>
    cases found with
    | some outcome => rfl
    | none =>
      rw [hslashes, orElse_none] at h
      cases withBackslash with
      | false => rfl
      | true => exact scanWindows_expanded_of_not_refused h

/-- A scan asks for nothing, or it needs the long form of the command and asks for that. -/
theorem scan_expanded_cases (hline : Invocation.ofLine? line = some invocation) :
    (scan registry version withBackslash expander line).expanded = [] ∨
      (scan registry version withBackslash expander line).expanded = [invocation.command] ∧
        NeedsLongForm registry version withBackslash expander invocation.command := by
  by_cases hrefused : first? version invocation (order registry version withBackslash) = .ok none
  · have hrefuse := first?_eq_none_iff.1 hrefused
    have hslashes : first? version invocation (round (placed registry) .posix version) = .ok none :=
      first?_eq_none_iff.2 fun probe hprobe => hrefuse probe (List.mem_append_left _ hprobe)
    cases withBackslash with
    | false => simp [scan, hline, hslashes]
    | true =>
      rw [scan_of_refused hline hslashes]
      by_cases hwindows : round (onWindows (placed registry)) .windows version = []
      · simp [scanWindows, hwindows]
      · rw [scanWindows_of_refused hwindows (first?_eq_none_iff.2 fun probe hprobe =>
          hrefuse probe (List.mem_append_right _ hprobe)), scanExpanded_expanded]
        by_cases hasks : (expander.isSome && Path.hasShortName invocation.command) = true
        · rw [if_pos hasks]
          obtain ⟨hexpander, hshort⟩ := Bool.and_eq_true_iff.1 hasks
          refine .inr ⟨rfl, hexpander, rfl, exists_onWindows_iff.2 hwindows, hshort, ?_, ?_⟩
          · intro signature hmem strategy
            refine accepts_of_order_refuses hrefuse hmem strategy fun hstyle => ?_
            cases hstyle
          · intro signature hmem hown strategy
            exact accepts_of_order_refuses hrefuse hmem strategy fun _ => ⟨rfl, hown⟩
        · rw [if_neg hasks]
          exact .inl rfl
  · exact .inl (scan_expanded_of_not_refused hline hrefused)

/-! ## What does not matter -/

/-- Without signatures for Windows, neither backslashes nor the expander matter. -/
theorem scan_of_no_windows (h : ∀ signature ∈ registry, signature.onWindows = false) :
    scan registry version withBackslash expander line = scan registry version false none line := by
  have hnone : round (onWindows (placed registry)) .windows version = [] := by
    by_contra hne
    obtain ⟨signature, hmem, hwindows⟩ := exists_onWindows_iff.2 hne
    rw [h signature hmem] at hwindows
    cases hwindows
  unfold scan
  cases Invocation.ofLine? line with
  | none => rfl
  | some invocation =>
    dsimp only
    cases first? version invocation (round (placed registry) .posix version) with
    | error error => rfl
    | ok found =>
      cases found with
      | some outcome => rfl
      | none => simp [scanWindows, hnone]

/-- Of an expander, only what it makes of the command matters. -/
theorem scan_of_same_expansion {expand other : Expander}
    (h : ∀ invocation, Invocation.ofLine? line = some invocation →
      other invocation.command = expand invocation.command) :
    scan registry version withBackslash (some other) line =
      scan registry version withBackslash (some expand) line := by
  unfold scan
  cases hline : Invocation.ofLine? line with
  | none => rfl
  | some invocation => simp only [scanWindows, scanExpanded, h invocation hline]

/-! ## Whose the long forms are -/

/-- An outcome with another command than that of its line has a signature for Windows. -/
theorem onWindows_of_scan
    (h : (scan registry version withBackslash expander line).result = .ok (some outcome))
    (hother : (Invocation.ofLine? line).map (·.command) ≠ some outcome.invocation.command) :
    outcome.probe.signature ∈ registry ∧ outcome.probe.signature.onWindows = true := by
  obtain ⟨hrecognized, hreachable⟩ := recognized_of_scan h
  obtain ⟨hplaced, -, hwindows⟩ := mem_order_iff.1 hreachable.mem
  refine ⟨List.mem_of_getElem? hplaced, ?_⟩
  rcases hrecognized with houtcome | ⟨_, -, -, -, hstyle, -⟩
  · have hline := (Probe.outcome?_eq_some_iff.1 houtcome).2.1
    rw [hline] at hother
    exact absurd rfl hother
  · exact (hwindows hstyle).2

/-- Whether all patterns of a registry are in order can be tried out. -/
theorem exists_patterns_of_all
    (h : ∀ signature ∈ registry, ∀ strategy ∈ Strategy.all,
      (Pattern.ofText (signature.source strategy version)).toOption.isSome = true) :
    ∀ signature ∈ registry, ∀ strategy, ∃ pattern,
      Pattern.ofText (signature.source strategy version) = .ok pattern := by
  intro signature hmem strategy
  have hsome := h signature hmem strategy (by cases strategy <;> decide)
  cases hpattern : Pattern.ofText (signature.source strategy version) with
  | ok pattern => exact ⟨pattern, rfl⟩
  | error error => simp [hpattern, Except.toOption] at hsome

/-- **Only signatures for Windows see long forms.** Where all patterns are in order, a scan has an answer.
On the way it asks for the long form of the command of its line and of nothing else, at most once, and
exactly if there is an expander, backslashes separate components, some signature is for Windows, the command
has short names, and no signature accepts the command as it is written, with slashes or, if it is for
Windows, with backslashes. Nothing but that long form is used of the expander. An outcome with another
command than that of the line has a signature for Windows. Without such signatures the expander is not
asked, and a scan is the same for every expander, with backslashes or without. -/
theorem scan_expands_for_windows (registry : Registry) (version : Text)
    (hpatterns : ∀ signature ∈ registry, ∀ strategy, ∃ pattern,
      Pattern.ofText (signature.source strategy version) = .ok pattern)
    (withBackslash : Bool) (expander : Option Expander) (line : Text) :
    let detection := scan registry version withBackslash expander line
    (∃ found, detection.result = .ok found) ∧
    (Invocation.ofLine? line = none → detection.expanded = []) ∧
    (∀ invocation, Invocation.ofLine? line = some invocation →
      (NeedsLongForm registry version withBackslash expander invocation.command →
        detection.expanded = [invocation.command]) ∧
      (¬ NeedsLongForm registry version withBackslash expander invocation.command →
        detection.expanded = [])) ∧
    (∀ expand other, expander = some expand →
      (∀ invocation, Invocation.ofLine? line = some invocation →
        other invocation.command = expand invocation.command) →
      scan registry version withBackslash (some other) line = detection) ∧
    (∀ outcome, detection.result = .ok (some outcome) →
      (Invocation.ofLine? line).map (·.command) ≠ some outcome.invocation.command →
      outcome.probe.signature ∈ registry ∧ outcome.probe.signature.onWindows = true) ∧
    ((∀ signature ∈ registry, signature.onWindows = false) →
      detection.expanded = [] ∧ ∀ otherBackslash otherExpander,
        scan registry version otherBackslash otherExpander line = detection) := by
  intro detection
  refine ⟨exists_scan_eq_ok_of_patterns hpatterns withBackslash expander line, ?_, ?_, ?_, ?_, ?_⟩
  · intro hline
    simp [detection, scan, hline]
  · intro invocation hline
    constructor
    · exact scan_expanded_of_needs hline
    · intro hneeds
      exact (scan_expanded_cases hline).resolve_right fun h => hneeds h.2
  · rintro expand other rfl hsame
    exact scan_of_same_expansion hsame
  · intro outcome
    exact onWindows_of_scan
  · intro hnone
    have hplain {otherBackslash otherExpander} :
        scan registry version otherBackslash otherExpander line =
          scan registry version false none line := scan_of_no_windows hnone
    refine ⟨?_, fun _ _ => hplain.trans hplain.symm⟩
    rw [show detection = scan registry version false none line from hplain]
    cases hline : Invocation.ofLine? line with
    | none => simp [scan, hline]
    | some invocation =>
      exact (scan_expanded_cases hline).resolve_right fun h => by cases h.2.backslash

/-- Among tools of which not all are for Windows, a command with short names has its long form looked up,
and the tool that is found by it is for Windows. -/
theorem scan_expands_for_windows_behind_short_name :
    let version := "-[0-9]+".toList
    let command := "C:\\PROGRA~1\\LCC~1.EXE".toList
    let expand : Expander := fun _ => "C:\\Tools\\LCC-8.EXE".toList
    let detection := scan numbered version true (some expand) (command ++ " -c a.c".toList)
    (∀ signature ∈ numbered, ∀ strategy, ∃ pattern,
      Pattern.ofText (signature.source strategy version) = .ok pattern) ∧
    NeedsLongForm numbered version true (some expand) command ∧ detection.expanded = [command] ∧
    ∃ outcome, detection.result = .ok (some outcome) ∧
      outcome.invocation.command = expand command ∧ outcome.probe.signature.onWindows = true := by
  intro version command expand detection
  have hpatterns : ∀ signature ∈ numbered, ∀ strategy, ∃ pattern,
      Pattern.ofText (signature.source strategy version) = .ok pattern :=
    exists_patterns_of_all (by decide +kernel)
  obtain ⟨-, -, hasked, -, hwindows, -⟩ := scan_expands_for_windows numbered version hpatterns true
    (some expand) (command ++ " -c a.c".toList)
  have hline : Invocation.ofLine? (command ++ " -c a.c".toList) = some ⟨command, " -c a.c".toList⟩ :=
    rfl
  have hexpanded : detection.expanded = [command] := rfl
  have hfound : detection.result = .ok (some
      ⟨⟨2, Registry.portableFamily "lcc-[0-9]+" .gnuCpp, .withExtension, .windows⟩,
        ⟨expand command, " -c a.c".toList⟩⟩) := rfl
  refine ⟨hpatterns, ?_, hexpanded, _, hfound, rfl, (hwindows _ hfound ?_).2⟩
  · by_contra hneeds
    have hnothing := (hasked _ hline).2 hneeds
    rw [hexpanded] at hnothing
    cases hnothing
  · rw [hline]
    decide

end Detection
end BuildLog
