import BuildLog.Proofs.RememberedProbe

/-!
# A remembered probe outlives the settings

A probe is remembered together with its style of paths. Whether versions are looked for is asked anew for
every line, but whether backslashes separate components is not.

* `Detector.SlashesLost`: a tool was found behind backslashes that do not separate components any more,
  and no probe with plain slashes finds one;
* `Detector.FaultAhead`: with the pattern of versions as it is now, a scan runs into a fault;
* `Detector.scan_of_detected_iff`: these are the only two cases in which a line has a tool and a scan
  with the settings as they are finds none.
-/

namespace BuildLog.Detector

variable {registry : Registry} {expander : Option Expander}
  {detector : Detector} {line : Text} {outcome : Outcome}

/-- The tool of a line was found behind backslashes, which do not separate components any more, and no
probe with plain slashes accepts the line. -/
def SlashesLost (detector : Detector) (line : Text) (outcome : Outcome) : Prop :=
  outcome.probe.style = .windows ∧ detector.settings.matchBackslash = false ∧
    ∀ probe ∈ Detection.order detector.registry detector.settings.effectivePattern false,
      probe.outcome? detector.settings.effectivePattern line = .ok none

/-- A scan would meet a fault: the pattern of versions does not go with the name of a tool, and no probe
in front of that one accepts the line. -/
def FaultAhead (detector : Detector) (line : Text) : Prop :=
  ∃ probe ∈ Detection.order detector.registry detector.settings.effectivePattern
      detector.settings.matchBackslash,
    probe.strategy.usesVersion = true ∧ ¬ probe.Faultless detector.settings.effectivePattern ∧
      ∀ other ∈ Detection.order detector.registry detector.settings.effectivePattern
          detector.settings.matchBackslash,
        other.Precedes probe → other.outcome? detector.settings.effectivePattern line = .ok none

/-- A scan of a line with a command ends with a fault exactly if there is one ahead. -/
theorem exists_scan_eq_error_iff {invocation : Invocation}
    (hline : Invocation.ofLine? line = some invocation) :
    (∃ error, detector.scan line = .error error) ↔ detector.FaultAhead line := by
  unfold scan
  rw [Detection.exists_scan_eq_error_iff hline,
    Detection.exists_first?_eq_error_iff Detection.order_pairwise]
  constructor
  · rintro ⟨probe, hprobe, hfaulty, hearlier⟩
    refine ⟨probe, hprobe, ?_, hfaulty, fun other hother hprecedes =>
      (Probe.outcome?_eq_none_iff hline).2 (hearlier other hother hprecedes)⟩
    cases huses : probe.strategy.usesVersion with
    | true => rfl
    | false => exact absurd (Probe.faultless_of_not_usesVersion huses) hfaulty
  · rintro ⟨probe, hprobe, -, hfaulty, hearlier⟩
    exact ⟨probe, hprobe, hfaulty, fun other hother hprecedes =>
      (Probe.outcome?_eq_none_iff hline).1 (hearlier other hother hprecedes)⟩

/-- A scan finds nothing once the slashes are lost. -/
theorem scan_of_slashesLost {invocation : Invocation}
    (hline : Invocation.ofLine? line = some invocation) (h : detector.SlashesLost line outcome) :
    detector.scan line = .ok none := by
  obtain ⟨-, hbackslash, hrefuse⟩ := h
  unfold scan
  rw [hbackslash, Detection.scan_without_backslash hline, Detection.first?_eq_none_iff]
  intro probe hprobe
  exact (Probe.outcome?_eq_none_iff hline).1 (hrefuse probe hprobe)

/-- Only where the slashes are lost, a line has a tool of which a scan does not know. -/
theorem slashesLost_of_scan_eq_none {kind : Settings → Prop}
    (htraced : detector.Traced kind registry expander)
    (h : (detector.detect line).result = .ok (some outcome)) (hscan : detector.scan line = .ok none) :
    detector.SlashesLost line outcome := by
  rcases last_or_scan_of_result h with ⟨hlast, hprobe⟩ | hfound
  · obtain ⟨-, hline, haccepts⟩ := Probe.outcome?_eq_some_iff.1 hprobe
    have hrefuse := Detection.first?_eq_none_iff.1 (Detection.first?_of_scan_eq_none hline hscan)
    -- the remembered probe cannot be one of those that the scan has tried
    have hmissing : outcome.probe ∉ Detection.order registry detector.settings.effectivePattern
        detector.settings.matchBackslash := by
      intro hmem
      rw [← htraced.registry_eq] at hmem
      rw [hrefuse _ hmem] at haccepts
      cases haccepts
    have hwindows : ¬ (outcome.probe.style = .windows → detector.settings.matchBackslash = true) :=
      fun hstyle => hmissing (htraced.mem_order hlast haccepts hstyle)
    obtain ⟨hstyle, hbackslash⟩ := Classical.not_imp.1 hwindows
    rw [Bool.not_eq_true] at hbackslash
    rw [hbackslash] at hrefuse
    exact ⟨hstyle, hbackslash, fun probe hprobe =>
      (Probe.outcome?_eq_none_iff hline).2 (hrefuse probe hprobe)⟩
  · rw [hscan] at hfound
    cases hfound

/-- After every run, also one that sets the settings anew, a line that has a tool has one as well by a
scan with the settings as they are, in all cases but two. Either the tool was found behind backslashes
that do not separate components any more, and the scan finds nothing. Or the pattern of versions has
come not to go with a name on the way, and the scan meets a fault. -/
theorem scan_of_detected_iff (settings : Settings) (registry : Registry)
    (expander : Option Expander) (calls : List Call) (line : Text) (outcome : Outcome)
    (h : (((start settings registry expander).run calls).detect line).result = .ok (some outcome)) :
    let detector := (start settings registry expander).run calls
    (detector.scan line = .ok none ↔ detector.SlashesLost line outcome) ∧
      ((∃ error, detector.scan line = .error error) ↔ detector.FaultAhead line) ∧
      ((∃ found, detector.scan line = .ok (some found)) ↔
        ¬ detector.SlashesLost line outcome ∧ ¬ detector.FaultAhead line) := by
  intro detector
  have htraced : detector.Traced (fun _ => True) registry expander :=
    traced_run trivial fun _ _ _ _ => trivial
  obtain ⟨invocation, hline⟩ := exists_command_of_result h
  have hlost : detector.scan line = .ok none ↔ detector.SlashesLost line outcome :=
    ⟨slashesLost_of_scan_eq_none htraced h, scan_of_slashesLost hline⟩
  have hfault : (∃ error, detector.scan line = .error error) ↔ detector.FaultAhead line :=
    exists_scan_eq_error_iff hline
  refine ⟨hlost, hfault, ?_⟩
  rw [← hlost, ← hfault]
  match detector.scan line with
  | .error error => simp
  | .ok none => simp
  | .ok (some found) => simp

/-- A pattern that is in order on its own, but not behind a name, is no hindrance to a tool that was
found before. A scan with that pattern meets a fault. -/
theorem faultAhead_of_joined_pattern :
    let line := "C:\\bin\\tcc.exe -c b.c".toList
    let registry : Registry := [Registry.portable "tcc" .gnuC]
    let detector := (start ⟨true, Settings.defaultPattern, true⟩ registry none).run
      [.detect "C:\\bin\\tcc.exe -c a.c".toList, .assign Settings.patternField (.string "(?i)x".toList)]
    ∃ outcome, (detector.detect line).result = .ok (some outcome) ∧
      detector.FaultAhead line ∧ ¬ detector.SlashesLost line outcome := by
  intro line registry detector
  have hdetected : (detector.detect line).result = .ok (some
      ⟨⟨0, Registry.portable "tcc" .gnuC, .withExtension, .windows⟩,
        ⟨"C:\\bin\\tcc.exe".toList, " -c b.c".toList⟩⟩) := rfl
  obtain ⟨hlost, hfault, -⟩ := scan_of_detected_iff _ _ _ _ line _ hdetected
  have hscan : ∃ error, detector.scan line = .error error := ⟨_, rfl⟩
  refine ⟨_, hdetected, hfault.1 hscan, ?_⟩
  intro h
  obtain ⟨error, herror⟩ := hscan
  rw [hlost.2 h] at herror
  cases herror

/-- A tool that was found behind backslashes is found again after they have been given up, although a
scan finds none. -/
theorem detected_behind_lost_slashes :
    let line := "C:\\bin\\tcc.exe -c b.c".toList
    let registry : Registry := [Registry.portable "tcc" .gnuC]
    let detector := (start ⟨false, Settings.defaultPattern, true⟩ registry none).run
      [.detect "C:\\bin\\tcc.exe -c a.c".toList, .assign Settings.backslashField (.bool false)]
    detector.settings = ⟨false, Settings.defaultPattern, false⟩ ∧
      detector.scan line = .ok none ∧
      ∃ outcome, (detector.detect line).result = .ok (some outcome) :=
  ⟨rfl, rfl, _, rfl⟩

end BuildLog.Detector
