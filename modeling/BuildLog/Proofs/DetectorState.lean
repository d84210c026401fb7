import BuildLog.Proofs.DetectorRun

/-!
# The remembered probe and the counters

What a detector keeps besides its settings: the probe that accepted the last command, and how often that
probe helped.

* `Probe.BelongsTo`: a probe that a detector may remember;
* `Detector.Answered`, `Detector.Failed`: what a line leaves behind if there is an answer to it, and if
  it brings out a fault. `answered_of_detect` and `failed_of_detect` say so of every line;
* `Detector.state_of_run`: all this holds in every run, whatever lines, resets and assignments it has.
-/

namespace BuildLog

/-- A probe of a registry: its signature stands there in its place, can be named by its convention, and
is looked for in Windows paths if the probe looks for backslashes. -/
structure Probe.BelongsTo (probe : Probe) (registry : Registry) : Prop where
  placed : registry[probe.position]? = some probe.signature
  supports : probe.signature.supports probe.strategy = true
  onWindows : probe.style = .windows → probe.signature.onWindows = true

/-- A convention that does not suit a tool accepts no command. -/
theorem Probe.supports_of_accepts {probe : Probe} {version command : Text}
    (h : probe.accepts version command = .ok true) :
    probe.signature.supports probe.strategy = true := by
  by_contra hsupports
  rw [Bool.not_eq_true] at hsupports
  simp [accepts, Signature.accepts, hsupports] at h

/-- What a scan finds is a probe of the registry. -/
theorem Detection.belongsTo_of_scan {registry : Registry} {version line : Text} {withBackslash : Bool}
    {expander : Option Expander} {outcome : Outcome}
    (h : (scan registry version withBackslash expander line).result = .ok (some outcome)) :
    outcome.probe.BelongsTo registry := by
  obtain ⟨hrecognized, hreachable⟩ := recognized_of_scan h
  obtain ⟨hplaced, -, hwindows⟩ := mem_order_iff.1 hreachable.mem
  have haccepts : outcome.probe.accepts version outcome.invocation.command = .ok true := by
    rcases hrecognized with houtcome | ⟨_, -, -, -, -, -, haccepts⟩
    · exact (Probe.outcome?_eq_some_iff.1 houtcome).2.2
    · exact haccepts
  exact ⟨hplaced, Probe.supports_of_accepts haccepts, fun hstyle => (hwindows hstyle).2⟩

namespace Detector

variable {detector : Detector} {line : Text} {probe : Probe}

/-! ## One line -/

/-- There is a remembered probe, and it refuses a line. -/
def Refuses (detector : Detector) (line : Text) : Prop :=
  ∃ probe, detector.last = some probe ∧
    probe.outcome? detector.settings.effectivePattern line = .ok none

/-- What a line with an answer leaves behind: one more hit or one more scan, one more miss if the
remembered probe has refused the line, and the probe of the answer, if a tool was found. -/
structure Answered (before after : Detector) (line : Text) (answer : Option Outcome) : Prop where
  counted : after.hits = before.hits + 1 ∧ after.scans = before.scans ∨
    after.hits = before.hits ∧ after.scans = before.scans + 1
  missed : before.Refuses line ∧ after.misses = before.misses + 1 ∨
    ¬ before.Refuses line ∧ after.misses = before.misses
  last : after.last = answer.map (·.probe)

/-- What a line with a fault leaves behind. A fault of the remembered probe changes nothing at all. One
that a scan has met leaves no probe behind, and the scan is counted. -/
inductive Failed (before after : Detector) (line : Text) (error : PatternError) : Prop where
  | remembered (probe : Probe) (last : before.last = some probe)
      (fault : probe.outcome? before.settings.effectivePattern line = .error error)
      (unchanged : after = before)
  | scanned (misses : before.Misses line) (fault : before.scan line = .error error)
      (last : after.last = none) (hits : after.hits = before.hits)
      (scans : after.scans = before.scans + 1)

/-- A probe that was remembered and has not accepted is a miss. -/
theorem misses_forget (h : detector.Misses line) :
    detector.Refuses line ∧ detector.forget.misses = detector.misses + 1 ∨
      ¬ detector.Refuses line ∧ detector.forget.misses = detector.misses := by
  unfold Refuses forget
  cases hlast : detector.last with
  | none => exact .inr ⟨by simp, rfl⟩
  | some probe => exact .inl ⟨⟨probe, rfl, h probe hlast⟩, rfl⟩

theorem forget_hits (detector : Detector) :
    detector.forget.hits = detector.hits ∧ detector.forget.scans = detector.scans := by
  unfold forget
  split <;> exact ⟨rfl, rfl⟩

/-- A scan with an answer leaves the probe that it has found. -/
theorem rescan_last_eq {answer : Option Outcome} (h : detector.scan line = .ok answer) :
    (detector.rescan line).detector.last = answer.map (·.probe) := by
  unfold scan at h
  cases answer with
  | none => simp [rescan, h]
  | some found => simp [rescan, h]

theorem rescan_last_eq_none {error : PatternError} (h : detector.scan line = .error error) :
    (detector.rescan line).detector.last = none := by
  unfold scan at h
  simp [rescan, h]

/-- The remembered probe accepts a line, or a scan gives the answer. -/
theorem answered_of_detect {answer : Option Outcome}
    (h : (detector.detect line).result = .ok answer) :
    detector.Answered (detector.detect line).detector line answer := by
  rcases detect_cases detector line with ⟨probe, error, -, -, heq⟩ |
    ⟨probe, outcome, hlast, hprobe, heq⟩ | ⟨hmisses, heq⟩
  · rw [heq] at h
    cases h
  · rw [heq] at h ⊢
    cases h
    refine ⟨.inl ⟨rfl, rfl⟩, .inr ⟨?_, rfl⟩, ?_⟩
    · rintro ⟨other, hother, hrefused⟩
      cases hlast.symm.trans hother
      cases hprobe.symm.trans hrefused
    · obtain ⟨rfl, -⟩ := Probe.outcome?_eq_some_iff.1 hprobe
      exact hlast
  · rw [result_of_misses hmisses] at h
    rw [heq]
    obtain ⟨hhits, hscans⟩ := detector.forget_hits
    refine ⟨.inr ⟨hhits, congrArg (· + 1) hscans⟩, misses_forget hmisses, ?_⟩
    exact rescan_last_eq (scan_forget.trans h)

/-- The remembered probe has a fault, or a scan meets one. -/
theorem failed_of_detect {error : PatternError} (h : (detector.detect line).result = .error error) :
    detector.Failed (detector.detect line).detector line error := by
  rcases detect_cases detector line with ⟨probe, fault, hlast, hprobe, heq⟩ |
    ⟨probe, outcome, -, -, heq⟩ | ⟨hmisses, heq⟩
  · rw [heq] at h ⊢
    cases h
    exact .remembered probe hlast hprobe rfl
  · rw [heq] at h
    cases h
  · rw [result_of_misses hmisses] at h
    rw [heq]
    obtain ⟨hhits, hscans⟩ := detector.forget_hits
    exact .scanned hmisses h (rescan_last_eq_none (scan_forget.trans h)) hhits
      (congrArg (· + 1) hscans)

/-! ## Runs -/

/-- Each miss is followed by a scan, even if that ends with a fault. -/
theorem misses_le_scans_detect (h : detector.misses ≤ detector.scans) :
    (detector.detect line).detector.misses ≤ (detector.detect line).detector.scans := by
  rcases detect_cases detector line with ⟨_, _, -, -, heq⟩ | ⟨_, _, -, -, heq⟩ | ⟨hmisses, heq⟩
  · rw [heq]
    exact h
  · rw [heq]
    exact h
  · have hscans : (detector.rescan line).detector.scans = detector.scans + 1 := rfl
    have hmissed : detector.forget.misses ≤ detector.misses + 1 := by
      rcases misses_forget hmisses with ⟨-, hcount⟩ | ⟨-, hcount⟩ <;> omega
    have hsame : (detector.forget.rescan line).detector.misses = detector.forget.misses := rfl
    have hmore : (detector.forget.rescan line).detector.scans = detector.forget.scans + 1 := rfl
    rw [heq, hsame, hmore, detector.forget_hits.2]
    omega

/-- There are never more misses than scans. -/
theorem misses_le_scans_run (settings : Settings) (registry : Registry) (expander : Option Expander)
    (calls : List Call) :
    ((start settings registry expander).run calls).misses ≤
      ((start settings registry expander).run calls).scans := by
  refine List.foldlRecOn calls Detector.after (motive := fun detector : Detector =>
    detector.misses ≤ detector.scans) (Nat.le_refl 0) ?_
  intro detector hcount call _
  cases call with
  | detect line => exact misses_le_scans_detect hcount
  | reset => exact hcount
  | assign field value => exact hcount

/-- What is remembered after a run is a probe of the registry. -/
theorem belongsTo_of_last {settings : Settings} {registry : Registry} {expander : Option Expander}
    {calls : List Call}
    (h : ((start settings registry expander).run calls).last = some probe) :
    probe.BelongsTo registry := by
  have htraced : ((start settings registry expander).run calls).Traced (fun _ => True) registry
      expander := traced_run trivial fun _ _ _ _ => trivial
  obtain ⟨past, line, found, -, hscan, rfl⟩ := htraced.remembered probe h
  exact Detection.belongsTo_of_scan hscan

/-- **The state of a detector.** In every run of lines, resets and assignments, also one in which lines
have brought out faults, what is remembered is a probe of the registry, and there are no more misses than
scans. The next line counts as one hit or one scan if it has an answer, and as a miss exactly if there is
a remembered probe that refuses it. The probe of the answer is remembered then, and nothing if no tool is
found. A line with a fault leaves all as it is, or, if a scan was begun, counts that scan and leaves
nothing remembered. -/
theorem state_of_run (settings : Settings) (registry : Registry) (expander : Option Expander)
    (calls : List Call) (line : Text) :
    let detector := (start settings registry expander).run calls
    let after := (detector.detect line).detector
    (∀ probe, detector.last = some probe → probe.BelongsTo registry) ∧
      detector.misses ≤ detector.scans ∧
      (∀ answer, (detector.detect line).result = .ok answer → detector.Answered after line answer) ∧
      ∀ error, (detector.detect line).result = .error error → detector.Failed after line error := by
  intro detector after
  exact ⟨fun _ => belongsTo_of_last, misses_le_scans_run settings registry expander calls,
    fun _ => answered_of_detect, fun _ => failed_of_detect⟩

end Detector
end BuildLog
