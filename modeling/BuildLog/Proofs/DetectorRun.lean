import BuildLog.Detector
import BuildLog.Proofs.ScanSearch

/-!
# Runs of a detector

* `Detector.Call`: what may be asked of a detector, and `Detector.run`: one call after the other;
* `Detector.detect_cases`: the three ways in which a line is dealt with. The remembered probe has a
  fault, or it accepts the line, or the registry is scanned;
* `Detector.Traced`: what holds after every run. Registry and expander stay the same, and whatever is
  remembered was found by a scan under settings that the detector had at some time (`traced_run`).
-/

namespace BuildLog

namespace Detector

/-! ## Calls -/

/-- What may be asked of a detector. -/
inductive Call where
  /-- The tool of a line. -/
  | detect (line : Text)
  /-- To forget the remembered probe. -/
  | reset
  /-- To set one of the settings; the value may be refused. -/
  | assign (field : Text) (value : Json)

/-- Whether a call leaves the settings alone. -/
def Call.keepsSettings : Call → Bool
  | assign .. => false
  | _ => true

/-- The settings after a call. -/
def Call.settings (settings : Settings) : Call → Settings
  | assign field value => (settings.attempt field value).1
  | _ => settings

/-- The detector after a call. -/
def after (detector : Detector) : Call → Detector
  | .detect line => (detector.detect line).detector
  | .reset => detector.reset
  | .assign field value => (detector.attempt field value).1

/-- The detector after some calls. -/
def run (detector : Detector) (calls : List Call) : Detector :=
  calls.foldl after detector

/-- What a scan of the whole registry says about a line, with the settings as they are. -/
def scan (detector : Detector) (line : Text) : Except PatternError (Option Outcome) :=
  (Detection.scan detector.registry detector.settings.effectivePattern
    detector.settings.matchBackslash detector.expander line).result

variable {detector : Detector} {line : Text} {probe : Probe} {outcome : Outcome}

/-! ## One line -/

/-- The remembered probe refuses a line, or there is none. -/
def Misses (detector : Detector) (line : Text) : Prop :=
  ∀ probe, detector.last = some probe →
    probe.outcome? detector.settings.effectivePattern line = .ok none

/-- A line brings out a fault in the remembered probe, or is accepted by it, or the registry is
scanned. -/
theorem detect_cases (detector : Detector) (line : Text) :
    (∃ probe error, detector.last = some probe ∧
      probe.outcome? detector.settings.effectivePattern line = .error error ∧
      detector.detect line = ⟨.error error, detector, []⟩) ∨
    (∃ probe outcome, detector.last = some probe ∧
      probe.outcome? detector.settings.effectivePattern line = .ok (some outcome) ∧
      detector.detect line = ⟨.ok (some outcome), { detector with hits := detector.hits + 1 }, []⟩) ∨
    (detector.Misses line ∧ detector.detect line = detector.forget.rescan line) := by
  unfold detect tryLast
  cases hlast : detector.last with
  | none =>
    refine .inr (.inr ⟨?_, rfl⟩)
    intro probe hprobe
    rw [hlast] at hprobe
    cases hprobe
  | some probe =>
    match hprobe : probe.outcome? detector.settings.effectivePattern line with
    | .error error => exact .inl ⟨probe, error, rfl, hprobe, by simp [hprobe]⟩
    | .ok (some outcome) => exact .inr (.inl ⟨probe, outcome, rfl, hprobe, by simp [hprobe]⟩)
    | .ok none =>
      refine .inr (.inr ⟨?_, by simp [hprobe]⟩)
      intro other hother
      rw [hlast] at hother
      cases hother
      exact hprobe

/-- Forgetting changes nothing that a scan looks at. -/
theorem scan_forget : detector.forget.scan line = detector.scan line := by
  unfold forget
  split <;> rfl

theorem rescan_result : (detector.rescan line).result = detector.scan line := rfl

/-- After a scan, the probe that was found is remembered. -/
theorem rescan_last :
    (detector.rescan line).detector.last = some probe ↔
      ∃ found, detector.scan line = .ok (some found) ∧ found.probe = probe := by
  unfold rescan scan
  dsimp only
  split
  · rename_i found hfound
    simp [hfound]
  · rename_i hnothing
    constructor
    · intro h
      cases h
    · rintro ⟨found, hfound, -⟩
      exact absurd hfound (hnothing found)

/-- A line that the remembered probe does not accept has the tool that a scan finds. -/
theorem result_of_misses (h : detector.Misses line) :
    (detector.detect line).result = detector.scan line := by
  rcases detect_cases detector line with ⟨probe, error, hlast, hprobe, -⟩ |
    ⟨probe, outcome, hlast, hprobe, -⟩ | ⟨-, heq⟩
  · rw [h probe hlast] at hprobe
    cases hprobe
  · rw [h probe hlast] at hprobe
    cases hprobe
  · rw [heq, rescan_result, scan_forget]

/-- A line that the remembered probe accepts has that tool. -/
theorem result_of_accepted (hlast : detector.last = some probe)
    (hprobe : probe.outcome? detector.settings.effectivePattern line = .ok (some outcome)) :
    (detector.detect line).result = .ok (some outcome) := by
  rw [detect, tryLast, hlast]
  simp only [hprobe]

/-- The outcome of a line comes from the remembered probe or from a scan. -/
theorem last_or_scan_of_result (h : (detector.detect line).result = .ok (some outcome)) :
    (detector.last = some outcome.probe ∧
      outcome.probe.outcome? detector.settings.effectivePattern line = .ok (some outcome)) ∨
    detector.scan line = .ok (some outcome) := by
  rcases detect_cases detector line with ⟨probe, error, -, -, heq⟩ |
    ⟨probe, found, hlast, hprobe, heq⟩ | ⟨hmisses, -⟩
  · rw [heq] at h
    cases h
  · rw [heq] at h
    cases h
    obtain ⟨rfl, -⟩ := Probe.outcome?_eq_some_iff.1 hprobe
    exact .inl ⟨hlast, hprobe⟩
  · rw [result_of_misses hmisses] at h
    exact .inr h

/-- A line without a command has no tool. -/
theorem exists_command_of_result (h : (detector.detect line).result = .ok (some outcome)) :
    ∃ invocation, Invocation.ofLine? line = some invocation := by
  rcases last_or_scan_of_result h with ⟨-, hprobe⟩ | hscan
  · exact ⟨outcome.invocation, (Probe.outcome?_eq_some_iff.1 hprobe).2.1⟩
  · cases hline : Invocation.ofLine? line with
    | some invocation => exact ⟨invocation, rfl⟩
    | none =>
      rw [scan, Detection.scan_of_no_command hline] at hscan
      cases hscan

/-- What is remembered after a line was remembered before, or was found by a scan. -/
theorem last_detect (h : (detector.detect line).detector.last = some probe) :
    detector.last = some probe ∨
      ∃ found, detector.scan line = .ok (some found) ∧ found.probe = probe := by
  rcases detect_cases detector line with ⟨_, _, -, -, heq⟩ | ⟨_, _, -, -, heq⟩ | ⟨-, heq⟩
  · rw [heq] at h
    exact .inl h
  · rw [heq] at h
    exact .inl h
  · rw [heq, rescan_last, scan_forget] at h
    exact .inr h

/-- After its first line, a detector remembers what a scan has found. -/
theorem last_of_first_line {settings : Settings} {registry : Registry} {expander : Option Expander}
    (h : (start settings registry expander).scan line = .ok (some outcome)) :
    ((start settings registry expander).detect line).detector.last = some outcome.probe :=
  rescan_last.2 ⟨outcome, h, rfl⟩

/-! ## Runs -/

theorem detect_unchanged (detector : Detector) (line : Text) :
    (detector.detect line).detector.settings = detector.settings ∧
      (detector.detect line).detector.registry = detector.registry ∧
      (detector.detect line).detector.expander = detector.expander := by
  rcases detect_cases detector line with ⟨_, _, -, -, heq⟩ | ⟨_, _, -, -, heq⟩ | ⟨-, heq⟩
  · rw [heq]
    exact ⟨rfl, rfl, rfl⟩
  · rw [heq]
    exact ⟨rfl, rfl, rfl⟩
  · rw [heq, rescan, forget]
    split <;> exact ⟨rfl, rfl, rfl⟩

/-- Only assignments change settings, and no call changes the registry or the expander. -/
theorem after_unchanged (detector : Detector) (call : Call) :
    (detector.after call).settings = call.settings detector.settings ∧
      (detector.after call).registry = detector.registry ∧
      (detector.after call).expander = detector.expander := by
  cases call with
  | detect line => exact detect_unchanged detector line
  | reset => exact ⟨rfl, rfl, rfl⟩
  | assign field value => exact ⟨rfl, rfl, rfl⟩

/-- A detector that has known only settings of a kind: it still has its registry and expander, and what
it remembers was found by a scan under such settings. -/
structure Traced (kind : Settings → Prop) (registry : Registry) (expander : Option Expander)
    (detector : Detector) : Prop where
  registry_eq : detector.registry = registry
  expander_eq : detector.expander = expander
  settings : kind detector.settings
  remembered : ∀ probe, detector.last = some probe → ∃ past line found, kind past ∧
    (start past registry expander).scan line = .ok (some found) ∧ found.probe = probe

variable {kind : Settings → Prop} {registry : Registry} {expander : Option Expander}

theorem Traced.scan_eq (h : detector.Traced kind registry expander) (line : Text) :
    detector.scan line = (start detector.settings registry expander).scan line := by
  rw [scan, h.registry_eq, h.expander_eq]
  rfl

/-- One call keeps a detector traced, if it keeps the kind of settings. -/
theorem Traced.after {call : Call} (h : detector.Traced kind registry expander)
    (hkind : ∀ settings, kind settings → kind (call.settings settings)) :
    (detector.after call).Traced kind registry expander := by
  obtain ⟨hsettings, hregistry, hexpander⟩ := after_unchanged detector call
  refine ⟨hregistry.trans h.registry_eq, hexpander.trans h.expander_eq, ?_, ?_⟩
  · rw [hsettings]
    exact hkind _ h.settings
  · intro probe hlast
    cases call with
    | detect line =>
      rcases last_detect hlast with hbefore | ⟨found, hscan, hfound⟩
      · exact h.remembered probe hbefore
      · rw [h.scan_eq] at hscan
        exact ⟨_, line, found, h.settings, hscan, hfound⟩
    | reset => cases hlast
    | assign field value => exact h.remembered probe hlast

/-- A fresh detector stays traced in every run that keeps the kind of its settings. -/
theorem traced_run {settings : Settings} {calls : List Call} (hstart : kind settings)
    (hcalls : ∀ call ∈ calls, ∀ settings, kind settings → kind (call.settings settings)) :
    ((start settings registry expander).run calls).Traced kind registry expander := by
  have hfresh : (start settings registry expander).Traced kind registry expander :=
    ⟨rfl, rfl, hstart, fun _ h => by cases h⟩
  exact List.foldlRecOn calls Detector.after hfresh fun _ htraced call hcall =>
    htraced.after (hcalls call hcall)

/-- A remembered probe that accepts a command belongs to the scan as it would be now, unless it looks
for backslashes that do not separate components any more. -/
theorem Traced.mem_order {command : Text} (h : detector.Traced kind registry expander)
    (hlast : detector.last = some probe)
    (haccepts : probe.accepts detector.settings.effectivePattern command = .ok true)
    (hstyle : probe.style = .windows → detector.settings.matchBackslash = true) :
    probe ∈ Detection.order registry detector.settings.effectivePattern
      detector.settings.matchBackslash := by
  obtain ⟨past, line, found, -, hscan, rfl⟩ := h.remembered probe hlast
  obtain ⟨hplace, -, hwindows⟩ :=
    Detection.mem_order_iff.1 (Detection.recognized_of_scan hscan).2.mem
  exact Detection.mem_order_iff.2 ⟨hplace, Probe.version_ne_nil_of_accepts haccepts,
    fun h => ⟨hstyle h, (hwindows h).2⟩⟩

/-- Calls that keep the settings keep every kind of settings. -/
theorem Call.settings_eq_of_keepsSettings {call : Call} (h : call.keepsSettings = true)
    (settings : Settings) : call.settings settings = settings := by
  cases call with
  | detect line => rfl
  | reset => rfl
  | assign field value => cases h

/-- Without assignments, what is remembered was found by a scan under the settings of the start. -/
theorem traced_run_of_keepsSettings {settings : Settings} {calls : List Call}
    (hcalls : ∀ call ∈ calls, call.keepsSettings = true) :
    ((start settings registry expander).run calls).Traced (· = settings) registry expander := by
  apply traced_run
  · rfl
  · intro call hcall other hother
    rw [Call.settings_eq_of_keepsSettings (hcalls call hcall), hother]

end Detector
end BuildLog
