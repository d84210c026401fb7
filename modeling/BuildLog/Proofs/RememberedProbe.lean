import BuildLog.Proofs.DetectorRun
import BuildLog.Registry

/-!
# A remembered probe finds what a scan finds

As long as the settings stay as they are, it makes no difference to the command and the arguments of a
line whether the remembered probe is tried first.

* `Detector.reachable_of_last`: no fault stands between the start of a scan and the remembered probe,
  because an earlier scan went all the way;
* `Detector.detect_agrees_with_scan`: a line has a fault, no tool or a tool just as a scan says. The
  tool itself may be a later one than that of the scan, where several probes accept the same command.
-/

namespace BuildLog.Detector

variable {settings : Settings} {registry : Registry} {expander : Option Expander}
  {detector : Detector} {probe : Probe}

/-- No fault stands between the start of a scan and the remembered probe. -/
theorem reachable_of_last (htraced : detector.Traced (· = settings) registry expander)
    (hlast : detector.last = some probe) :
    Detection.Reachable settings.effectivePattern
      (Detection.order registry settings.effectivePattern settings.matchBackslash) probe := by
  obtain ⟨past, line, found, rfl, hscan, rfl⟩ := htraced.remembered probe hlast
  exact (Detection.recognized_of_scan hscan).2

/-- The remembered probe has no fault. -/
theorem outcome?_ne_error_of_last (htraced : detector.Traced (· = settings) registry expander)
    (hlast : detector.last = some probe) (line : Text) (error : PatternError) :
    probe.outcome? settings.effectivePattern line ≠ .error error := by
  obtain ⟨_, _, -, -, hfaultless⟩ := reachable_of_last htraced hlast
  exact Probe.outcome?_ne_error hfaultless line error

/-- Whatever lines came before, a line has a fault or no tool exactly if a scan says so. If there is a
tool, it has the command and the arguments that the scan finds. It is named by a probe of the registry
that recognizes the line and does not come before the one where the scan stops. -/
theorem detect_agrees_with_scan (settings : Settings) (registry : Registry)
    (expander : Option Expander) (calls : List Call)
    (hcalls : ∀ call ∈ calls, call.keepsSettings = true) (line : Text) :
    let detected := (((start settings registry expander).run calls).detect line).result
    let scanned := (Detection.scan registry settings.effectivePattern settings.matchBackslash
      expander line).result
    (∀ error, detected = .error error ↔ scanned = .error error) ∧
      (detected = .ok none ↔ scanned = .ok none) ∧
      ∀ fast full, detected = .ok (some fast) → scanned = .ok (some full) →
        fast.invocation = full.invocation ∧
          fast.probe ∈ Detection.order registry settings.effectivePattern settings.matchBackslash ∧
          Detection.Recognized registry settings.effectivePattern settings.matchBackslash expander
            line fast ∧
          ¬ fast.probe.Precedes full.probe := by
  intro detected scanned
  have htraced : ((start settings registry expander).run calls).Traced (· = settings) registry
      expander := traced_run_of_keepsSettings hcalls
  have hsettings := htraced.settings
  have hscan : ((start settings registry expander).run calls).scan line = scanned := by
    rw [htraced.scan_eq, hsettings]
    rfl
  rcases detect_cases ((start settings registry expander).run calls) line with
    ⟨probe, error, hlast, hprobe, -⟩ | ⟨probe, fast, hlast, hprobe, -⟩ | ⟨hmisses, -⟩
  · rw [hsettings] at hprobe
    exact absurd hprobe (outcome?_ne_error_of_last htraced hlast line error)
  · -- the remembered probe accepts the line, so the scan finds it or an earlier one
    have hdetected : detected = .ok (some fast) := result_of_accepted hlast hprobe
    rw [hsettings] at hprobe
    obtain ⟨rfl, -⟩ := Probe.outcome?_eq_some_iff.1 hprobe
    have hreachable := reachable_of_last htraced hlast
    obtain ⟨full, hfull, hinvocation, hprecedes⟩ :=
      Detection.exists_scan_of_reachable expander hreachable hprobe
    have hscanned : scanned = .ok (some full) := hfull
    rw [hdetected, hscanned]
    refine ⟨by simp, by simp, ?_⟩
    rintro _ _ ⟨⟩ ⟨⟩
    exact ⟨hinvocation.symm, hreachable.mem, .inl hprobe, hprecedes⟩
  · -- the scan itself answers
    have hdetected : detected = scanned := (result_of_misses hmisses).trans hscan
    rw [hdetected]
    refine ⟨fun _ => Iff.rfl, Iff.rfl, ?_⟩
    intro fast full hfast hfull
    have hsame : fast = full := by
      rw [hfast] at hfull
      cases hfull
      rfl
    subst hsame
    obtain ⟨hrecognized, hreachable⟩ := Detection.recognized_of_scan hfast
    exact ⟨rfl, hreachable.mem, hrecognized, Probe.Precedes.irrefl _⟩

/-- Two tools, of which the second has a name like a version of the first. -/
def overlapping : Registry := [Registry.plain "gcc" .gnuC, Registry.plain "gcc-4" .gnuC]

/-- The remembered probe may stand behind the one where a scan stops, if both accept the command. -/
theorem detect_agrees_with_scan_overlapping :
    let calls : List Call := [.detect "gcc -c a.c".toList, .reset, .detect "gcc-8 -c a.c".toList]
    let version := Settings.defaultPattern
    let line := "gcc-4 -c b.c".toList
    (∀ call ∈ calls, call.keepsSettings = true) ∧
      ∃ fast full, (((start ⟨true, version, false⟩ overlapping none).run calls).detect line).result =
          .ok (some fast) ∧
        (Detection.scan overlapping version false none line).result = .ok (some full) ∧
        fast.invocation = full.invocation ∧ full.probe.Precedes fast.probe ∧
        Detection.Recognized overlapping version false none line fast := by
  intro calls version line
  have hcalls : ∀ call ∈ calls, call.keepsSettings = true := by
    simp [calls, Call.keepsSettings]
  have hfast : (((start ⟨true, version, false⟩ overlapping none).run calls).detect line).result = .ok
      (some ⟨⟨0, Registry.plain "gcc" .gnuC, .withVersion, .posix⟩,
        ⟨"gcc-4".toList, " -c b.c".toList⟩⟩) := rfl
  have hfull : (Detection.scan overlapping version false none line).result = .ok
      (some ⟨⟨1, Registry.plain "gcc-4" .gnuC, .basename, .posix⟩,
        ⟨"gcc-4".toList, " -c b.c".toList⟩⟩) := rfl
  obtain ⟨-, -, hagree⟩ :=
    detect_agrees_with_scan ⟨true, version, false⟩ overlapping none calls hcalls line
  obtain ⟨hinvocation, -, hrecognized, -⟩ := hagree _ _ hfast hfull
  exact ⟨hcalls, _, _, hfast, hfull, hinvocation, .inr ⟨rfl, .inl (by decide)⟩, hrecognized⟩

end BuildLog.Detector
