import BuildLog.Proofs.RememberedProbe

/-!
# Exact names come before versions

A scan looks for versions only after all exact names, with an extension or without, were tried in vain.
A remembered probe is tried before all of them.

* `Registry.NamesExactly`: a command has the exact name of a tool;
* `Detection.not_namesExactly_of_scan`: then a scan never finds a version;
* `Detector.exact_names_first_iff`: the same holds in all runs of a detector exactly for the registries
  where no probe for versions that a scan can find accepts an exact name.
-/

namespace BuildLog

/-! ## Exact names -/

/-- Exact names are tried before names with a version. -/
theorem Strategy.rank_lt_of_usesVersion {exact version : Strategy} (hexact : exact.usesVersion = false)
    (hversion : version.usesVersion = true) : exact.rank < version.rank := by
  cases exact <;> cases version <;> simp_all [usesVersion, rank]

/-- The pattern of versions is no concern of an exact name. -/
theorem Signature.accepts_of_not_usesVersion (signature : Signature) {strategy : Strategy}
    (h : strategy.usesVersion = false) (style : PathStyle) (version other command : Text) :
    signature.accepts strategy style version command =
      signature.accepts strategy style other command := by
  simp [accepts, source, h]

/-- The command of a line has the exact name of a tool, with an extension or without. -/
def Registry.NamesExactly (registry : Registry) (line : Text) : Prop :=
  ∃ signature ∈ registry, ∃ strategy invocation, strategy.usesVersion = false ∧
    signature.matchLine? strategy .posix [] line = .ok (some invocation)

namespace Detection

variable {registry : Registry} {pattern line : Text} {expander : Option Expander} {outcome : Outcome}

/-- A scan has a probe for every exact name. -/
theorem exists_probe_of_namesExactly (h : registry.NamesExactly line) (pattern : Text) :
    ∃ probe ∈ order registry pattern false, probe.strategy.usesVersion = false ∧
      ∃ invocation, Invocation.ofLine? line = some invocation ∧
        probe.accepts pattern invocation.command = .ok true := by
  obtain ⟨signature, hmem, strategy, invocation, hexact, hmatch⟩ := h
  obtain ⟨position, hplace⟩ := List.getElem?_of_mem hmem
  let probe : Probe := ⟨position, signature, strategy, .posix⟩
  have houtcome : probe.outcome? [] line = .ok (some ⟨probe, invocation⟩) := by
    simp [Probe.outcome?, probe, hmatch, Except.map]
  obtain ⟨-, hline, haccepts⟩ := Probe.outcome?_eq_some_iff.1 houtcome
  refine ⟨probe, mem_order_iff.2 ⟨hplace, ?_, nofun⟩, hexact, invocation, hline, ?_⟩
  · intro huses
    cases hexact.symm.trans huses
  · rw [Probe.accepts, signature.accepts_of_not_usesVersion hexact _ pattern []]
    exact haccepts

/-- A scan never finds a version where there is an exact name. -/
theorem not_namesExactly_of_scan
    (h : (scan registry pattern false expander line).result = .ok (some outcome))
    (huses : outcome.probe.strategy.usesVersion = true) : ¬ registry.NamesExactly line := by
  intro hnames
  obtain ⟨probe, hmem, hexact, invocation, hline, haccepts⟩ :=
    exists_probe_of_namesExactly hnames pattern
  rw [scan_without_backslash hline] at h
  have hstyle := style_of_mem_order (reachable_of_first? h).mem
  obtain ⟨-, -, earlier, later, horder, hearlier⟩ := first?_eq_some_iff.1 h
  have hprecedes : probe.Precedes outcome.probe := by
    have hrank := Strategy.rank_lt_of_usesVersion hexact huses
    exact .inr ⟨(style_of_mem_order hmem).trans hstyle.symm, .inl hrank⟩
  -- the probe for the exact name was tried and has refused
  have hsorted : (earlier ++ outcome.probe :: later).Pairwise Probe.Precedes := horder ▸ order_pairwise
  have hbefore : probe ∈ earlier := (precedes_iff_mem hsorted).2 ⟨horder ▸ hmem, hprecedes⟩
  rw [hearlier probe hbefore] at haccepts
  cases haccepts

end Detection

/-! ## Runs -/

namespace Detector

/-- A scan never finds a version where there is an exact name. A detector that looks for versions, and
for plain slashes only, keeps to that in all runs exactly if no probe for versions that the scan of some
line finds accepts an exact name. -/
theorem exact_names_first_iff (pattern : Text) (registry : Registry) (expander : Option Expander) :
    let fresh := start ⟨true, pattern, false⟩ registry expander
    (∀ line outcome, fresh.scan line = .ok (some outcome) →
      outcome.probe.strategy.usesVersion = true → ¬ registry.NamesExactly line) ∧
    ((∀ (lines : List Text) (line : Text) (outcome : Outcome),
        ((fresh.run (lines.map .detect)).detect line).result = .ok (some outcome) →
        outcome.probe.strategy.usesVersion = true → ¬ registry.NamesExactly line) ↔
      ∀ (first second : Text) (found outcome : Outcome), fresh.scan first = .ok (some found) →
        found.probe.strategy.usesVersion = true →
        found.probe.outcome? pattern second = .ok (some outcome) → ¬ registry.NamesExactly second) := by
  intro fresh
  refine ⟨fun line outcome hscan huses => Detection.not_namesExactly_of_scan hscan huses, ?_, ?_⟩
  · -- two lines are enough: the first brings the probe, and the second has the exact name
    intro h first second found outcome hscan huses houtcome
    have hlast : (fresh.run [.detect first]).last = some found.probe := last_of_first_line hscan
    have hresult : ((fresh.run [.detect first]).detect second).result = .ok (some outcome) :=
      result_of_accepted hlast houtcome
    obtain ⟨hprobe, -⟩ := Probe.outcome?_eq_some_iff.1 houtcome
    exact h [first] second outcome hresult (by rw [hprobe]; exact huses)
  · intro h lines line outcome hresult huses
    have hcalls : ∀ call ∈ lines.map Call.detect, call.keepsSettings = true := by
      intro call hcall
      obtain ⟨_, -, rfl⟩ := List.mem_map.1 hcall
      rfl
    have htraced : (fresh.run (lines.map .detect)).Traced (· = ⟨true, pattern, false⟩) registry
        expander := traced_run_of_keepsSettings hcalls
    rcases last_or_scan_of_result hresult with ⟨hlast, hprobe⟩ | hscan
    · obtain ⟨past, first, found, rfl, hscan, hfound⟩ := htraced.remembered _ hlast
      rw [htraced.settings, ← hfound] at hprobe
      exact h first line found outcome hscan (by rw [hfound]; exact huses) hprobe
    · rw [htraced.scan_eq, htraced.settings] at hscan
      exact Detection.not_namesExactly_of_scan hscan huses

/-- After a tool with a version, another tool is taken for one with a version, although the command has
its exact name. -/
theorem exact_name_behind_version :
    let fresh := start ⟨true, Settings.defaultPattern, false⟩ overlapping none
    let line := "gcc-4 -c b.c".toList
    (∃ outcome, ((fresh.run [.detect "gcc-8 -c a.c".toList]).detect line).result = .ok (some outcome) ∧
      outcome.probe.strategy = .withVersion) ∧
    overlapping.NamesExactly line := by
  refine ⟨⟨_, rfl, rfl⟩, Registry.plain "gcc-4" .gnuC, by simp [overlapping], .basename, ?_⟩
  exact ⟨⟨"gcc-4".toList, " -c b.c".toList⟩, rfl, rfl⟩

end Detector
end BuildLog
