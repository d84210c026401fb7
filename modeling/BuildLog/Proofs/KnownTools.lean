import BuildLog.Proofs.NameParts
import BuildLog.Proofs.RememberedProbe

/-!
# The known tools

No name belongs to two of the known tools, and none to one of them in two ways. So it makes no
difference at all whether the remembered probe is tried first.

* `Registry.known_patterns`: the patterns of the known tools are those of their stems;
* `Registry.known_unambiguous`: at most one known tool accepts a name, and in one way;
* `Detector.known_transparent`: in every run, each line has exactly the tool that a scan finds.
-/

namespace BuildLog

/-- The stem of a known tool: its name, or the end of the names of a family. -/
def Signature.stem (signature : Signature) : Text :=
  if signature.isPattern then (signature.name.drop ".+-".length).filter (· != '\\') else signature.name

theorem Strategy.mem_all (strategy : Strategy) : strategy ∈ all := by
  cases strategy <;> decide

namespace Registry

/-- The patterns of the known tools are those of their stems. -/
theorem known_patterns : ∀ signature ∈ known, ∀ strategy ∈ Strategy.all,
    signature.supports strategy = true →
      Pattern.ofText (signature.source strategy Settings.defaultPattern) =
        .ok (.named signature.isPattern signature.stem strategy) := by
  decide +kernel

theorem known_stems : ∀ signature ∈ known, isStem signature.stem = true := by
  decide +kernel

/-- No two known tools have the same stem, unless one of them is a family and the other is not. -/
theorem known_stems_nodup :
    (known.map fun signature => (signature.isPattern, signature.stem)).Nodup := by
  decide +kernel

/-- A known tool accepts only names with its stem. -/
theorem namedBy_of_acceptsName {signature : Signature} {strategy : Strategy} {name : Text}
    (hknown : signature ∈ known)
    (h : signature.acceptsName strategy false Settings.defaultPattern name = .ok true) :
    NamedBy signature.isPattern signature.stem strategy name := by
  unfold Signature.acceptsName at h
  split at h
  · cases h
  · rename_i hactive
    have hsupports : signature.supports strategy = true := by
      simp only [Bool.or_eq_true, not_or] at hactive
      simpa using hactive.1
    rw [known_patterns signature hknown strategy strategy.mem_all hsupports] at h
    have hmatches :
        (Pattern.named signature.isPattern signature.stem strategy).matchesAll false name = true := by
      simpa [Except.map] using h
    exact Pattern.namedBy_of_spells (Pattern.spells_of_matchesIn hmatches)

/-- **At most one known tool accepts a name, and in one way.** -/
theorem known_unambiguous {name : Text} {position position' : Nat} {signature signature' : Signature}
    {strategy strategy' : Strategy} (hplace : known[position]? = some signature)
    (hplace' : known[position']? = some signature')
    (h : signature.acceptsName strategy false Settings.defaultPattern name = .ok true)
    (h' : signature'.acceptsName strategy' false Settings.defaultPattern name = .ok true) :
    position = position' ∧ strategy = strategy' := by
  have hknown := List.mem_of_getElem? hplace
  have hknown' := List.mem_of_getElem? hplace'
  obtain ⟨hfamily, hstem, hstrategy⟩ := (namedBy_of_acceptsName hknown h).unique
    (namedBy_of_acceptsName hknown' h') (known_stems _ hknown) (known_stems _ hknown')
  refine ⟨?_, hstrategy⟩
  have hkey : (known.map fun tool => (tool.isPattern, tool.stem))[position]? =
      (known.map fun tool => (tool.isPattern, tool.stem))[position']? := by
    simp [hplace, hplace', hfamily, hstem]
  have hbound : position < (known.map fun tool => (tool.isPattern, tool.stem)).length := by
    rw [List.length_map]
    exact (List.getElem?_eq_some_iff.1 hplace).1
  exact (List.getElem?_inj hbound known_stems_nodup).1 hkey

/-- Versions are looked for as usual, or not at all. -/
def UsualOrNone (version : Text) : Prop :=
  version = [] ∨ version = Settings.defaultPattern

/-- The patterns of the known tools have no faults. -/
theorem known_faultless {probe : Probe} {version : Text} (hknown : probe.signature ∈ known)
    (hversion : UsualOrNone version) : probe.Faultless version := by
  intro command
  rw [Probe.accepts, Signature.accepts_eq_acceptsName, Signature.acceptsName]
  split
  · exact ⟨false, rfl⟩
  · rename_i hactive
    simp only [Bool.or_eq_true, not_or] at hactive
    have hsupports : probe.signature.supports probe.strategy = true := by simpa using hactive.1
    rcases hversion with rfl | rfl
    · have huses : probe.strategy.usesVersion = false := by simpa using hactive.2
      obtain ⟨pattern, hpattern⟩ := probe.signature.exists_pattern [] huses
      rw [hpattern]
      exact ⟨_, rfl⟩
    · rw [known_patterns _ hknown _ probe.strategy.mem_all hsupports]
      exact ⟨_, rfl⟩

/-- A name that is accepted while versions are not looked for is accepted as well while they are. -/
theorem acceptsName_usual {signature : Signature} {strategy : Strategy} {ignoreCase : Bool}
    {version name : Text} (hversion : UsualOrNone version)
    (h : signature.acceptsName strategy ignoreCase version name = .ok true) :
    signature.acceptsName strategy ignoreCase Settings.defaultPattern name = .ok true := by
  rcases hversion with rfl | rfl
  · cases huses : strategy.usesVersion with
    | true => simp [Signature.acceptsName, huses] at h
    | false => simpa [Signature.acceptsName, Signature.source, huses] using h
  · exact h

end Registry

/-! ## Runs of a detector of the known tools -/

namespace Detector

/-- Whether a call sets nothing but whether versions are looked for. -/
def Call.onlyToggles : Call → Bool
  | assign field _ => field == Settings.enabledField
  | _ => true

/-- Settings with the usual pattern of versions and plain slashes. -/
def Usual (settings : Settings) : Prop :=
  settings.versionPattern = Settings.defaultPattern ∧ settings.matchBackslash = false

theorem usualOrNone_of_usual {settings : Settings} (h : Usual settings) :
    Registry.UsualOrNone settings.effectivePattern := by
  unfold Settings.effectivePattern
  split
  · exact .inr h.1
  · exact .inl rfl

theorem usual_call {call : Call} {settings : Settings} (hcall : call.onlyToggles = true)
    (h : Usual settings) : Usual (call.settings settings) := by
  cases call with
  | detect line => exact h
  | reset => exact h
  | assign field value =>
    obtain rfl : field = Settings.enabledField := by simpa [Call.onlyToggles] using hcall
    unfold Call.settings Settings.attempt Settings.assign
    dsimp only
    rw [if_pos rfl]
    cases boolOf value <;> exact h

variable {detector : Detector} {line : Text} {expander : Option Expander}

/-- A scan for the known tools always has an answer. -/
theorem exists_scan_eq_ok (line : Text) (hregistry : detector.registry = Registry.known)
    (husual : Usual detector.settings) : ∃ answer, detector.scan line = .ok answer := by
  unfold scan
  rw [hregistry, husual.2]
  cases hline : Invocation.ofLine? line with
  | none => exact ⟨none, Detection.scan_of_no_command hline⟩
  | some invocation =>
    rw [Detection.scan_without_backslash hline]
    apply Detection.exists_first?_eq_ok
    intro probe hprobe
    exact Registry.known_faultless (List.mem_of_getElem? (Detection.mem_order_iff.1 hprobe).1)
      (usualOrNone_of_usual husual)

/-- Probes for the known tools with plain slashes that accept one command are the same. -/
theorem eq_of_accept {first second : Probe} {version command : Text}
    (hversion : Registry.UsualOrNone version)
    (hfirst : first ∈ Detection.order Registry.known version false)
    (hsecond : second ∈ Detection.order Registry.known version false)
    (h : first.accepts version command = .ok true) (h' : second.accepts version command = .ok true) :
    first = second := by
  have hplace := (Detection.mem_order_iff.1 hfirst).1
  have hplace' := (Detection.mem_order_iff.1 hsecond).1
  have hposix := Detection.style_of_mem_order hfirst
  have hposix' := Detection.style_of_mem_order hsecond
  obtain ⟨position, signature, strategy, style⟩ := first
  obtain ⟨position', signature', strategy', style'⟩ := second
  subst hposix hposix'
  rw [Probe.accepts, Signature.accepts_eq_acceptsName] at h h'
  obtain ⟨rfl, rfl⟩ := Registry.known_unambiguous hplace hplace'
    (Registry.acceptsName_usual hversion h) (Registry.acceptsName_usual hversion h')
  cases hplace.symm.trans hplace'
  rfl

/-- What is remembered looks for plain slashes. -/
theorem style_of_last {probe : Probe} (htraced : detector.Traced Usual Registry.known expander)
    (hlast : detector.last = some probe) : probe.style = .posix := by
  obtain ⟨past, pastLine, found, hpast, hscan, rfl⟩ := htraced.remembered probe hlast
  have hmem : found.probe ∈ Detection.order Registry.known past.effectivePattern past.matchBackslash :=
    (Detection.recognized_of_scan hscan).2.mem
  rw [hpast.2] at hmem
  exact Detection.style_of_mem_order hmem

/-- The remembered probe has no fault, since its tool is known. -/
theorem faultless_of_last {probe : Probe} (htraced : detector.Traced Usual Registry.known expander)
    (hlast : detector.last = some probe) : probe.Faultless detector.settings.effectivePattern := by
  obtain ⟨past, pastLine, found, -, hscan, rfl⟩ := htraced.remembered probe hlast
  have hplace := (Detection.mem_order_iff.1 (Detection.recognized_of_scan hscan).2.mem).1
  exact Registry.known_faultless (List.mem_of_getElem? hplace)
    (usualOrNone_of_usual htraced.settings)

/-- If the remembered probe accepts a line, a scan finds just that probe: it finds one that accepts the
line too, and there is no other. -/
theorem scan_of_last {probe : Probe} {outcome : Outcome}
    (htraced : detector.Traced Usual Registry.known expander) (hlast : detector.last = some probe)
    (hprobe : probe.outcome? detector.settings.effectivePattern line = .ok (some outcome)) :
    detector.scan line = .ok (some outcome) := by
  obtain ⟨answer, hscan⟩ := exists_scan_eq_ok line htraced.registry_eq htraced.settings
  obtain ⟨rfl, hline, haccepts⟩ := Probe.outcome?_eq_some_iff.1 hprobe
  have hmem := htraced.mem_order hlast haccepts fun hwindows => by
    rw [style_of_last htraced hlast] at hwindows
    cases hwindows
  rw [htraced.settings.2] at hmem
  have hsearch : Detection.first? detector.settings.effectivePattern outcome.invocation
      (Detection.order Registry.known detector.settings.effectivePattern false) = .ok answer := by
    rw [← Detection.scan_without_backslash hline, ← htraced.settings.2, ← htraced.registry_eq]
    exact hscan
  cases answer with
  | none =>
    rw [Detection.first?_eq_none_iff.1 hsearch _ hmem] at haccepts
    cases haccepts
  | some full =>
    obtain ⟨hinvocation, hfull, -⟩ := Detection.first?_eq_some_iff.1 hsearch
    have hsame : outcome.probe = full.probe :=
      eq_of_accept (usualOrNone_of_usual htraced.settings) hmem
        (Detection.reachable_of_first? hsearch).mem haccepts hfull
    obtain ⟨probe, invocation⟩ := full
    cases hsame
    cases hinvocation
    exact hscan

/-- No name belongs to two known tools or to one in two ways. Therefore every line of a run has the
very tool that a scan finds with the settings as they are then, while versions are looked for or not in
turn. -/
theorem known_transparent (settings : Settings) (expander : Option Expander)
    (hpattern : settings.versionPattern = Settings.defaultPattern)
    (hbackslash : settings.matchBackslash = false) (calls : List Call)
    (hcalls : ∀ call ∈ calls, call.onlyToggles = true) (line : Text) :
    (∀ (name : Text) (position position' : Nat) (signature signature' : Signature)
      (strategy strategy' : Strategy),
      Registry.known[position]? = some signature → Registry.known[position']? = some signature' →
      signature.acceptsName strategy false Settings.defaultPattern name = .ok true →
      signature'.acceptsName strategy' false Settings.defaultPattern name = .ok true →
      position = position' ∧ strategy = strategy') ∧
    let detector := (start settings Registry.known expander).run calls
    ∃ answer, (detector.detect line).result = .ok answer ∧
      (Detection.scan Registry.known detector.settings.effectivePattern
        detector.settings.matchBackslash expander line).result = .ok answer := by
  refine ⟨fun name position position' signature signature' strategy strategy' hplace hplace' h h' =>
    Registry.known_unambiguous hplace hplace' h h', ?_⟩
  intro detector
  have htraced : detector.Traced Usual Registry.known expander :=
    traced_run ⟨hpattern, hbackslash⟩ fun call hcall _ husual => usual_call (hcalls call hcall) husual
  obtain ⟨answer, hanswer⟩ := exists_scan_eq_ok line htraced.registry_eq htraced.settings
  have hscan : (Detection.scan Registry.known detector.settings.effectivePattern
      detector.settings.matchBackslash expander line).result = .ok answer := by
    rw [htraced.scan_eq] at hanswer
    exact hanswer
  refine ⟨answer, ?_, hscan⟩
  rcases detect_cases detector line with ⟨probe, error, hlast, hprobe, -⟩ |
    ⟨probe, fast, hlast, hprobe, -⟩ | ⟨hmisses, -⟩
  · exact absurd hprobe (Probe.outcome?_ne_error (faultless_of_last htraced hlast) line error)
  · rw [result_of_accepted hlast hprobe, ← scan_of_last htraced hlast hprobe]
    exact hanswer
  · rw [result_of_misses hmisses]
    exact hanswer

/-- Versions are looked for, then not, and then again. -/
theorem known_transparent_toggled :
    let settings : Settings := ⟨true, Settings.defaultPattern, false⟩
    let calls : List Call := [.detect "arm-none-eabi-gcc-12.exe -c a.c".toList,
      .assign Settings.enabledField (.bool false), .detect "gcc-12 -c b.c".toList, .reset,
      .assign Settings.enabledField (.string "on".toList), .detect "clang-14 -c c.c".toList]
    let line := "clang-13 -c d.c".toList
    (settings.versionPattern = Settings.defaultPattern ∧ settings.matchBackslash = false ∧
      ∀ call ∈ calls, call.onlyToggles = true) ∧
    let detector := (start settings Registry.known none).run calls
    ∃ answer, (detector.detect line).result = .ok answer ∧
      (Detection.scan Registry.known detector.settings.effectivePattern
        detector.settings.matchBackslash none line).result = .ok answer := by
  intro settings calls line
  have hcalls : ∀ call ∈ calls, call.onlyToggles = true := by
    simp [calls, Call.onlyToggles]
  obtain ⟨-, hanswer⟩ := known_transparent settings none rfl rfl calls hcalls line
  exact ⟨⟨rfl, rfl, hcalls⟩, hanswer⟩

end Detector
end BuildLog
