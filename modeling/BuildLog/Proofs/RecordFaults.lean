import BuildLog.Proofs.ChangedSettings
import BuildLog.Proofs.CheckedSettings
import BuildLog.Proofs.ExactNames
import BuildLog.Proofs.JoinedPatterns
import BuildLog.Proofs.KnownTools
import BuildLog.Proofs.RecordResults
import BuildLog.Proofs.ShownValues
import BuildLog.Registry

/-!
# Records that bring out a fault

Problems with a record are results. But a pattern of versions that was checked on its own may turn out to
have a fault where it is joined with a name, and a value that is no record may be such that it cannot be
shown in the message about it. Then there is no result at all.

* `Probe.faultless_iff`: when a probe for versions has no fault;
* `Detector.MeetsFault`: a line brings out a fault, by the remembered probe or by a scan;
* `CompileCommand.IsUntellable`: a value is no record, and it or its place cannot be shown;
* `Detector.process_fault_iff`: which values have no result, for which settings only these have none that
  cannot be told, and that these are all such settings where the tools are the known ones.
-/

namespace BuildLog

/-- In a run, the pattern of versions stays one that passes the check. -/
theorem Detector.allowedPattern_call {settings : Settings} (call : Call)
    (h : Settings.AllowedPattern settings.versionPattern) :
    Settings.AllowedPattern (call.settings settings).versionPattern := by
  cases call with
  | detect line => exact h
  | reset => exact h
  | assign field value =>
    exact Settings.pattern_of_attempt (fun _ _ => Settings.allowedPattern_of_patternOf) h field value

/-! ## Faults of probes -/

namespace Probe

variable {probe : Probe} {version : Text}

/-- A probe that a tool is not named by, or that looks for versions without a pattern for them, has no
fault. -/
theorem faultless_of_idle
    (h : (!probe.signature.supports probe.strategy ||
      (probe.strategy.usesVersion && version.isEmpty)) = true) : probe.Faultless version := by
  intro command
  exact ⟨false, by rw [accepts, Signature.accepts, if_pos h]⟩

/-- Any other probe has no fault if its joined pattern is in order. -/
theorem faultless_iff_source
    (h : (!probe.signature.supports probe.strategy ||
      (probe.strategy.usesVersion && version.isEmpty)) = false) :
    probe.Faultless version ↔
      ∃ pattern, Pattern.ofText (probe.signature.source probe.strategy version) = .ok pattern := by
  have haccepts (command : Text) : probe.accepts version command =
      (Pattern.ofText (probe.signature.source probe.strategy version)).map fun pattern =>
        pattern.matchesAll probe.style.ignoresCase (Path.name probe.style command) := by
    rw [accepts, Signature.accepts, h]
    rfl
  cases hsource : Pattern.ofText (probe.signature.source probe.strategy version) with
  | error error => simp [Faultless, haccepts, hsource, Except.map]
  | ok pattern => simp [Faultless, haccepts, hsource, Except.map]

end Probe

/-- A pattern of versions means the same behind the name of a tool: no flags of the name change how it is
read, and no groups are mixed up. -/
structure Signature.Suits (signature : Signature) (version : Text) : Prop where
  reading : ¬ Pattern.ChangesReading (nameSource signature.isPattern signature.name)
  groups : Pattern.KeepsGroups (nameSource signature.isPattern signature.name) version

namespace Probe

variable {probe : Probe} {version : Text}

/-- A probe that looks for versions has no fault exactly if their pattern has no flags for the whole. -/
theorem faultless_iff (hallowed : Settings.AllowedPattern version)
    (hsuits : probe.signature.Suits version)
    (hsupports : probe.signature.supports probe.strategy = true)
    (huses : probe.strategy.usesVersion = true) :
    probe.Faultless version ↔ ¬ Pattern.SetsFlags version := by
  have hactive : (!probe.signature.supports probe.strategy ||
      (probe.strategy.usesVersion && version.isEmpty)) = false := by
    simp [hsupports, hallowed.ne_nil]
  have hsource : probe.signature.source probe.strategy version =
      namePattern (nameSource probe.signature.isPattern probe.signature.name) version
        (if probe.strategy.usesExtension then probe.signature.extension.getD [] else []) := by
    rw [Signature.source, if_pos huses]
  rw [faultless_iff_source hactive, hsource]
  exact Pattern.exists_ofText_namePattern_iff _ probe.signature.exists_ofText_name hallowed.inOrder
    hallowed.ne_nil hsuits.reading hsuits.groups

/-- Without flags for the whole, no probe has a fault, whether it looks for versions or not. -/
theorem faultless_of_not_setsFlags (hallowed : Settings.AllowedPattern version)
    (hsuits : probe.signature.Suits version) (hflags : ¬ Pattern.SetsFlags version) :
    probe.Faultless version := by
  cases huses : probe.strategy.usesVersion with
  | false => exact faultless_of_not_usesVersion huses
  | true =>
    cases hsupports : probe.signature.supports probe.strategy with
    | false => exact faultless_of_idle (by simp [hsupports])
    | true => exact (faultless_iff hallowed hsuits hsupports huses).2 hflags

end Probe

/-! ## Faults of lines -/

namespace Detector

variable {detector : Detector} {line : Text}

/-- A line meets a fault: the pattern of versions, as it is now, does not go with the remembered probe,
or that probe refuses the line and there is a fault ahead of the scan. -/
def MeetsFault (detector : Detector) (line : Text) : Prop :=
  (∃ probe, detector.last = some probe ∧ ¬ probe.Faultless detector.settings.effectivePattern) ∨
    detector.Misses line ∧ detector.FaultAhead line

/-- A line without a command brings out no fault. -/
theorem exists_command_of_fault {error : PatternError}
    (h : (detector.detect line).result = .error error) :
    ∃ invocation, Invocation.ofLine? line = some invocation := by
  cases hline : Invocation.ofLine? line with
  | some invocation => exact ⟨invocation, rfl⟩
  | none =>
    have hmisses : detector.Misses line := fun probe _ => Probe.outcome?_of_no_command hline
    rw [result_of_misses hmisses, scan, Detection.scan_of_no_command hline] at h
    cases h

/-- A line with a command brings out a fault exactly if it meets one. -/
theorem exists_detect_eq_error_iff {invocation : Invocation}
    (hline : Invocation.ofLine? line = some invocation) :
    (∃ error, (detector.detect line).result = .error error) ↔ detector.MeetsFault line := by
  rcases detect_cases detector line with ⟨probe, error, hlast, hprobe, heq⟩ |
    ⟨probe, outcome, hlast, hprobe, heq⟩ | ⟨hmisses, -⟩
  · have hfaulty : ¬ probe.Faultless detector.settings.effectivePattern := fun h =>
      Probe.outcome?_ne_error h line error hprobe
    exact iff_of_true ⟨error, by rw [heq]⟩ (.inl ⟨probe, hlast, hfaulty⟩)
  · refine iff_of_false ?_ ?_
    · rintro ⟨error, herror⟩
      rw [heq] at herror
      cases herror
    · rintro (⟨other, hother, hfaulty⟩ | ⟨hmisses, -⟩)
      · cases hlast.symm.trans hother
        exact hfaulty (Probe.faultless_of_accepts (Probe.outcome?_eq_some_iff.1 hprobe).2.2)
      · rw [hmisses probe hlast] at hprobe
        cases hprobe
  · rw [result_of_misses hmisses, exists_scan_eq_error_iff hline]
    refine ⟨fun hahead => .inr ⟨hmisses, hahead⟩, ?_⟩
    rintro (⟨probe, hlast, hfaulty⟩ | ⟨-, hahead⟩)
    · exact absurd (Probe.faultless_of_accepts
        ((Probe.outcome?_eq_none_iff hline).1 (hmisses probe hlast))) hfaulty
    · exact hahead

/-! ## Patterns that go with a registry -/

end Detector

/-- Versions are not looked for, or the pattern of versions goes with all names of a registry: it has no flags
for the whole, and it means the same behind each name. -/
def Settings.GoWith (settings : Settings) (registry : Registry) : Prop :=
  settings.versionEnabled = false ∨ ¬ Pattern.SetsFlags settings.versionPattern ∧
    ∀ signature ∈ registry, signature.Suits settings.versionPattern

/-- Then no probe of the registry has a fault. -/
theorem Settings.GoWith.faultless {settings : Settings} {registry : Registry} {probe : Probe}
    (h : settings.GoWith registry) (hallowed : AllowedPattern settings.versionPattern)
    (hprobe : registry[probe.position]? = some probe.signature) :
    probe.Faultless settings.effectivePattern := by
  unfold effectivePattern
  split
  · rename_i henabled
    obtain ⟨hflags, hsuits⟩ := h.resolve_left (by simp [henabled])
    exact Probe.faultless_of_not_setsFlags hallowed (hsuits _ (List.mem_of_getElem? hprobe)) hflags
  · cases huses : probe.strategy.usesVersion with
    | false => exact Probe.faultless_of_not_usesVersion huses
    | true => exact Probe.faultless_of_idle (by simp [huses])

/-! ## The known tools -/

namespace Registry

/-- The names of the known tools have neither groups nor flags. -/
theorem known_plain : ∀ signature ∈ known,
    ¬ Pattern.ChangesReading (nameSource signature.isPattern signature.name) ∧
      ¬ Pattern.Captures (nameSource signature.isPattern signature.name) := by
  decide +kernel

/-- So every pattern of versions means the same behind them. -/
theorem known_suits (version : Text) : ∀ signature ∈ known, signature.Suits version := by
  intro signature hknown
  obtain ⟨hreading, hcaptures⟩ := known_plain signature hknown
  exact ⟨hreading, .inl hcaptures⟩

/-- A command that is no compiler. -/
def noCompiler : Text := "make".toList

theorem ofLine?_noCompiler : Invocation.ofLine? noCompiler = some ⟨noCompiler, []⟩ := rfl

theorem known_refuse_noCompiler : ∀ signature ∈ known, ∀ strategy ∈ Strategy.all,
    ∀ style ∈ [PathStyle.posix, PathStyle.windows], strategy.usesVersion = false →
      signature.accepts strategy style [] noCompiler = .ok false := by
  decide +kernel

end Registry

/-- What comes before names with a version are exact names. -/
theorem Strategy.not_usesVersion_of_rank_lt {strategy : Strategy}
    (h : strategy.rank < Strategy.withVersion.rank) : strategy.usesVersion = false := by
  cases strategy <;> simp_all [rank, usesVersion]

namespace Probe

variable {probe : Probe} {version : Text}

/-- The exact names of the known tools refuse a command that is no compiler. -/
theorem outcome?_noCompiler (hknown : probe.signature ∈ Registry.known)
    (hexact : probe.strategy.usesVersion = false) :
    probe.outcome? version Registry.noCompiler = .ok none := by
  rw [outcome?_eq_none_iff Registry.ofLine?_noCompiler, accepts,
    probe.signature.accepts_of_not_usesVersion hexact _ _ []]
  refine Registry.known_refuse_noCompiler _ hknown _ probe.strategy.mem_all _ ?_ hexact
  cases probe.style <;> simp

/-- Flags for the whole are a fault in each probe for the known tools that looks for a version. -/
theorem not_faultless_of_setsFlags (hallowed : Settings.AllowedPattern version)
    (hflags : Pattern.SetsFlags version) (hknown : probe.signature ∈ Registry.known)
    (hsupports : probe.signature.supports probe.strategy = true)
    (huses : probe.strategy.usesVersion = true) : ¬ probe.Faultless version := by
  rw [faultless_iff hallowed (Registry.known_suits version _ hknown) hsupports huses]
  exact not_not_intro hflags

end Probe

/-! ## Values that are no records -/

namespace CompileCommand

/-- A value is no record, and what is wrong with it cannot be told: a number in it is too long or its
lists are nested too deep, where it is shown because it has no names, or the number of its place is too
long. -/
def IsUntellable (room : Nat) (value : Json) (index : Option Int) : Prop :=
  (∃ error, validate value = .error error) ∧
    ((∀ members, value ≠ .object members) ∧ (value.hasLongNumber = true ∨ room < value.levels) ∨
      ∃ place, index = some place ∧ 10 ^ Text.digitLimit ≤ place.natAbs)

/-- Only values without names are shown. -/
theorem exists_message_eq_ok_iff {room : Nat} {value : Json} {error : StructuralError}
    (h : validate value = .error error) :
    (∃ message, error.message room = .ok message) ↔
      ¬ ((∀ members, value ≠ .object members) ∧
        (value.hasLongNumber = true ∨ room < value.levels)) := by
  by_cases hobject : ∃ members, value = .object members
  · obtain ⟨members, rfl⟩ := hobject
    obtain ⟨errors, rfl⟩ : ∃ errors, error = .missingField errors := by
      change (ofMembers members).mapError StructuralError.missingField = .error error at h
      cases hmembers : ofMembers members with
      | ok record =>
        rw [hmembers] at h
        cases h
      | error errors =>
        rw [hmembers] at h
        cases h
        exact ⟨errors, rfl⟩
    exact iff_of_true ⟨_, rfl⟩ fun hnone => hnone.1 members rfl
  · have hnone : ∀ members, value ≠ .object members := fun members heq => hobject ⟨members, heq⟩
    have hunexpected : error = .unexpectedEntry value := by
      cases value with
      | object members => exact absurd rfl (hnone members)
      | _ =>
        cases h
        rfl
    have hshown : (∃ message, error.message room = .ok message) ↔
        ∃ text, value.display room = .ok text := by
      rw [hunexpected, StructuralError.message]
      cases value.display room <;> simp [Except.map]
    rw [hshown, Json.exists_display_iff, not_and_or, not_or, Bool.not_eq_true, Nat.not_lt]
    simp only [hnone, implies_true, not_true_eq_false, false_or, ne_eq, not_false_eq_true]

theorem exists_placeText_eq_ok_iff {index : Option Int} :
    (∃ text, placeText index = .ok text) ↔
      ¬ ∃ place, index = some place ∧ 10 ^ Text.digitLimit ≤ place.natAbs := by
  cases index with
  | none => exact iff_of_true ⟨_, rfl⟩ (by rintro ⟨_, ⟨⟩, -⟩)
  | some place => simp [placeText, Json.exists_displayInt_iff]

/-- A value that is no record has no problem that can be told exactly if it is untellable. -/
theorem exists_diagnostic_eq_error_iff {room : Nat} {value : Json} {index : Option Int} :
    (∃ error fault, validate value = .error error ∧ error.diagnostic room index = .error fault) ↔
      IsUntellable room value index := by
  have hfault {error : StructuralError} (h : validate value = .error error) :
      (∃ fault, error.diagnostic room index = .error fault) ↔
        ((∀ members, value ≠ .object members) ∧ (value.hasLongNumber = true ∨ room < value.levels)) ∨
          ∃ place, index = some place ∧ 10 ^ Text.digitLimit ≤ place.natAbs := by
    rw [← not_iff_not, not_or, ← exists_message_eq_ok_iff h, ← exists_placeText_eq_ok_iff]
    cases hdiagnostic : error.diagnostic room index with
    | error fault =>
      refine iff_of_false (by simp) ?_
      rintro ⟨⟨message, hmessage⟩, place, hplace⟩
      cases hdiagnostic.symm.trans
        (StructuralError.diagnostic_eq_ok_iff.2 ⟨message, place, hmessage, hplace, rfl⟩)
    | ok diagnostic =>
      obtain ⟨message, place, hmessage, hplace, -⟩ := StructuralError.diagnostic_eq_ok_iff.1 hdiagnostic
      exact iff_of_true (by simp) ⟨⟨message, hmessage⟩, place, hplace⟩
  constructor
  · rintro ⟨error, fault, herror, hdiagnostic⟩
    exact ⟨⟨error, herror⟩, (hfault herror).1 ⟨fault, hdiagnostic⟩⟩
  · rintro ⟨⟨error, herror⟩, hunshown⟩
    obtain ⟨fault, hdiagnostic⟩ := (hfault herror).2 hunshown
    exact ⟨error, fault, herror, hdiagnostic⟩

end CompileCommand

/-! ## Records -/

namespace Detector

variable {detector : Detector} {line : Text}

/-- No line meets a fault where the pattern of versions goes with the registry. -/
theorem not_meetsFault_of_goWith (hallowed : Settings.AllowedPattern detector.settings.versionPattern)
    (hlast : ∀ probe, detector.last = some probe → probe.BelongsTo detector.registry)
    (h : detector.settings.GoWith detector.registry) : ¬ detector.MeetsFault line := by
  rintro (⟨probe, hprobe, hfaulty⟩ | ⟨-, probe, hmem, -, hfaulty, -⟩)
  · exact hfaulty (h.faultless hallowed (hlast probe hprobe).placed)
  · exact hfaulty (h.faultless hallowed (Detection.mem_order_iff.1 hmem).1)

/-- With flags for the whole, a scan for a command that is no compiler meets a fault: all exact names
refuse the command, and the first probe that looks for a version is at fault. -/
theorem faultAhead_noCompiler (hregistry : detector.registry = .known)
    (hallowed : Settings.AllowedPattern detector.settings.effectivePattern)
    (hflags : Pattern.SetsFlags detector.settings.effectivePattern) :
    detector.FaultAhead Registry.noCompiler := by
  let first : Probe := ⟨0, Registry.portable "cc" .gnuC, .withVersion, .posix⟩
  have hplaced : Registry.known[first.position]? = some first.signature := rfl
  have hmem : first ∈ Detection.order detector.registry detector.settings.effectivePattern
      detector.settings.matchBackslash := by
    refine Detection.mem_order_iff.2 ⟨hregistry ▸ hplaced, fun _ => hallowed.ne_nil, ?_⟩
    intro hwindows
    cases hwindows
  refine ⟨first, hmem, rfl,
    Probe.not_faultless_of_setsFlags hallowed hflags (List.mem_of_getElem? hplaced) rfl rfl, ?_⟩
  intro other hother hprecedes
  have hknown := List.mem_of_getElem? (hregistry ▸ (Detection.mem_order_iff.1 hother).1)
  refine Probe.outcome?_noCompiler hknown ?_
  rcases hprecedes with hstyle | ⟨-, hstrategy | ⟨-, hposition⟩⟩
  · exact absurd hstyle (Nat.not_lt_zero _)
  · exact Strategy.not_usesVersion_of_rank_lt hstrategy
  · exact absurd hposition (Nat.not_lt_zero _)

/-- With flags for the whole, a command that is no compiler meets a fault among the known tools, whatever
is remembered. -/
theorem meetsFault_noCompiler (hregistry : detector.registry = .known)
    (hallowed : Settings.AllowedPattern detector.settings.effectivePattern)
    (hflags : Pattern.SetsFlags detector.settings.effectivePattern)
    (hlast : ∀ probe, detector.last = some probe → probe.BelongsTo .known) :
    detector.MeetsFault Registry.noCompiler := by
  have hahead := faultAhead_noCompiler hregistry hallowed hflags
  by_cases hfaulty : ∃ probe, detector.last = some probe ∧
      ¬ probe.Faultless detector.settings.effectivePattern
  · exact .inl hfaulty
  · refine .inr ⟨fun probe hprobe => ?_, hahead⟩
    obtain ⟨hplaced, hsupports, -⟩ := hlast probe hprobe
    have hknown := List.mem_of_getElem? hplaced
    refine Probe.outcome?_noCompiler hknown ?_
    rw [← Bool.not_eq_true]
    exact fun huses => hfaulty
      ⟨probe, hprobe, Probe.not_faultless_of_setsFlags hallowed hflags hknown hsupports huses⟩

/-- A value has no result exactly if it is a record with a command that meets a fault, or what is wrong
with it cannot be told. -/
theorem exists_process_eq_error_iff {room : Nat} {value : Json} {index : Option Int} {parsing : Bool} :
    (∃ error, (detector.process room value index parsing).result = .error error) ↔
      (∃ record invocation, CompileCommand.validate value = .ok record ∧
        Invocation.ofLine? record.command = some invocation ∧
        detector.MeetsFault record.command) ∨
      CompileCommand.IsUntellable room value index := by
  rw [← CompileCommand.exists_diagnostic_eq_error_iff]
  constructor
  · rintro ⟨error | fault, herror⟩
    · obtain ⟨record, hvalue, hdetected⟩ := process_eq_badPattern_iff.1 herror
      obtain ⟨invocation, hline⟩ := exists_command_of_fault hdetected
      have hmeets := (exists_detect_eq_error_iff hline).1 ⟨error, hdetected⟩
      exact .inl ⟨record, invocation, hvalue, hline, hmeets⟩
    · obtain ⟨error, hvalue, hdiagnostic⟩ := process_eq_unshown_iff.1 herror
      exact .inr ⟨error, fault, hvalue, hdiagnostic⟩
  · rintro (⟨record, invocation, hvalue, hline, hmeets⟩ | ⟨error, fault, hvalue, hdiagnostic⟩)
    · obtain ⟨error, hdetected⟩ := (exists_detect_eq_error_iff hline).2 hmeets
      exact ⟨_, process_eq_badPattern_iff.2 ⟨record, hvalue, hdetected⟩⟩
    · exact ⟨_, process_eq_unshown_iff.2 ⟨error, hvalue, hdiagnostic⟩⟩

/-- If no line meets a fault, all values have a result but those of which it cannot be told what is wrong. -/
theorem exists_process_eq_ok (h : ∀ line, ¬ detector.MeetsFault line) {room : Nat} {value : Json}
    {index : Option Int} (htold : ¬ CompileCommand.IsUntellable room value index) (parsing : Bool) :
    ∃ result, (detector.process room value index parsing).result = .ok result := by
  cases hresult : (detector.process room value index parsing).result with
  | ok result => exact ⟨result, rfl⟩
  | error error =>
    obtain ⟨record, _, -, -, hmeets⟩ | huntellable := exists_process_eq_error_iff.1 ⟨error, hresult⟩
    · exact absurd hmeets (h record.command)
    · exact absurd huntellable htold

/-- A record of a command that is no compiler. -/
def noCompilerRecord : Json :=
  .object [("file".toList, .string "a.c".toList), ("command".toList, .string Registry.noCompiler),
    ("directory".toList, .string "/b".toList)]

theorem validate_noCompilerRecord : CompileCommand.validate noCompilerRecord =
    .ok ⟨"a.c".toList, Registry.noCompiler, "/b".toList⟩ := rfl

/-- Among the known tools, a pattern of versions with flags for the whole leaves some record without a
result, whatever is remembered. -/
theorem exists_process_noCompilerRecord_eq_error (hregistry : detector.registry = .known)
    (hallowed : Settings.AllowedPattern detector.settings.versionPattern)
    (hlast : ∀ probe, detector.last = some probe → probe.BelongsTo .known)
    (henabled : detector.settings.versionEnabled = true)
    (hflags : Pattern.SetsFlags detector.settings.versionPattern) (room : Nat) (index : Option Int)
    (parsing : Bool) :
    ∃ error, (detector.process room noCompilerRecord index parsing).result = .error error := by
  have hversion : detector.settings.versionPattern = detector.settings.effectivePattern := by
    rw [Settings.effectivePattern, if_pos henabled]
  rw [hversion] at hallowed hflags
  have hmeets : detector.MeetsFault Registry.noCompiler :=
    meetsFault_noCompiler hregistry hallowed hflags hlast
  exact exists_process_eq_error_iff.2
    (.inl ⟨_, _, validate_noCompilerRecord, Registry.ofLine?_noCompiler, hmeets⟩)

theorem not_isUntellable_noCompilerRecord (room : Nat) (index : Option Int) :
    ¬ CompileCommand.IsUntellable room noCompilerRecord index := by
  rintro ⟨⟨error, herror⟩, -⟩
  cases validate_noCompilerRecord.symm.trans herror

/-- **When a value has no result.** In every run of a detector with settings that have passed the checks,
and values lead to no other states than such runs do, a value has no result exactly if it is a record with
a command that meets a fault, or if it is untellable. A command meets a fault if the pattern of versions
does not go with the remembered probe, or with one that a scan reaches. Only untellable values have no
result if the pattern goes with all names of the registry. Among the known tools this is so exactly if
versions are not looked for, or their pattern has no flags for the whole. -/
theorem process_fault_iff (members : List (Text × Json)) (settings : Settings)
    (hsettings : Settings.ofMembers members = .ok settings) (registry : Registry)
    (expander : Option Expander) (calls : List Call) (room : Nat) :
    let detector := (start settings registry expander).run calls
    (∀ value index parsing, ∃ further,
      (detector.process room value index parsing).detector =
        (start settings registry expander).run further) ∧
    (∀ value index parsing,
      (∃ error, (detector.process room value index parsing).result = .error error) ↔
        (∃ record invocation, CompileCommand.validate value = .ok record ∧
          Invocation.ofLine? record.command = some invocation ∧
          detector.MeetsFault record.command) ∨
        CompileCommand.IsUntellable room value index) ∧
    (detector.settings.GoWith registry → ∀ value index parsing,
      ¬ CompileCommand.IsUntellable room value index →
        ∃ result, (detector.process room value index parsing).result = .ok result) ∧
    (registry = .known →
      ((∀ value index parsing, ¬ CompileCommand.IsUntellable room value index →
          ∃ result, (detector.process room value index parsing).result = .ok result) ↔
        detector.settings.versionEnabled = false ∨
          ¬ Pattern.SetsFlags detector.settings.versionPattern)) := by
  intro detector
  have htraced : detector.Traced (fun settings => Settings.AllowedPattern settings.versionPattern)
      registry expander :=
    traced_run (Settings.allowedPattern_of_ofMembers hsettings) fun call _ _ => allowedPattern_call call
  have hallowed : Settings.AllowedPattern detector.settings.versionPattern := htraced.settings
  have hlast : ∀ probe, detector.last = some probe → probe.BelongsTo registry :=
    fun _ => belongsTo_of_last
  have hresults (h : detector.settings.GoWith registry) (value : Json) (index : Option Int)
      (parsing : Bool) (htold : ¬ CompileCommand.IsUntellable room value index) :
      ∃ result, (detector.process room value index parsing).result = .ok result :=
    exists_process_eq_ok (fun line => not_meetsFault_of_goWith hallowed
      (htraced.registry_eq.symm ▸ hlast) (htraced.registry_eq.symm ▸ h)) htold parsing
  refine ⟨?_, fun _ _ _ => exists_process_eq_error_iff, hresults, ?_⟩
  · intro value index parsing
    obtain ⟨more, hmore⟩ := exists_run_of_process detector room value index parsing
    exact ⟨calls ++ more, by rw [hmore, run, run, List.foldl_append]; rfl⟩
  rintro rfl
  constructor
  · intro hall
    by_contra hneither
    simp only [not_or, Bool.not_eq_false, not_not] at hneither
    obtain ⟨henabled, hflags⟩ := hneither
    obtain ⟨error, herror⟩ := exists_process_noCompilerRecord_eq_error htraced.registry_eq hallowed
      hlast henabled hflags room none true
    obtain ⟨result, hresult⟩ := hall noCompilerRecord none true (not_isUntellable_noCompilerRecord _ _)
    rw [herror] at hresult
    cases hresult
  · intro hpattern
    exact hresults (hpattern.imp_right fun hflags => ⟨hflags, Registry.known_suits _⟩)

/-- Flags for the whole do no harm while versions are not looked for. As soon as they are, some record
has no result, although a known tool is remembered. -/
theorem process_fault_toggled :
    let members := [(Settings.enabledField, .string "on".toList),
      (Settings.patternField, .string "(?i)x".toList)]
    let settings : Settings := ⟨true, "(?i)x".toList, false⟩
    let calls : List Call := [.detect "gcc -c a.c".toList]
    let off : Call := .assign Settings.enabledField (.bool false)
    let AllHaveResults (calls : List Call) : Prop := ∀ value index parsing,
      ¬ CompileCommand.IsUntellable 0 value index →
        ∃ result, (((start settings .known none).run calls).process 0 value index parsing).result =
          .ok result
    Settings.ofMembers members = .ok settings ∧ ¬ AllHaveResults calls ∧
      AllHaveResults (calls ++ [off]) := by
  intro members settings calls off AllHaveResults
  have hsettings : Settings.ofMembers members = .ok settings := by decide +kernel
  obtain ⟨-, -, -, hon⟩ := process_fault_iff members settings hsettings .known none calls 0
  obtain ⟨-, -, -, hoff⟩ := process_fault_iff members settings hsettings .known none (calls ++ [off]) 0
  refine ⟨hsettings, ?_, (hoff rfl).2 (.inl rfl)⟩
  intro hall
  have hpattern := (hon rfl).1 hall
  revert hpattern
  decide +kernel

/-- A pattern that passes the check has flags for the whole, which are too late behind a name. The very
first record has no result. -/
theorem no_result_behind_late_flag :
    let members := [(Settings.enabledField, .bool true),
      (Settings.patternField, .string "(?i)x".toList)]
    let value : Json := .object [("file".toList, .string "a.c".toList),
      ("command".toList, .string "foo -c a.c".toList), ("directory".toList, .string "/b".toList)]
    ∃ settings, Settings.ofMembers members = .ok settings ∧
      ((start settings .known none).process 0 value none true).result =
        .error (.badPattern ⟨.lateFlags, 5, "cc(?:(?i)x)".toList⟩) :=
  ⟨⟨true, "(?i)x".toList, false⟩, by decide +kernel, rfl⟩

end Detector
end BuildLog
