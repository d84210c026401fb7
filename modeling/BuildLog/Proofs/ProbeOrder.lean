import BuildLog.Detection
import Mathlib.Data.List.Basic

/-!
# The order of probes

A scan stops at the first probe that accepts a command, so the tool of a line is decided by the order
of the probes.

* `Probe.Faultless`: whether a pattern has a fault does not depend on the command, so this is a
  property of the probe alone;
* `Probe.Precedes`: plain slashes come before backslashes, then the conventions count, and then the
  places in the registry;
* `Detection.order`: the probes that see the command of a line as it is written. `order_pairwise`: they
  stand in the order of `Precedes`, and `mem_order_iff` tells which they are.
-/

namespace BuildLog

/-! ## Single probes -/

/-- The patterns of a name without a version are in order, since they belong to a signature. -/
theorem Signature.exists_pattern (signature : Signature) (version : Text) {strategy : Strategy}
    (h : strategy.usesVersion = false) :
    ∃ pattern, Pattern.ofText (signature.source strategy version) = .ok pattern := by
  have hpatterns := signature.patterns
  unfold namePatternError? at hpatterns
  split at hpatterns
  · cases hpatterns
  · rename_i plain hplain
    split at hpatterns
    · cases hpatterns
    · rename_i extended hextended
      cases strategy with
      | basename => exact ⟨plain, hplain⟩
      | withExtension => exact ⟨extended, hextended⟩
      | withVersion => cases h
      | withVersionAndExtension => cases h

/-- The pattern of a name is in order on its own. -/
theorem Signature.exists_ofText_name (signature : Signature) :
    ∃ pattern, Pattern.ofText (nameSource signature.isPattern signature.name) = .ok pattern := by
  have h := signature.exists_pattern [] (h := (rfl : Strategy.basename.usesVersion = false))
  simpa [source, namePattern, Strategy.usesVersion, Strategy.usesExtension] using h

/-- Whether a name is that of a tool under a convention, where the case of letters counts or not. -/
def Signature.acceptsName (signature : Signature) (strategy : Strategy) (ignoreCase : Bool)
    (version name : Text) : Except PatternError Bool :=
  if !signature.supports strategy || (strategy.usesVersion && version.isEmpty) then .ok false
  else
    (Pattern.ofText (signature.source strategy version)).map fun pattern =>
      pattern.matchesAll ignoreCase name

/-- Of a command, only its name counts. -/
theorem Signature.accepts_eq_acceptsName (signature : Signature) (strategy : Strategy)
    (style : PathStyle) (version command : Text) :
    signature.accepts strategy style version command =
      signature.acceptsName strategy style.ignoresCase version (Path.name style command) := rfl

/-- Where names are looked for under a convention, their pattern decides. -/
theorem Signature.accepts_of_ofText {signature : Signature} {strategy : Strategy} {version : Text}
    {pattern : Pattern} (hsupports : signature.supports strategy = true)
    (hversion : strategy.usesVersion = true → version ≠ [])
    (hpattern : Pattern.ofText (signature.source strategy version) = .ok pattern) (style : PathStyle)
    (command : Text) :
    signature.accepts strategy style version command =
      .ok (pattern.matchesAll style.ignoresCase (Path.name style command)) := by
  have hactive : (!signature.supports strategy || (strategy.usesVersion && version.isEmpty)) = false := by
    simpa [hsupports] using hversion
  rw [accepts, hactive, hpattern]
  rfl

/-- A line is judged by its command. -/
theorem Signature.matchLine?_of_accepts {signature : Signature} {strategy : Strategy} {style : PathStyle}
    {version line : Text} {invocation : Invocation} {accepted : Bool}
    (hline : Invocation.ofLine? line = some invocation)
    (haccepts : signature.accepts strategy style version invocation.command = .ok accepted) :
    signature.matchLine? strategy style version line =
      .ok (if accepted then some invocation else none) := by
  rw [matchLine?, hline]
  show (signature.accepts strategy style version invocation.command).map _ = _
  rw [haccepts]
  rfl

namespace Probe

/-- The pattern of a probe is in order: no command brings out a fault. -/
def Faultless (version : Text) (probe : Probe) : Prop :=
  ∀ command, ∃ accepted, probe.accepts version command = .ok accepted

variable {probe : Probe} {version command line : Text}

/-- Whether the pattern of a probe has a fault does not depend on the command. -/
theorem accepts_eq_error_of {error : PatternError} (h : probe.accepts version command = .error error)
    (other : Text) : probe.accepts version other = .error error := by
  unfold accepts Signature.accepts at h ⊢
  split at h
  · cases h
  · rename_i hactive
    rw [if_neg hactive]
    cases hpattern : Pattern.ofText (probe.signature.source probe.strategy version) with
    | error fault =>
      rw [hpattern] at h
      exact h
    | ok pattern =>
      rw [hpattern] at h
      cases h

/-- A probe that has answered once always will. -/
theorem faultless_of_accepts {accepted : Bool} (h : probe.accepts version command = .ok accepted) :
    probe.Faultless version := by
  intro other
  cases hother : probe.accepts version other with
  | ok answer => exact ⟨answer, rfl⟩
  | error fault =>
    rw [accepts_eq_error_of hother command] at h
    cases h

theorem accepts_ne_error (h : probe.Faultless version) (command : Text) (error : PatternError) :
    probe.accepts version command ≠ .error error := by
  intro herror
  obtain ⟨accepted, haccepted⟩ := h command
  rw [herror] at haccepted
  cases haccepted

/-- A fault of a probe stands in the way of every command. -/
theorem exists_error_of_not_faultless (h : ¬ probe.Faultless version) (command : Text) :
    ∃ error, probe.accepts version command = .error error := by
  cases haccepts : probe.accepts version command with
  | error fault => exact ⟨fault, rfl⟩
  | ok accepted => exact absurd (faultless_of_accepts haccepts) h

/-- Without a pattern for versions, no name with a version is accepted. -/
theorem version_ne_nil_of_accepts (h : probe.accepts version command = .ok true)
    (huses : probe.strategy.usesVersion = true) : version ≠ [] := by
  rintro rfl
  simp [accepts, Signature.accepts, huses] at h

/-- Without a version in the name there is no fault: these patterns were checked with the signature. -/
theorem faultless_of_not_usesVersion (h : probe.strategy.usesVersion = false) :
    probe.Faultless version := by
  obtain ⟨pattern, hpattern⟩ := probe.signature.exists_pattern version h
  intro command
  unfold accepts Signature.accepts
  split
  · exact ⟨false, rfl⟩
  · rw [hpattern]
    exact ⟨_, rfl⟩

/-- A line without a command is no concern of any probe. -/
theorem outcome?_of_no_command (h : Invocation.ofLine? line = none) :
    probe.outcome? version line = .ok none := by
  unfold outcome? Signature.matchLine?
  rw [h]
  rfl

/-- A probe judges a line by its command. -/
theorem outcome?_of_command {invocation : Invocation}
    (h : Invocation.ofLine? line = some invocation) :
    probe.outcome? version line = (probe.accepts version invocation.command).map fun accepted =>
      if accepted then some ⟨probe, invocation⟩ else none := by
  unfold outcome? Signature.matchLine? accepts
  rw [h]
  dsimp only
  cases probe.signature.accepts probe.strategy probe.style version invocation.command with
  | error fault => rfl
  | ok accepted => cases accepted <;> rfl

theorem outcome?_eq_error_iff {error : PatternError} :
    probe.outcome? version line = .error error ↔
      ∃ invocation, Invocation.ofLine? line = some invocation ∧
        probe.accepts version invocation.command = .error error := by
  cases hline : Invocation.ofLine? line with
  | none => simp [outcome?_of_no_command hline]
  | some invocation =>
    rw [outcome?_of_command hline]
    cases haccepts : probe.accepts version invocation.command with
    | error fault => simp [Except.map, haccepts]
    | ok accepted => simp [Except.map, haccepts]

/-- A probe without a fault has an answer to every line. -/
theorem outcome?_ne_error (h : probe.Faultless version) (line : Text) (error : PatternError) :
    probe.outcome? version line ≠ .error error := by
  intro herror
  obtain ⟨invocation, -, hfault⟩ := outcome?_eq_error_iff.1 herror
  exact accepts_ne_error h invocation.command error hfault

theorem outcome?_eq_none_iff {invocation : Invocation}
    (h : Invocation.ofLine? line = some invocation) :
    probe.outcome? version line = .ok none ↔ probe.accepts version invocation.command = .ok false := by
  rw [outcome?_of_command h]
  match haccepts : probe.accepts version invocation.command with
  | .error fault => simp [Except.map]
  | .ok false => simp [Except.map]
  | .ok true => simp [Except.map]

theorem outcome?_eq_some_iff {outcome : Outcome} :
    probe.outcome? version line = .ok (some outcome) ↔
      outcome.probe = probe ∧ Invocation.ofLine? line = some outcome.invocation ∧
        probe.accepts version outcome.invocation.command = .ok true := by
  obtain ⟨found, invocation⟩ := outcome
  cases hline : Invocation.ofLine? line with
  | none => simp [outcome?_of_no_command hline]
  | some written =>
    rw [outcome?_of_command hline]
    constructor
    · intro h
      cases haccepts : probe.accepts version written.command with
      | error fault =>
        rw [haccepts] at h
        cases h
      | ok accepted =>
        rw [haccepts] at h
        cases accepted with
        | false => cases h
        | true =>
          cases h
          exact ⟨rfl, rfl, haccepts⟩
    · rintro ⟨rfl, hwritten, haccepts⟩
      cases hwritten
      rw [haccepts]
      rfl

end Probe

/-! ## The order of probes -/

/-- The place of a style in a scan. -/
def PathStyle.rank : PathStyle → Nat
  | posix => 0
  | windows => 1

/-- The place of a convention in a pass. -/
def Strategy.rank : Strategy → Nat
  | basename => 0
  | withExtension => 1
  | withVersion => 2
  | withVersionAndExtension => 3

/-- Whether a probe comes before another one: first the style of paths counts, then the convention, and
then the place in the registry. -/
def Probe.Precedes (first second : Probe) : Prop :=
  first.style.rank < second.style.rank ∨ first.style = second.style ∧
    (first.strategy.rank < second.strategy.rank ∨ first.strategy = second.strategy ∧
      first.position < second.position)

theorem Probe.Precedes.irrefl (probe : Probe) : ¬ probe.Precedes probe := by
  simp [Probe.Precedes]

theorem Probe.Precedes.asymm {first second : Probe} (h : first.Precedes second) :
    ¬ second.Precedes first := by
  rcases h with hstyle | ⟨hstyle, hstrategy | ⟨hstrategy, hposition⟩⟩
  · rintro (h | ⟨h, -⟩)
    · omega
    · rw [h] at hstyle
      omega
  · rintro (h | ⟨-, h | ⟨h, -⟩⟩)
    · rw [hstyle] at h
      omega
    · omega
    · rw [h] at hstrategy
      omega
  · rintro (h | ⟨-, h | ⟨-, h⟩⟩)
    · rw [hstyle] at h
      omega
    · rw [hstrategy] at h
      omega
    · omega

namespace Detection

variable {registry : Registry} {version : Text} {withBackslash : Bool} {probe : Probe}

/-- The probes that see the command of a line as it is written. -/
def order (registry : Registry) (version : Text) (withBackslash : Bool) : List Probe :=
  round (placed registry) .posix version ++
    if withBackslash then round (onWindows (placed registry)) .windows version else []

theorem mem_placed_iff {entry : Nat × Signature} :
    entry ∈ placed registry ↔ registry[entry.1]? = some entry.2 := by
  obtain ⟨position, signature⟩ := entry
  simp [placed, List.mem_zipIdx_iff_getElem?]

/-- The places in a registry go up. -/
theorem placed_pairwise : (placed registry).Pairwise (·.1 < ·.1) := by
  have hplaces : (placed registry).map (·.1) = List.range registry.length := by
    rw [placed, List.map_map, List.range_eq_range']
    exact List.zipIdx_map_snd 0 registry
  rw [← List.pairwise_map (f := Prod.fst) (R := (· < ·)), hplaces]
  exact List.pairwise_lt_range

theorem mem_strategies_iff {strategy : Strategy} :
    strategy ∈ strategies version ↔ (strategy.usesVersion = true → version ≠ []) := by
  cases strategy <;> cases version <;> simp [strategies, Strategy.all, Strategy.usesVersion]

theorem strategies_pairwise : (strategies version).Pairwise (·.rank < ·.rank) := by
  refine List.Pairwise.filter _ ?_
  decide

theorem mem_round_iff {entries : List (Nat × Signature)} {style : PathStyle} :
    probe ∈ round entries style version ↔
      (probe.position, probe.signature) ∈ entries ∧ probe.strategy ∈ strategies version ∧
        probe.style = style := by
  obtain ⟨position, signature, strategy, probeStyle⟩ := probe
  simp only [round, List.mem_flatMap, List.mem_map, Prod.exists, Probe.mk.injEq]
  constructor
  · rintro ⟨_, hstrategy, _, _, hentry, rfl, rfl, rfl, rfl⟩
    exact ⟨hentry, hstrategy, rfl⟩
  · rintro ⟨hentry, hstrategy, rfl⟩
    exact ⟨strategy, hstrategy, position, signature, hentry, rfl, rfl, rfl, rfl⟩

/-- The probes of one pass stand in their order. -/
theorem round_pairwise {entries : List (Nat × Signature)} (style : PathStyle)
    (h : entries.Pairwise (·.1 < ·.1)) : (round entries style version).Pairwise Probe.Precedes := by
  rw [round, List.pairwise_flatMap]
  constructor
  · intro strategy _
    rw [List.pairwise_map]
    exact h.imp fun hposition => .inr ⟨rfl, .inr ⟨rfl, hposition⟩⟩
  · refine strategies_pairwise.imp ?_
    intro first second hrank one hone other hother
    obtain ⟨_, -, rfl⟩ := List.mem_map.1 hone
    obtain ⟨_, -, rfl⟩ := List.mem_map.1 hother
    exact .inr ⟨rfl, .inl hrank⟩

/-- The probes of a scan stand in their order. -/
theorem order_pairwise : (order registry version withBackslash).Pairwise Probe.Precedes := by
  rw [order, List.pairwise_append]
  refine ⟨round_pairwise .posix placed_pairwise, ?_, ?_⟩
  · split
    · exact round_pairwise .windows (placed_pairwise.filter _)
    · exact .nil
  · intro first hfirst second hsecond
    split at hsecond
    · have hposix := (mem_round_iff.1 hfirst).2.2
      have hwindows := (mem_round_iff.1 hsecond).2.2
      refine .inl ?_
      rw [hposix, hwindows]
      decide
    · cases hsecond

/-- Which probes belong to a scan. -/
theorem mem_order_iff :
    probe ∈ order registry version withBackslash ↔
      registry[probe.position]? = some probe.signature ∧
        (probe.strategy.usesVersion = true → version ≠ []) ∧
        (probe.style = .windows → withBackslash = true ∧ probe.signature.onWindows = true) := by
  rw [order, List.mem_append, mem_round_iff, mem_placed_iff, mem_strategies_iff]
  cases hstyle : probe.style with
  | posix =>
    have hround : ¬ probe ∈ round (onWindows (placed registry)) .windows version := by
      intro h
      rw [(mem_round_iff.1 h).2.2] at hstyle
      cases hstyle
    cases withBackslash <;> simp [hround]
  | windows =>
    cases withBackslash with
    | false => simp
    | true =>
      simp only [if_true, mem_round_iff, onWindows, List.mem_filter, mem_placed_iff,
        mem_strategies_iff, hstyle]
      simp
      tauto

/-- Where backslashes do not separate components, every probe looks for plain slashes. -/
theorem style_of_mem_order (h : probe ∈ order registry version false) : probe.style = .posix := by
  cases hstyle : probe.style with
  | posix => rfl
  | windows =>
    have hbackslash := ((mem_order_iff.1 h).2.2 hstyle).1
    cases hbackslash

end Detection
end BuildLog
