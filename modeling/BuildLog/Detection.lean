import BuildLog.Path.ShortName
import BuildLog.Registry

/-!
# Detection of tools

The tool of a command line is found by trying probes one after the other.

* `Probe`: one signature under one convention in one style of paths, and whether it accepts a command;
* `Detection.round`: the probes of one pass over a registry;
* `Detection.scan`: the first probe that accepts the command of a line.

There are up to three passes: all signatures with plain slashes; then, where backslashes separate
components, the signatures for Windows with the command as it is; then, if the command has short names,
the same signatures with its long form. Each pass goes through the conventions in order and, for each,
through the registry.
-/

namespace BuildLog

/-- A signature of a registry under a convention and a style of paths. -/
structure Probe where
  /-- The place of the signature in its registry. -/
  position : Nat
  signature : Signature
  strategy : Strategy
  style : PathStyle

/-- A probe that accepted the command of a line, and the two parts of the line. -/
structure Outcome where
  probe : Probe
  invocation : Invocation

namespace Probe

/-- Whether a probe accepts a command. -/
def accepts (probe : Probe) (version command : Text) : Except PatternError Bool :=
  probe.signature.accepts probe.strategy probe.style version command

/-- The outcome of a probe on a line. -/
def outcome? (probe : Probe) (version line : Text) : Except PatternError (Option Outcome) :=
  (probe.signature.matchLine? probe.strategy probe.style version line).map
    (Option.map fun invocation => ⟨probe, invocation⟩)

end Probe

/-- A function that gives the long form of a path with short names. -/
abbrev Expander := Text → Text

/-- What a scan found, and the commands that were handed to the expander on the way. -/
structure Detection where
  result : Except PatternError (Option Outcome)
  expanded : List Text

namespace Detection

/-! ## One pass -/

/-- The signatures of a registry with their places. -/
def placed (registry : Registry) : List (Nat × Signature) :=
  registry.zipIdx.map fun entry => (entry.2, entry.1)

/-- The signatures that are looked for in paths of the Windows style. -/
def onWindows (entries : List (Nat × Signature)) : List (Nat × Signature) :=
  entries.filter (·.2.onWindows)

/-- The conventions that are tried; without a pattern for versions, those with a version are not. -/
def strategies (version : Text) : List Strategy :=
  Strategy.all.filter fun strategy => !(strategy.usesVersion && version.isEmpty)

/-- The probes of one pass, in order. -/
def round (entries : List (Nat × Signature)) (style : PathStyle) (version : Text) : List Probe :=
  (strategies version).flatMap fun strategy =>
    entries.map fun entry => ⟨entry.1, entry.2, strategy, style⟩

/-- The outcome of the first probe that accepts the command. A probe whose pattern has a fault ends the
search. -/
def first? (version : Text) (invocation : Invocation) :
    List Probe → Except PatternError (Option Outcome)
  | [] => .ok none
  | probe :: probes =>
    match probe.accepts version invocation.command with
    | .error error => .error error
    | .ok true => .ok (some ⟨probe, invocation⟩)
    | .ok false => first? version invocation probes

/-! ## All passes -/

/-- The last pass: the command with its short names expanded, if it has any. -/
def scanExpanded (probes : List Probe) (version : Text) (expander : Option Expander)
    (invocation : Invocation) : Detection :=
  match expander with
  | none => ⟨.ok none, []⟩
  | some expand =>
    if Path.hasShortName invocation.command then
      let command := expand invocation.command
      let result :=
        if command = invocation.command then .ok none
        else first? version ⟨command, invocation.arguments⟩ probes
      ⟨result, [invocation.command]⟩
    else ⟨.ok none, []⟩

/-- The passes with backslashes as separators. -/
def scanWindows (registry : Registry) (version : Text) (expander : Option Expander)
    (invocation : Invocation) : Detection :=
  let probes := round (onWindows (placed registry)) .windows version
  if probes.isEmpty then ⟨.ok none, []⟩
  else
    match first? version invocation probes with
    | .ok none => scanExpanded probes version expander invocation
    | found => ⟨found, []⟩

/-- The tool of a command line: the first probe that accepts its command. -/
def scan (registry : Registry) (version : Text) (withBackslash : Bool) (expander : Option Expander)
    (line : Text) : Detection :=
  match Invocation.ofLine? line with
  | none => ⟨.ok none, []⟩
  | some invocation =>
    match first? version invocation (round (placed registry) .posix version) with
    | .ok none =>
      if withBackslash then scanWindows registry version expander invocation
      else ⟨.ok none, []⟩
    | found => ⟨found, []⟩

end Detection
end BuildLog
