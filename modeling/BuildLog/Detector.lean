import BuildLog.Detection
import BuildLog.Settings

/-!
# Detector

The records of a build log nearly always call the same compiler. A detector remembers the probe that
accepted the last command and tries it first.

* `Detector`: the settings, the registry, the remembered probe, and how often it helped;
* `Detector.detect`: the tool of one more line, and the detector after it;
* `Detector.parseLine`: the tool and the parsed arguments, where an unknown tool is an error.

The counters tell the lines that the remembered probe accepted, those that it refused, and the scans of
the whole registry.
-/

namespace BuildLog

/-- A detector of tools. -/
structure Detector where
  settings : Settings
  registry : Registry
  expander : Option Expander
  /-- The probe that accepted the last command, if one did. -/
  last : Option Probe
  hits : Nat
  misses : Nat
  scans : Nat

/-- What a detector says about a line, the detector after it, and the commands that were handed to the
expander. -/
structure Detected where
  result : Except PatternError (Option Outcome)
  detector : Detector
  expanded : List Text

/-- Why a line has no parsed arguments. -/
inductive LineError where
  /-- A pattern has a fault. -/
  | badPattern (error : PatternError)
  /-- The tool of the line is not known. -/
  | unknownTool (line : Text)

/-- The tool and the parsed arguments of a line, the detector after it, and the commands that were handed
to the expander. -/
structure ParsedLine where
  result : Except LineError (Outcome × ParsedArguments)
  detector : Detector
  expanded : List Text

namespace Detector

/-- A detector that has seen no line yet. -/
def start (settings : Settings) (registry : Registry) (expander : Option Expander) : Detector :=
  ⟨settings, registry, expander, none, 0, 0, 0⟩

/-- A detector that does not remember any probe. -/
def reset (detector : Detector) : Detector :=
  { detector with last := none }

/-- The outcome of the remembered probe on a line. -/
def tryLast (detector : Detector) (line : Text) : Except PatternError (Option Outcome) :=
  match detector.last with
  | none => .ok none
  | some probe => probe.outcome? detector.settings.effectivePattern line

/-- Scans the whole registry, and remembers the probe that accepts. -/
def rescan (detector : Detector) (line : Text) : Detected :=
  let found := Detection.scan detector.registry detector.settings.effectivePattern
    detector.settings.matchBackslash detector.expander line
  let last :=
    match found.result with
    | .ok (some outcome) => some outcome.probe
    | _ => none
  ⟨found.result, { detector with last := last, scans := detector.scans + 1 }, found.expanded⟩

/-- The detector after its remembered probe refused a line. -/
def forget (detector : Detector) : Detector :=
  match detector.last with
  | none => detector
  | some _ => { detector with last := none, misses := detector.misses + 1 }

/-- The tool of a line: by the remembered probe if that accepts the command, else by a scan. A fault in
the pattern of the remembered probe leaves the detector as it is. -/
def detect (detector : Detector) (line : Text) : Detected :=
  match detector.tryLast line with
  | .error error => ⟨.error error, detector, []⟩
  | .ok (some outcome) => ⟨.ok (some outcome), { detector with hits := detector.hits + 1 }, []⟩
  | .ok none => detector.forget.rescan line

/-- The detector after an attempt to set one of its settings, and why it failed. -/
def attempt (detector : Detector) (field : Text) (value : Json) : Detector × Option FieldError :=
  let (settings, error) := detector.settings.attempt field value
  ({ detector with settings := settings }, error)

/-- What the arguments of a detected line say, seen from a directory. -/
def parseArguments (outcome : Outcome) (directory : Text) : ParsedArguments :=
  outcome.probe.signature.toolchain.parse directory outcome.invocation.arguments

/-- What is said about a line without a known tool. -/
def unknownToolMessage (line : Text) : Text :=
  "No parser for command '".toList ++ line ++ ['\'']

/-- The tool of a line and its arguments, seen from a directory. -/
def parseLine (detector : Detector) (line directory : Text) : ParsedLine :=
  let found := detector.detect line
  let result :=
    match found.result with
    | .error error => .error (.badPattern error)
    | .ok none => .error (.unknownTool line)
    | .ok (some outcome) => .ok (outcome, parseArguments outcome directory)
  ⟨result, found.detector, found.expanded⟩

end Detector
end BuildLog
