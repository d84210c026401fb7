import BuildLog.Invocation
import BuildLog.Path.Basic
import BuildLog.Pattern.Match
import BuildLog.Toolchain

/-!
# Signatures of tools

A tool is known by the name of its command. The name may carry an extension of executables, a version
suffix, or both.

* `Strategy`: these four conventions;
* `Signature`: how a tool is named, and its family;
* `Signature.accepts`: whether the name of a command is that of the tool under a convention;
* `Signature.define`: a signature, if the patterns of its name are in order.
-/

namespace BuildLog

/-! ## Naming conventions -/

/-- A naming convention. -/
inductive Strategy where
  /-- The plain name, as in `gcc`. -/
  | basename
  /-- The name with an extension, as in `gcc.exe`. -/
  | withExtension
  /-- The name with a version, as in `gcc-4.8`. -/
  | withVersion
  /-- The name with a version and an extension, as in `gcc-4.8.exe`. -/
  | withVersionAndExtension
  deriving DecidableEq

namespace Strategy

/-- The conventions in the order in which they are tried. -/
def all : List Strategy :=
  [basename, withExtension, withVersion, withVersionAndExtension]

/-- Whether a convention has a version in the name. -/
def usesVersion : Strategy → Bool
  | withVersion | withVersionAndExtension => true
  | _ => false

/-- Whether a convention has an extension in the name. -/
def usesExtension : Strategy → Bool
  | withExtension | withVersionAndExtension => true
  | _ => false

/-- The name of a convention. -/
def name : Strategy → Text
  | basename => "basename".toList
  | withExtension => "with_extension".toList
  | withVersion => "with_version".toList
  | withVersionAndExtension => "with_version_extension".toList

end Strategy

/-! ## Patterns of names -/

/-- The text of the pattern for a name, with a version and an extension unless these are empty. The
name is not set apart from what follows. -/
def namePattern (name : Text) (version extension : Text) : Text :=
  name ++ (if version.isEmpty then [] else "(?:".toList ++ version ++ [')']) ++
    (if extension.isEmpty then [] else '\\' :: '.' :: Pattern.escape extension)

/-- The fault in the patterns that a tool needs in any case: its name, alone and with its extension. -/
def namePatternError? (name : Text) (extension : Option Text) : Option PatternError :=
  match Pattern.ofText (namePattern name [] []) with
  | .error error => some error
  | .ok _ =>
    match Pattern.ofText (namePattern name [] (extension.getD [])) with
    | .error error => some error
    | .ok _ => none

/-- The text of the pattern for a name that is given literally or as a pattern. -/
def nameSource (isPattern : Bool) (name : Text) : Text :=
  if isPattern then name else Pattern.escape name

/-! ## Signatures -/

/-- How a tool is named. -/
structure Signature where
  /-- The name, or a pattern of names. -/
  name : Text
  /-- The family that the tool belongs to. -/
  toolchain : Toolchain
  /-- The extension that the name may carry. -/
  extension : Option Text
  /-- Whether the tool is also looked for in paths of the Windows style. -/
  onWindows : Bool
  /-- Whether the name is a pattern. -/
  isPattern : Bool
  /-- The patterns of the name are in order. -/
  patterns : namePatternError? (nameSource isPattern name) extension = none

namespace Signature

/-- The signature with the given parts, if its patterns are in order. -/
def define (name : Text) (toolchain : Toolchain) (extension : Option Text) (onWindows isPattern : Bool) :
    Except PatternError Signature :=
  match h : namePatternError? (nameSource isPattern name) extension with
  | some error => .error error
  | none => .ok ⟨name, toolchain, extension, onWindows, isPattern, h⟩

/-- Whether a tool can be named by a convention. -/
def supports (signature : Signature) (strategy : Strategy) : Bool :=
  signature.extension.isSome || !strategy.usesExtension

/-- The text of the pattern of names under a convention. -/
def source (signature : Signature) (strategy : Strategy) (version : Text) : Text :=
  namePattern (nameSource signature.isPattern signature.name)
    (if strategy.usesVersion then version else [])
    (if strategy.usesExtension then signature.extension.getD [] else [])

/-- Whether the name of a command is the name of the tool under a convention. Without a pattern for
versions, no name has one. -/
def accepts (signature : Signature) (strategy : Strategy) (style : PathStyle) (version command : Text) :
    Except PatternError Bool :=
  if !signature.supports strategy || (strategy.usesVersion && version.isEmpty) then .ok false
  else
    (Pattern.ofText (signature.source strategy version)).map fun pattern =>
      pattern.matchesAll style.ignoresCase (Path.name style command)

/-- The invocation in a line, if its command is the tool under a convention. -/
def matchLine? (signature : Signature) (strategy : Strategy) (style : PathStyle) (version line : Text) :
    Except PatternError (Option Invocation) :=
  match Invocation.ofLine? line with
  | none => .ok none
  | some invocation =>
    (signature.accepts strategy style version invocation.command).map fun accepted =>
      if accepted then some invocation else none

end Signature
end BuildLog
