import BuildLog.Signature

/-!
# The known tools

* `Registry`: signatures in the order in which they are tried;
* `Registry.known`: the tools that are known from the start.
-/

namespace BuildLog

/-- Signatures in the order in which they are tried. -/
abbrev Registry := List Signature

namespace Registry

/-- The extension of executables. -/
def executable : Text := "exe".toList

/-- A tool that carries the extension of executables and is found in Windows paths too. -/
def portable (name : String) (toolchain : Toolchain)
    (h : namePatternError? (nameSource false name.toList) (some executable) = none := by
      decide +kernel) : Signature :=
  ⟨name.toList, toolchain, some executable, true, false, h⟩

/-- Tools with names of a pattern that carry the extension of executables and are found in Windows
paths too. -/
def portableFamily (name : String) (toolchain : Toolchain)
    (h : namePatternError? (nameSource true name.toList) (some executable) = none := by
      decide +kernel) : Signature :=
  ⟨name.toList, toolchain, some executable, true, true, h⟩

/-- A tool without an extension. -/
def plain (name : String) (toolchain : Toolchain)
    (h : namePatternError? (nameSource false name.toList) none = none := by
      decide +kernel) : Signature :=
  ⟨name.toList, toolchain, none, false, false, h⟩

/-- The known tools: compilers with GNU options, then those of other makers, and last the compilers for
other machines, which have the machine in front of their name. -/
def known : Registry :=
  [portable "cc" .gnuC,
    portable "gcc" .gnuC,
    portable "clang" .gnuC,
    portable "c++" .gnuCpp,
    portable "g++" .gnuCpp,
    portable "clang++" .gnuCpp,
    portable "nvcc" .cuda,
    plain "icc" .intelC,
    plain "icpc" .intelCpp,
    portable "icl" .intelCpp,
    portable "cl" .visualCpp,
    portable "armcc" .armC,
    portable "armclang" .armC,
    plain "xlc" .xlC,
    plain "xlclang" .xlC,
    plain "xlC" .xlCpp,
    plain "xlc++" .xlCpp,
    plain "xlclang++" .xlCpp,
    portableFamily ".+-gcc" .gnuC,
    portableFamily ".+-clang" .gnuC,
    portableFamily ".+-g\\+\\+" .gnuCpp,
    portableFamily ".+-c\\+\\+" .gnuCpp,
    portableFamily ".+-clang\\+\\+" .gnuCpp]

end Registry
end BuildLog
