import BuildLog.OptionRule

/-!
# Toolchains

How to deal with one family of compilers: its language, the way to ask for its built-in settings, and
the readers of its arguments.

* `Toolchain.parse`: reads a line of arguments from left to right. At each argument the readers are
  asked in order, and the first that takes something wins; a reader that fails takes nothing. An
  argument that none of them takes is skipped as one token;
* `gnuRules`, `cudaRules`, `visualRules`: the rules of the three families of option syntax.
-/

namespace BuildLog

/-- How a compiler is made to show what is built into it. -/
inductive BuiltinsKind where
  /-- It cannot be asked. -/
  | none
  /-- The way of the GNU compilers. -/
  | gcc
  /-- The way of the CUDA compiler. -/
  | nvcc
  /-- The way of the Intel compilers. -/
  | icc
  /-- The way of Visual C++. -/
  | msvc
  /-- The way of the ARM compilers. -/
  | armcc
  /-- The way of the XL compilers. -/
  | xlc
  deriving DecidableEq

/-- The name of a way to ask a compiler. -/
def BuiltinsKind.name : BuiltinsKind → Text
  | none => "none".toList
  | gcc => "gcc".toList
  | nvcc => "nvcc".toList
  | icc => "icc".toList
  | msvc => "msvc".toList
  | armcc => "armcc".toList
  | xlc => "xlc".toList

/-- A family of compilers. -/
structure Toolchain where
  language : Text
  builtins : BuiltinsKind
  readers : List ArgumentReader

namespace Toolchain

/-! ## Reading arguments -/

/-- Asks the readers in order to read the next argument. Says how many characters were taken, zero if
no reader took any. -/
def offer (directory text : Text) : List ArgumentReader → ParsedArguments → ParsedArguments × Nat
  | [], parsed => (parsed, 0)
  | reader :: readers, parsed =>
    match reader parsed directory text with
    | (parsed, .error _) => offer directory text readers parsed
    | (parsed, .ok width) =>
      if 0 < width then (parsed, width.toNat) else offer directory text readers parsed

/-- Reads the argument at the start of a text, or skips it as one token. -/
def step (readers : List ArgumentReader) (directory text : Text) (parsed : ParsedArguments) :
    ParsedArguments × Nat :=
  match offer directory text readers parsed with
  | (parsed, 0) => (parsed, (Token.read text).width)
  | taken => taken

/-- Reads the arguments that start behind the first `skip` characters of a text. -/
def parseFrom (readers : List ArgumentReader) (directory : Text) :
    Nat → Text → ParsedArguments → ParsedArguments
  | _, [], parsed => parsed
  | skip + 1, _ :: rest, parsed => parseFrom readers directory skip rest parsed
  | 0, c :: rest, parsed =>
    if Text.isBlank c then parseFrom readers directory 0 rest parsed
    else
      let taken := step readers directory (c :: rest) parsed
      parseFrom readers directory (taken.2 - 1) rest taken.1

/-- Reads all arguments of a line, seen from the directory of the compiler. -/
def parse (toolchain : Toolchain) (directory arguments : Text) : ParsedArguments :=
  parseFrom toolchain.readers directory 0 arguments .none

end Toolchain

/-! ## The rules of the families -/

namespace OptionRule

/-- A rule for an option whose value may be joined or separate. -/
def short (names : List String) (meaning : ValueMeaning) : OptionRule :=
  .valued { names := names.map (·.toList) } meaning

/-- A rule for a long option: the value is the next token or stands behind an equals sign. -/
def long (names : List String) (meaning : ValueMeaning) : OptionRule :=
  .valued { names := names.map (·.toList), joined := false, equals := true } meaning

/-- A rule for an option whose value always follows at once. -/
def attached (names : List String) (meaning : ValueMeaning) : OptionRule :=
  .valued { names := names.map (·.toList), separate := false } meaning

end OptionRule


/-- The flags of the GNU compilers that change what is built in. -/
def gnuFlags : List Text :=
  ["-ansi".toList, "-nostdinc".toList, "-nostdinc++".toList, "-undef".toList, "-fopenmp".toList,
    "-pthread".toList]

/-- The rules of compilers with GNU options. -/
def gnuRules : List OptionRule :=
  [.short ["-I"] (.includePath false),
    .short ["-D"] (.define ['=']),
    .short ["-U"] .undefine,
    .short ["-isystem", "-idirafter"] (.includePath true),
    .short ["-iquote"] (.includePath false),
    .short ["-include"] .includeFile,
    .short ["-imacros"] .definitionsFile,
    .attached ["-std="] .builtin,
    .long ["--sysroot"] .builtin,
    .short ["-isysroot"] .builtin,
    .valued { names := ["--target".toList], joined := false, separate := false, equals := true }
      .builtin,
    .valued { names := ["-target".toList], joined := false } .builtin,
    .flag gnuFlags,
    .machine]

/-- The rules of the CUDA compiler. -/
def cudaRules : List OptionRule :=
  [.long ["--include-path"] (.includePath false),
    .short ["-I"] (.includePath false),
    .long ["--define-macro"] (.define ['=']),
    .short ["-D"] (.define ['=']),
    .long ["--undefine-macro"] .undefine,
    .short ["-U"] .undefine,
    .long ["--system-include"] (.includePath true),
    .short ["-isystem"] (.includePath true),
    .long ["--pre-include"] .includeFile,
    .short ["-include"] .includeFile,
    .long ["--std", "-std"] .builtin]

/-- The rules of Visual C++. -/
def visualRules : List OptionRule :=
  [.short ["/I", "-I"] (.includePath false),
    .short ["/D", "-D"] (.define ['=', '#']),
    .short ["/U", "-U"] .undefine,
    .short ["/FI", "-FI"] .includeFile,
    .attached ["/std:", "-std:"] .builtin]

/-! ## The known families -/

namespace Toolchain

/-- A family whose arguments are read by rules. -/
def ofRules (language : String) (builtins : BuiltinsKind) (rules : List OptionRule) : Toolchain :=
  ⟨language.toList, builtins, rules.map (·.reader)⟩

/-- C with GNU options. -/
def gnuC : Toolchain := ofRules "c" .gcc gnuRules

/-- C++ with GNU options. -/
def gnuCpp : Toolchain := ofRules "c++" .gcc gnuRules

/-- The Intel compilers for C. -/
def intelC : Toolchain := ofRules "c" .icc gnuRules

/-- The Intel compilers for C++. -/
def intelCpp : Toolchain := ofRules "c++" .icc gnuRules

/-- The ARM compilers. -/
def armC : Toolchain := ofRules "c" .armcc gnuRules

/-- The XL compilers for C. -/
def xlC : Toolchain := ofRules "c" .xlc gnuRules

/-- The XL compilers for C++. -/
def xlCpp : Toolchain := ofRules "c++" .xlc gnuRules

/-- The CUDA compiler. -/
def cuda : Toolchain := ofRules "cuda" .nvcc cudaRules

/-- Visual C++. -/
def visualCpp : Toolchain := ofRules "c++" .msvc visualRules

end Toolchain
end BuildLog
