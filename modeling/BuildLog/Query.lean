import BuildLog.Detection

/-!
# Queries for built-in settings

A compiler tells what is built into it when it is called in the right way with an empty source file.

* `Query`: which compiler to ask, and the arguments that change the answer;
* `Query.argv`, `Query.commandLine`: the call, as tokens and as one line.
-/

namespace BuildLog

/-- A question to a compiler about its built-in settings. -/
structure Query where
  command : Text
  language : Text
  kind : BuiltinsKind
  arguments : List Text
  deriving DecidableEq

/-- The flags that make a compiler tell its built-in settings, if there are any. -/
def BuiltinsKind.queryFlags? : BuiltinsKind → Option (List String)
  | .none => Option.none
  | .gcc => some ["-E", "-P", "-dM", "-Wp,-v"]
  | .icc => some ["-EP", "-dM", "-v"]
  | .nvcc => some ["-E", "-Xcompiler", "-P", "-Xcompiler", "-dM", "-Xcompiler", "-v"]
  | .armcc => some ["-E", "-P", "-dM"]
  | .xlc => some ["-E", "-P", "-qshowmacros"]
  | .msvc => some ["/nologo", "/EP", "/PD"]

namespace Query

/-- The query for a detected tool with its parsed arguments; without these, there are none. -/
def ofOutcome (outcome : Outcome) (parsed : Option ParsedArguments) : Query :=
  let toolchain := outcome.probe.signature.toolchain
  { command := outcome.invocation.command
    language := toolchain.language
    kind := toolchain.builtins
    arguments := (parsed.map (·.builtinArguments)).getD [] }

/-- Whether the compiler can be asked. -/
def isSupported (query : Query) : Bool :=
  query.kind.queryFlags?.isSome

/-- The name of the empty source file. -/
def sourceName (query : Query) : Text :=
  if query.language == "c++".toList then "spec.cpp".toList
  else if query.language == "cuda".toList then "spec.cu".toList
  else "spec.c".toList

/-- The call as a list of tokens, with the given source file or, if its name is empty, the usual one.
A compiler that cannot be asked is not called. -/
def argv (query : Query) (source : Text) : List Text :=
  match query.kind.queryFlags? with
  | none => []
  | some flags =>
    query.command :: query.arguments.flatMap Token.values ++ flags.map (·.toList) ++
      [if source.isEmpty then query.sourceName else source]

/-- The call as one line. -/
def commandLine (query : Query) (source : Text) : Text :=
  Token.line (query.argv source)

end Query
end BuildLog
