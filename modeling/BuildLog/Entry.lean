import BuildLog.Text.Basic

/-!
# Settings entries

What the arguments of a compiler say about a source file, one fact at a time, and all that one command
line says.
-/

namespace BuildLog

/-- One fact that an argument states. -/
inductive Entry where
  /-- A directory to search for includes, marked as one of the system or not. -/
  | includePath (path : Text) (system : Bool)
  /-- A name that the preprocessor replaces by a text. -/
  | define (name : Text) (value : Text)
  /-- A name that the preprocessor no longer replaces. -/
  | undefine (name : Text)
  /-- A file that is included before the source file. -/
  | includeFile (path : Text)
  /-- A file of which only the definitions are taken. -/
  | definitionsFile (path : Text)
  deriving DecidableEq

namespace Entry

/-- The name of an entry: its path or the name it defines. -/
def name : Entry → Text
  | includePath path _ => path
  | define name _ => name
  | undefine name => name
  | includeFile path => path
  | definitionsFile path => path

/-- Whether an entry is a directory to search. -/
def isIncludePath : Entry → Bool
  | includePath .. => true
  | _ => false

/-- Whether an entry defines a name or takes a definition back. -/
def isDefinition : Entry → Bool
  | define .. => true
  | undefine .. => true
  | _ => false

end Entry

/-! ## Parsed arguments -/

/-- What was found in the arguments of one command line, in the order of the line: the entries, and
the arguments that change what is built into the compiler. -/
structure ParsedArguments where
  entries : List Entry
  builtinArguments : List Text
  deriving DecidableEq

/-- A single finding. -/
inductive Finding where
  /-- A fact about the source file. -/
  | entry (entry : Entry)
  /-- An argument that changes what is built into the compiler. -/
  | builtin (argument : Text)
  deriving DecidableEq

namespace ParsedArguments

/-- Nothing found. -/
def none : ParsedArguments := ⟨[], []⟩

/-- One more finding, behind the others of its kind. -/
def add (parsed : ParsedArguments) : Finding → ParsedArguments
  | .entry entry => { parsed with entries := parsed.entries ++ [entry] }
  | .builtin argument => { parsed with builtinArguments := parsed.builtinArguments ++ [argument] }

/-- The directories to search, in order. -/
def includePaths (parsed : ParsedArguments) : List Entry :=
  parsed.entries.filter (·.isIncludePath)

/-- The definitions made and taken back, in order. -/
def definitions (parsed : ParsedArguments) : List Entry :=
  parsed.entries.filter (·.isDefinition)

end ParsedArguments
end BuildLog
