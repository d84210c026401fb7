import BuildLog.Run

/-!
# The program

Reads the files that the arguments name, prints what the run leads to, and writes the report.
-/

namespace BuildLog.Main

/-- A text as a string. -/
def string (text : Text) : String :=
  String.ofList text

/-- How deep values may be nested in a call that is started anew. -/
def room : Json.Room := ⟨980, 980⟩

/-- An error of the operating system, with its number and words. -/
def readError : IO.Error → ReadError
  | .alreadyExists _ code words | .invalidArgument _ code words | .permissionDenied _ code words
  | .resourceExhausted _ code words | .inappropriateType _ code words | .noSuchThing _ code words =>
    ⟨code.toNat, words.toList⟩
  | .interrupted _ code words | .noFileOrDirectory _ code words => ⟨code.toNat, words.toList⟩
  | .otherError code words | .resourceBusy code words | .resourceVanished code words
  | .unsupportedOperation code words | .hardwareFault code words
  | .unsatisfiedConstraints code words | .illegalOperation code words | .protocolError code words
  | .timeExpired code words => ⟨code.toNat, words.toList⟩
  | error => ⟨0, error.toString.toList⟩

/-- The content of a file. -/
def read (path : FilePath) : IO (Except ReadError Bytes) := do
  try
    let content ← IO.FS.readBinFile (string path.text)
    return .ok content.toList
  catch error => return .error (readError error)

/-- The content of all files that a request names. -/
def readAll (request : Request) : IO Files := do
  let paths :=
    match request with
    | .run options => options.settings.toList ++ options.logs
    | _ => []
  let mut contents : List (FilePath × Except ReadError Bytes) := []
  for path in paths do
    contents := (path, ← read path) :: contents
  let known := contents
  return fun path => ((known.find? (·.1 == path)).map (·.2)).getD (.error .notFound)

/-- The lines of something that is printed. -/
def lines : ConsoleItem → List String
  | .table title columns rows =>
    string title :: (columns :: rows).map fun row => string (Text.joined [' ', '|', ' '] row)
  | .line markup => [string markup]
  | .statistics statistics => [string (Json.pretty (.object statistics.toMembers))]

/-- Writes the report, and says whether that succeeded. -/
def write : Option (FilePath × Text) → IO Bool
  | none => return true
  | some (path, document) => do
    try
      IO.FS.writeFile (string path.text) (string document)
      return true
    catch _ => return false

end BuildLog.Main

/-- Runs the program and ends with its status. -/
def main (arguments : List String) : IO UInt32 := do
  let arguments := arguments.map (·.toList)
  let files ← BuildLog.Main.readAll (BuildLog.Request.ofArguments arguments)
  let run := BuildLog.Run.ofArguments BuildLog.Main.room files arguments
  match run with
  | .stopped _ => return (run.status true).toUInt32
  | .unset _ => return (run.status true).toUInt32
  | .failed error =>
    IO.eprintln (BuildLog.Main.string error.message)
    return (run.status true).toUInt32
  | .finished console report =>
    for item in console do
      for line in BuildLog.Main.lines item do
        IO.println line
    let written ← BuildLog.Main.write report
    return (run.status written).toUInt32
