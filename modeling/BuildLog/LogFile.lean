import BuildLog.FilePath
import BuildLog.Json.Reader
import BuildLog.Report

/-!
# Build logs in files

* `LogFile.process`: the report of a build log, which is a JSON file with a list of records. A file that
  is no build log gives a report without records and with one problem;
* `LogFault`: why a build log has no report at all;
* `LogFile.collect`: the reports of several build logs. Each has a detector of its own, so they may be
  processed at the same time and finished in any order;
* `LogFile.processAll`: these reports, if there is somebody to do the work.
-/

namespace BuildLog

/-- Why a build log has no report. -/
inductive LogFault where
  /-- Its text is too much to be read. -/
  | unread (fault : Json.ReadingFault)
  /-- One of its texts holds half of a surrogate pair, which is no character. What becomes of such a text is
  left open here. -/
  | tornText
  /-- One of its records has no result. -/
  | record (fault : RecordFault)
  deriving DecidableEq

/-- What a fault says. -/
def LogFault.message : LogFault → Text
  | unread fault => fault.message
  | tornText => "surrogates not allowed".toList
  | record fault => fault.message

/-- Why build logs cannot be processed. -/
inductive ProcessingError where
  /-- There is nobody to do the work. -/
  | noWorkers
  /-- One of them has no report. -/
  | log (fault : LogFault)
  deriving DecidableEq

/-- What an error says. -/
def ProcessingError.message : ProcessingError → Text
  | noWorkers => "max_workers must be greater than 0".toList
  | log fault => fault.message

namespace LogFile

/-- What is said about a file that is no list of records. -/
def formatMessage : Text :=
  "File does not seem to be in JSON format".toList

/-- What is said about a file that cannot be read. -/
def readMessage (path : FilePath) (error : ReadError) : Text :=
  if error.number = ReadError.notFound.number then
    "File '".toList ++ path.text ++ "' was not created in the build".toList
  else "Failed to read file ".toList ++ path.text ++ ": ".toList ++ error.message path

/-- What is said about a file whose bytes are no text. -/
def decodingMessage (path : FilePath) (error : DecodingError) : Text :=
  "File ".toList ++ path.text ++ " is not UTF-8 encoded: ".toList ++ error.message

/-- The text of a build log, or what is wrong with the file. -/
def document (files : Files) (path : FilePath) : Except Text Text := do
  let bytes ← (files path).mapError (readMessage path)
  (Bytes.decode bytes).mapError (decodingMessage path)

/-- The detector for a build log. -/
def detector (settings : Settings) : Detector :=
  .start settings .known none

/-- The report of a build log. -/
def process (room : Json.Room) (files : Files) (settings : Settings) (parsing : Bool)
    (path : FilePath) : Except LogFault Report :=
  match document files path with
  | .error message => .ok (.failed path.text message)
  | .ok document =>
    match Json.read room.reading document with
    | .ok (.array items) =>
      match items.mapM Json.whole? with
      | some values =>
        (Report.ofRecords room.showing (detector settings) parsing (some path.text) values).mapError
          .record
      | none => .error .tornText
    | .ok _ => .ok (.failed path.text formatMessage)
    | .error .noDocument => .ok (.failed path.text formatMessage)
    | .error fault => .error (.unread fault)

/-! ## Several build logs -/

/-- A build log that was processed, with its report. -/
structure Finished where
  path : FilePath
  report : Report

/-- The build logs in the order in which they are finished. -/
def finish (room : Json.Room) (files : Files) (settings : Settings) (parsing : Bool)
    (order : List FilePath) : Except LogFault (List Finished) :=
  order.mapM fun path => (process room files settings parsing path).map fun report => ⟨path, report⟩

/-- The report of a path among the finished build logs, the latest one of several. -/
def reportOf? (finished : List Finished) (path : FilePath) : Option Report :=
  (finished.reverse.find? (·.path == path)).map (·.report)

/-- The reports in the order of the paths, when the build logs are finished in an order of their own. -/
def collect (room : Json.Room) (files : Files) (settings : Settings) (parsing : Bool)
    (order paths : List FilePath) : Except LogFault (List Report) :=
  (finish room files settings parsing order).map fun finished => paths.filterMap (reportOf? finished)

/-- The reports of several build logs, in the order of their paths, with the given number of workers. -/
def processAll (room : Json.Room) (files : Files) (settings : Settings) (parsing : Bool)
    (workers : Int) (paths : List FilePath) : Except ProcessingError (List Report) :=
  if workers ≤ 0 then .error .noWorkers
  else (collect room files settings parsing paths paths).mapError .log

end LogFile
end BuildLog
