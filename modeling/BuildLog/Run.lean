import BuildLog.Console
import BuildLog.LogFile
import BuildLog.Options
import BuildLog.ReportDocument
import BuildLog.SettingsFile

/-!
# A run of the program

* `Settings.ofOptions`: the settings of a call: those of a file, if one is named, with the options of the
  command line in place of them;
* `Run.ofArguments`: all that a call leads to, given the content of files.
-/

namespace BuildLog

/-! ## Settings -/

namespace Settings

/-- The settings that the options of a call set anew. -/
def changes (options : Options) : List (Text × Json) :=
  (if options.enableVersions then [(enabledField, .bool true)] else []) ++
    (match options.versionPattern with
      | some pattern => if pattern.isEmpty then [] else [(patternField, .string pattern)]
      | none => []) ++
    (if options.matchBackslash then [(backslashField, .bool true)] else [])

/-- The settings with some of them set anew; all are checked once more. -/
def override (settings : Settings) (changes : List (Text × Json)) : Except SettingsError Settings :=
  if changes.isEmpty then .ok settings
  else
    (ofMembers (changes.foldl (fun members change => Json.put members change.1 change.2)
      settings.toMembers)).mapError .refused

/-- The settings of a call. -/
def ofOptions (room : Json.Room) (files : Files) (options : Options) :
    Except SettingsError Settings := do
  let settings ←
    match options.settings with
    | some path => SettingsFile.load room files path
    | none => .ok .default
  settings.override (changes options)

end Settings

/-! ## Runs -/

/-- What a call leads to. -/
inductive Run where
  /-- Nothing is processed, and the call ends with a status. -/
  | stopped (status : Nat)
  /-- The settings cannot be had, and the call breaks off. -/
  | unset (error : SettingsError)
  /-- Processing breaks off. -/
  | failed (error : ProcessingError)
  /-- Something is printed, and a report is to be written if that was asked for. -/
  | finished (console : List ConsoleItem) (report : Option (FilePath × Text))

namespace Run

/-- The run of the options of a call. -/
def ofOptions (room : Json.Room) (files : Files) (options : Options) : Run :=
  match Settings.ofOptions room files options with
  | .error error => if error.isTold then stopped 1 else unset error
  | .ok settings =>
    match LogFile.processAll room files settings options.parsing options.workers options.logs with
    | .error error => failed error
    | .ok reports =>
      let console :=
        if options.quiet then []
        else reports.flatMap fun report => ConsoleItem.ofReport report options.showStatistics
      let document := Json.pretty (.array (reports.map (·.toJson)))
      finished console (options.output.map fun path => (path, document))

/-- The run of the arguments of a call. -/
def ofArguments (room : Json.Room) (files : Files) (arguments : List Text) : Run :=
  match Request.ofArguments arguments with
  | .help => stopped 0
  | .misuse => stopped 2
  | .run options => ofOptions room files options

/-- The status with which a run ends, given whether its report could be written. It is no success if
the call broke off. -/
def status (written : Bool) : Run → Nat
  | stopped status => status
  | unset _ => 1
  | failed _ => 1
  | finished _ none => 0
  | finished _ (some _) => if written then 0 else 1

end Run
end BuildLog
