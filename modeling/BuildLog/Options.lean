import BuildLog.FilePath
import BuildLog.Text.WholeNumber

/-!
# Options of the command line

* `Options`: what a call asks for;
* `Request.ofArguments`: the options in the arguments of a call, or that help is asked for, or that the
  arguments break a rule.

Long options may be cut short as long as they stay unique, and take their value as the next argument or
behind an equals sign. Short options may stand together behind one hyphen, and a value may follow at
once. An argument with a hyphen is no value unless it looks like a negative number or holds a space.
Behind `--` there are only files. The files stand together.
-/

namespace BuildLog

/-! ## Flags -/

/-- An option of the command line. -/
inductive Flag where
  /-- Show how the program is called. -/
  | help
  /-- The file with settings. -/
  | settings
  /-- Accept versions in the names of tools. -/
  | enableVersions
  /-- The pattern of versions. -/
  | versionPattern
  /-- Have backslashes separate components of paths. -/
  | matchBackslash
  /-- Do not parse arguments. -/
  | noParse
  /-- The file for the report. -/
  | output
  /-- Print the numbers of each build log. -/
  | statistics
  /-- How many build logs are processed at the same time. -/
  | concurrency
  /-- Print without colours. -/
  | noColor
  /-- Say more. -/
  | verbose
  /-- Print nothing. -/
  | quiet
  deriving DecidableEq

namespace Flag

/-- The spellings of all options, in order. -/
def spellings : List (Text × Flag) :=
  [("-h".toList, help), ("--help".toList, help), ("--settings".toList, settings),
    ("--enable-version-pattern".toList, enableVersions),
    ("--version-pattern".toList, versionPattern), ("--match-backslash".toList, matchBackslash),
    ("--no-parse".toList, noParse), ("--output".toList, output), ("-o".toList, output),
    ("--stats".toList, statistics), ("--concurrency".toList, concurrency),
    ("--no-color".toList, noColor), ("--verbose".toList, verbose), ("-v".toList, verbose),
    ("--quiet".toList, quiet), ("-q".toList, quiet)]

/-- The option with a spelling. -/
def ofSpelling? (spelling : Text) : Option Flag :=
  (spellings.find? (·.1 == spelling)).map (·.2)

/-- Whether an option has a value. -/
def takesValue : Flag → Bool
  | settings | versionPattern | output | concurrency => true
  | _ => false

end Flag

/-! ## Arguments -/

/-- A value that stands in the same argument as its option. -/
structure Attached where
  /-- Whether an equals sign stands between the two. -/
  equals : Bool
  text : Text
  deriving DecidableEq

/-- An argument of a call. -/
inductive Argument where
  /-- A file or a value. -/
  | plain (text : Text)
  /-- The sign behind which there are only files. -/
  | separator
  /-- An option, spelled short or long, with what stands in the same argument. -/
  | option (flag : Flag) (short : Bool) (attached : Option Attached)
  /-- Something that looks like an option but is none. -/
  | unknown
  deriving DecidableEq

namespace Argument

/-- A text up to its first equals sign, and what stands behind it. -/
def splitEquals (text : Text) : Text × Option Attached :=
  match text.dropWhile (· != '=') with
  | [] => (text, none)
  | _ :: value => (text.takeWhile (· != '='), some ⟨true, value⟩)

/-- Whether a text looks like a negative number: digits, with a point before the last ones or not. -/
def looksNegative (text : Text) : Bool :=
  let text := if text.getLast? == some '\n' then text.dropLast else text
  match text with
  | '-' :: rest =>
    let digits := rest.takeWhile Text.isDigit
    match rest.drop digits.length with
    | [] => !digits.isEmpty
    | '.' :: places => !places.isEmpty && places.all Text.isDigit
    | _ => false
  | _ => false

/-- The options that a text may be short for, or that it starts with. -/
def candidates (text : Text) : List Argument :=
  match text with
  | '-' :: '-' :: _ =>
    let (start, attached) := splitEquals text
    (Flag.spellings.filter fun entry => start.isPrefixOf entry.1).map fun entry =>
      option entry.2 false attached
  | '-' :: letter :: rest =>
    Flag.spellings.filterMap fun entry =>
      if entry.1 == ['-', letter] then some (option entry.2 true (some ⟨false, rest⟩)) else none
  | _ => []

/-- An argument in front of the separator; there is none if it may be several options. -/
def ofText? (text : Text) : Option Argument :=
  if text.head? != some '-' || text == ['-'] then some (plain text)
  else
    match Flag.ofSpelling? text with
    | some flag => some (option flag (text.length == 2) none)
    | none =>
      let (start, attached) := splitEquals text
      match attached, Flag.ofSpelling? start with
      | some attached, some flag => some (option flag (start.length == 2) (some attached))
      | _, _ =>
        match candidates text with
        | [] => some (if looksNegative text || text.contains ' ' then plain text else unknown)
        | [argument] => some argument
        | _ => none

/-- All arguments; there are none if one of them may be several options. -/
def list? : List Text → Option (List Argument)
  | [] => some []
  | text :: rest =>
    if text == ['-', '-'] then some (separator :: rest.map plain)
    else
      match ofText? text, list? rest with
      | some argument, some arguments => some (argument :: arguments)
      | _, _ => none

end Argument

/-! ## Options -/

/-- What a call asks for. -/
structure Options where
  logs : List FilePath := []
  settings : Option FilePath := none
  enableVersions : Bool := false
  versionPattern : Option Text := none
  matchBackslash : Bool := false
  parsing : Bool := true
  output : Option FilePath := none
  showStatistics : Bool := false
  workers : Int := 4
  colors : Bool := true
  verbosity : Nat := 0
  quiet : Bool := false
  deriving DecidableEq

namespace Options

/-- The options with one more flag that has no value. -/
def set (options : Options) : Flag → Options
  | .enableVersions => { options with enableVersions := true }
  | .matchBackslash => { options with matchBackslash := true }
  | .noParse => { options with parsing := false }
  | .statistics => { options with showStatistics := true }
  | .noColor => { options with colors := false }
  | .verbose => { options with verbosity := options.verbosity + 1 }
  | .quiet => { options with quiet := true }
  | _ => options

/-- The options with the value of a flag; there are none if the value is of no use. -/
def setValue? (options : Options) (flag : Flag) (value : Text) : Option Options :=
  match flag with
  | .settings => some { options with settings := some (.ofText value) }
  | .versionPattern => some { options with versionPattern := some value }
  | .output => some { options with output := some (.ofText value) }
  | .concurrency => (Text.readInt? value).map fun workers => { options with workers := workers }
  | _ => some options

end Options

/-! ## Requests -/

/-- What the arguments of a call come to. -/
inductive Request where
  /-- The way to call the program is to be shown. -/
  | help
  /-- The arguments break a rule. -/
  | misuse
  /-- Build logs are to be processed. -/
  | run (options : Options)
  deriving DecidableEq

namespace Request

/-- The flags in one argument: those without a value, and the last one if it has a value, which stands
there too or is still to come. -/
structure FlagGroup where
  plain : List Flag
  valued : Option (Flag × Option Text)
  /-- Whether something is left that is no option. -/
  leftover : Bool

/-- The flags that stand together in one argument; there are none if a flag without a value is given
one. The number bounds the steps. -/
def flagGroup? (short : Bool) : Nat → Flag → Option Attached → Option FlagGroup
  | 0, _, _ => none
  | _, flag, none =>
    some (if flag.takesValue then ⟨[], some (flag, none), false⟩ else ⟨[flag], none, false⟩)
  | bound + 1, flag, some attached =>
    if flag.takesValue then some ⟨[], some (flag, some attached.text), false⟩
    else if !short || attached.equals then none
    else
      match attached.text with
      | [] => none
      | '-' :: _ => none
      | letter :: rest =>
        match Flag.ofSpelling? ['-', letter] with
        | none => some ⟨[flag], none, true⟩
        | some next =>
          let attached :=
            match rest with
            | [] => none
            | '=' :: value => some ⟨true, value⟩
            | text => some ⟨false, text⟩
          (flagGroup? short bound next attached).map fun group =>
            { group with plain := flag :: group.plain }

/-- How far the arguments of a call were read: the options so far, the files once they were found,
whether their row goes on, and whether there was something that has no place. -/
structure Progress where
  options : Options
  files : Option (List Text)
  inFiles : Bool
  leftover : Bool

namespace Progress

/-- Nothing read yet. -/
def start : Progress := ⟨{}, none, false, false⟩

/-- One more file; files that do not stand with the others have no place. -/
def addFile (progress : Progress) (file : Text) : Progress :=
  match progress.files with
  | none => { progress with files := some [file], inFiles := true }
  | some files =>
    if progress.inFiles then { progress with files := some (files ++ [file]) }
    else { progress with leftover := true }

/-- The sign behind which there are only files; it belongs to their row. -/
def addSeparator (progress : Progress) : Progress :=
  if progress.files.isSome && !progress.inFiles then { progress with leftover := true } else progress

/-- One or more flags; the row of files ends here. -/
def addFlags (progress : Progress) (group : FlagGroup) : Progress :=
  { progress with
    options := group.plain.foldl Options.set progress.options
    inFiles := false
    leftover := progress.leftover || group.leftover }

/-- What has been read, as a request: there must be files, and nothing without a place. -/
def finish (progress : Progress) : Request :=
  match progress.files with
  | none => misuse
  | some files =>
    if progress.leftover then misuse
    else run { progress.options with logs := files.map .ofText }

end Progress

/-- The request of the arguments behind those that were read. The first misuse or wish for help
decides. -/
def ofRest : List Argument → Progress → Request
  | [], progress => progress.finish
  | .plain text :: rest, progress => ofRest rest (progress.addFile text)
  | .separator :: rest, progress => ofRest rest progress.addSeparator
  | .unknown :: rest, progress => ofRest rest { progress with inFiles := false, leftover := true }
  | .option flag short attached :: rest, progress =>
    let bound := (attached.map (·.text.length)).getD 0 + 1
    match flagGroup? short bound flag attached with
    | none => misuse
    | some group =>
      let progress := progress.addFlags group
      match group.valued, rest with
      | none, rest => if group.plain.contains .help then help else ofRest rest progress
      | some (flag, some value), rest =>
        if group.plain.contains .help then help
        else
          match progress.options.setValue? flag value with
          | none => misuse
          | some options => ofRest rest { progress with options := options }
      | some (flag, none), .plain value :: rest =>
        if group.plain.contains .help then help
        else
          match progress.options.setValue? flag value with
          | none => misuse
          | some options => ofRest rest { progress with options := options }
      | some (_, none), _ => misuse

/-- The request of a call. -/
def ofArguments (arguments : List Text) : Request :=
  match Argument.list? arguments with
  | none => misuse
  | some arguments => ofRest arguments .start

end Request
end BuildLog
