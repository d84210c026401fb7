import BuildLog.Path.Basic
import BuildLog.Text.Digit

/-!
# Short names

A file system may show a long name under a short one: up to six characters, a tilde and a number,
with at most three characters of extension (`PROGRA~1`, `GCC~1.EXE`).

* `Path.hasShortName`: whether a component of a path has that form;
* `Path.expandShortNames`: the long form of such a path, as the file system reports it.
-/

namespace BuildLog.Path

/-! ## Recognising short names -/

/-- Whether a component ends here: at a separator, at the end of the path, or at a line feed that
ends the path. -/
def endsComponent : Text → Bool
  | [] => true
  | ['\n'] => true
  | c :: _ => PathStyle.windows.isSeparator c

/-- Whether an extension of one to three characters stands here and ends the component. -/
def isShortExtension : Text → Bool
  | '.' :: rest =>
    let run := rest.takeWhile fun c => !PathStyle.windows.isSeparator c && c != '.'
    [1, 2, 3].any fun n => n ≤ run.length && endsComponent (rest.drop n)
  | _ => false

/-- Whether the number of a short name stands here and ends the component, with or without an
extension. -/
def isShortTail (text : Text) : Bool :=
  let rest := text.dropWhile Text.isDigit
  !(text.takeWhile Text.isDigit).isEmpty && (endsComponent rest || isShortExtension rest)

/-- Whether the component that starts here is a short name. -/
def startsShortName (text : Text) : Bool :=
  let stem := text.takeWhile fun c => !PathStyle.windows.isSeparator c && c != '~'
  match text.drop stem.length with
  | '~' :: rest => 1 ≤ stem.length && stem.length ≤ 6 && isShortTail rest
  | _ => false

/-- Whether a short name starts behind one of the separators. -/
def hasLaterShortName : Text → Bool
  | [] => false
  | c :: rest =>
    (PathStyle.windows.isSeparator c && startsShortName rest) || hasLaterShortName rest

/-- Whether a component of a path is a short name. -/
def hasShortName (path : Text) : Bool :=
  startsShortName path || hasLaterShortName path

/-! ## Expanding short names -/

/-- What the file system says about the long form of a path: a length, not positive if there is
none, and the text that it left in the buffer. -/
structure LongName where
  length : Int
  buffer : Text

/-- The number of characters that the buffer for a long name holds. -/
def longNameCapacity : Int := 1024

/-- The long form of a path with short names. The path stays as it is on other systems, if the file
system knows no long form, or if that does not fit the buffer. -/
def expandShortNames (onWindows : Bool) (longName : Text → LongName) (path : Text) : Text :=
  if onWindows && hasShortName path then
    let found := longName path
    if 0 < found.length && found.length ≤ longNameCapacity then
      found.buffer.takeWhile (· != '\x00')
    else path
  else path

end BuildLog.Path
