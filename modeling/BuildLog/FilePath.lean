import BuildLog.Bytes
import BuildLog.Json.Display
import BuildLog.Path.Resolve

/-!
# Paths of files

Files that are read or written are named by paths in the POSIX notation.

* `FilePath`: the root of a path and its components;
* `FilePath.ofText`, `FilePath.text`: a path from its text and back, without empty components and `.`;
* `ReadError`: why a file cannot be read, and `ReadError.message`, what is said then.
-/

namespace BuildLog

/-- A path: no root, one slash or two, and the components. -/
structure FilePath where
  root : Text
  components : List Text
  deriving DecidableEq

namespace FilePath

/-- The components of a text between its slashes, without those that lead nowhere. -/
def componentsOf (text : Text) : List Text :=
  (Path.components text).filter fun component => !component.isEmpty && component != ['.']

/-- The path in a text. Exactly two slashes at the start are a root of their own. -/
def ofText (text : Text) : FilePath :=
  let slashes := (text.takeWhile (· == '/')).length
  let root := if slashes = 2 then ['/', '/'] else if slashes = 0 then [] else ['/']
  ⟨root, componentsOf text⟩

/-- The text of a path; the path that leads nowhere is `.`. -/
def text (path : FilePath) : Text :=
  if path.root.isEmpty && path.components.isEmpty then ['.']
  else path.root ++ Text.joined ['/'] path.components

end FilePath

/-! ## Reading -/

/-- Why a file cannot be read: the number of the error in the operating system, and the error in words. -/
structure ReadError where
  number : Nat
  words : Text
  deriving DecidableEq

namespace ReadError

/-- There is no file of that name. -/
def notFound : ReadError := ⟨2, "No such file or directory".toList⟩

/-- What an error says about a path. -/
def message (error : ReadError) (path : FilePath) : Text :=
  "[Errno ".toList ++ Text.ofNat error.number ++ "] ".toList ++ error.words ++
    ": ".toList ++ Json.quotedVisible path.text

end ReadError

/-- The content of files, as far as they can be read. -/
abbrev Files := FilePath → Except ReadError Bytes

end BuildLog
