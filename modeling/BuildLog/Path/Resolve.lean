import BuildLog.Path.Basic

/-!
# Resolving paths

Paths in arguments are relative to the directory in which the compiler ran. They are resolved by
their text alone, without a look at any file.

* `Path.isAbsolute`: whether a path is complete, in either notation;
* `Path.normalize`: a path without empty components and `.`, each `..` taken back with the component
  before it;
* `Path.resolve`: a path seen from a directory.
-/

namespace BuildLog.Path

/-! ## Absolute paths -/

/-- Whether a text starts with a drive letter and a colon. -/
def hasDrive : Text → Bool
  | letter :: ':' :: _ => letter.isAlpha
  | _ => false

/-- Whether a path is absolute: it starts with `/`, with a drive and a separator, or with the two
backslashes of a share. -/
def isAbsolute : Text → Bool
  | '/' :: _ => true
  | '\\' :: '\\' :: _ => true
  | letter :: ':' :: c :: _ => letter.isAlpha && (c == '/' || c == '\\')
  | _ => false

/-! ## Components -/

/-- The components of a path between its slashes, the empty ones included. -/
def components : Text → List Text
  | [] => [[]]
  | '/' :: rest => [] :: components rest
  | c :: rest =>
    match components rest with
    | [] => [[c]]
    | first :: others => (c :: first) :: others

/-- The component that means the directory itself. -/
def here : Text := ['.']

/-- The component that means the directory above. -/
def above : Text := ['.', '.']

/-- One more component on a stack of components, innermost first. With `rooted`, the directory above
the root is the root. -/
def push (rooted : Bool) (stack : List Text) (component : Text) : List Text :=
  if component.isEmpty || component == here then stack
  else if component != above then component :: stack
  else
    match stack with
    | [] => if rooted then [] else [above]
    | top :: below => if top == above then above :: top :: below else below

/-- The components that remain, outermost first. -/
def simplify (rooted : Bool) (parts : List Text) : List Text :=
  (parts.foldl (push rooted) []).reverse

/-- The slashes that a path keeps at its start: exactly two are kept, more count as one. -/
def root : Text → Text
  | '/' :: '/' :: '/' :: _ => ['/']
  | '/' :: '/' :: _ => ['/', '/']
  | '/' :: _ => ['/']
  | _ => []

/-- A path without detours; the path that leads nowhere is `.`. -/
def normalize (path : Text) : Text :=
  let start := root path
  let result := start ++ Text.joined ['/'] (simplify (!start.isEmpty) (components path))
  if result.isEmpty then here else result

/-! ## Resolving -/

/-- A path below a directory; a rooted path stands alone. -/
def below (directory path : Text) : Text :=
  if path.head? == some '/' || directory.isEmpty then path
  else if directory.getLast? == some '/' then directory ++ path
  else directory ++ '/' :: path

/-- Every backslash turned into a slash. -/
def withSlashes (path : Text) : Text :=
  path.map fun c => if c == '\\' then '/' else c

/-- A path seen from a directory. Empty and absolute paths stay as they are; below a drive,
backslashes separate components. -/
def resolve (directory path : Text) : Text :=
  if path.isEmpty || isAbsolute path then path
  else
    let relative := if hasDrive directory then withSlashes path else path
    normalize (below directory relative)

theorem resolve_of_isAbsolute {path : Text} (h : isAbsolute path = true) (directory : Text) :
    resolve directory path = path := by
  simp [resolve, h]

theorem ne_nil_of_isAbsolute {path : Text} (h : isAbsolute path = true) : path ≠ [] := by
  rintro rfl
  cases h

end BuildLog.Path
