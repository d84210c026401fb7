import BuildLog.Text.Basic

/-!
# Paths of commands

A command is named by a path, and the tool by the last component of that path.

* `PathStyle`: which characters separate components, and whether the case of letters counts;
* `Path.split`: the directory of a path, with its separator, and the name behind it;
* `Path.name`: the name alone.
-/

namespace BuildLog

/-- How paths are written. -/
inductive PathStyle where
  /-- Only `/` separates components, and names are case sensitive. -/
  | posix
  /-- `\` separates components too, and the case of names does not count. -/
  | windows
  deriving DecidableEq

namespace PathStyle

/-- Whether a character separates components. -/
def isSeparator : PathStyle → Char → Bool
  | posix, c => c == '/'
  | windows, c => c == '/' || c == '\\'

/-- Whether names are compared without regard to case. -/
def ignoresCase : PathStyle → Bool
  | posix => false
  | windows => true

end PathStyle

namespace Path

/-- The part of a path behind its last separator. -/
def name (style : PathStyle) (path : Text) : Text :=
  (path.reverse.takeWhile (!style.isSeparator ·)).reverse

/-- The part of a path up to its last separator. -/
def directory (style : PathStyle) (path : Text) : Text :=
  (path.reverse.dropWhile (!style.isSeparator ·)).reverse

/-- A path as its directory and its name. -/
def split (style : PathStyle) (path : Text) : Text × Text :=
  (directory style path, name style path)

/-- Nothing is lost by splitting a path. -/
theorem directory_append_name (style : PathStyle) (path : Text) :
    directory style path ++ name style path = path := by
  rw [directory, name, ← List.reverse_append, List.takeWhile_append_dropWhile,
    List.reverse_reverse]

end Path
end BuildLog
