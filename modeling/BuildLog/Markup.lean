import BuildLog.Text.Basic

/-!
# Markup on the console

What is printed may hold tags in square brackets, such as `[yellow]`.

* `Markup.escape`: a text in which nothing is taken for a tag.

A tag starts with a bracket and a small letter, `#`, `/` or `@`, and ends at the next closing bracket, with
no other opening bracket before that. A backslash in front of it takes its meaning away.
-/

namespace BuildLog.Markup

/-- Whether a tag may start with a character. -/
def startsTag (c : Char) : Bool :=
  c.isLower || c == '#' || c == '/' || c == '@'

/-- The length of the rest of a tag, up to its closing bracket. -/
def tagEnd? : Text → Option Nat
  | [] => none
  | c :: rest =>
    if c == ']' then some 1 else if c == '[' then none else (tagEnd? rest).map (· + 1)

/-- The length of the tag at the start of a text. -/
def tagLength? : Text → Option Nat
  | '[' :: c :: rest => if startsTag c then (tagEnd? rest).map (· + 2) else none
  | _ => none

/-- The number of backslashes at the start of a text and the length of the tag behind them. -/
def leadingTag? (text : Text) : Option (Nat × Nat) :=
  let backslashes := (text.takeWhile (· == '\\')).length
  (tagLength? (text.drop backslashes)).map fun length => (backslashes, length)

/-- A text without tags from behind its first `skip` characters on: the backslashes in front of a tag
are doubled, and one more is put there. -/
def escapeTags : Nat → Text → Text
  | _, [] => []
  | skip + 1, _ :: rest => escapeTags skip rest
  | 0, c :: rest =>
    match leadingTag? (c :: rest) with
    | none => c :: escapeTags 0 rest
    | some (backslashes, length) =>
      List.replicate (2 * backslashes + 1) '\\' ++
        ((c :: rest).drop backslashes).take length ++ escapeTags (backslashes + length - 1) rest

/-- Whether a text ends in exactly one backslash. -/
def endsInBackslash (text : Text) : Bool :=
  match text.reverse with
  | '\\' :: '\\' :: _ => false
  | '\\' :: _ => true
  | _ => false

/-- A text in which nothing is taken for a tag, nor a backslash at its end for part of what follows. -/
def escape (text : Text) : Text :=
  let escaped := escapeTags 0 text
  if endsInBackslash escaped then escaped ++ ['\\'] else escaped

end BuildLog.Markup
