import BuildLog.Json.Value
import BuildLog.Number.Shortest

/-!
# Writing JSON

* `Json.pretty`: a value over several lines, each level indented by two spaces;
* `Json.compact`: a value on one line.

Both are plain ASCII: all other characters are written as escapes of their UTF-16 units.
-/

namespace BuildLog.Json

/-! ## Texts -/

/-- The last `width` hexadecimal digits of a number, in lower case. -/
def hexDigits (width n : Nat) : Text :=
  let digits := Nat.toDigits 16 n
  List.replicate (width - digits.length) '0' ++ digits

/-- One UTF-16 unit as an escape. -/
def unitEscape (unit : Nat) : Text :=
  '\\' :: 'u' :: hexDigits 4 unit

/-- A character inside quotes. -/
def quotedChar (c : Char) : Text :=
  if c == '"' then ['\\', '"']
  else if c == '\\' then ['\\', '\\']
  else if c == '\n' then ['\\', 'n']
  else if c == '\r' then ['\\', 'r']
  else if c == '\t' then ['\\', 't']
  else if c == '\x08' then ['\\', 'b']
  else if c == '\x0c' then ['\\', 'f']
  else if 0x20 ≤ c.toNat && c.toNat < 0x7F then [c]
  else if c.toNat < 0x10000 then unitEscape c.toNat
  else
    let offset := c.toNat - 0x10000
    unitEscape (0xD800 + offset / 0x400) ++ unitEscape (0xDC00 + offset % 0x400)

/-- A text in quotes. -/
def quoted (text : Text) : Text :=
  '"' :: text.flatMap quotedChar ++ ['"']

/-! ## Values -/

/-- A number with a fraction or an exponent, or one that is not finite. -/
def doubleText : Double → Text
  | .nan => "NaN".toList
  | .infinite negative => (if negative then "-Infinity" else "Infinity").toList
  | value => value.text

/-- A value that holds no other values. -/
def scalarText : Json → Text
  | bool true => "true".toList
  | bool false => "false".toList
  | int value => Text.ofInt value
  | double value => doubleText value
  | string value => quoted value
  | _ => "null".toList

/-- How the parts of a list or an object are set apart. -/
structure Layout where
  /-- What stands before a part, given the depth of nesting. -/
  lead : Nat → Text
  /-- What stands between a name and its value. -/
  colon : Text

/-- Each part on a line of its own, indented by two spaces for each level. -/
def Layout.lines : Layout := ⟨fun depth => '\n' :: List.replicate (2 * depth) ' ', [':', ' ']⟩

/-- All on one line. -/
def Layout.line : Layout := ⟨fun _ => [], [':']⟩

mutual

/-- A value at the given depth of nesting. -/
def render (layout : Layout) (depth : Nat) : Json → Text
  | array [] => ['[', ']']
  | array (item :: items) =>
    '[' :: layout.lead (depth + 1) ++ render layout (depth + 1) item ++
      renderItems layout (depth + 1) items ++ layout.lead depth ++ [']']
  | object [] => ['{', '}']
  | object ((name, value) :: members) =>
    '{' :: layout.lead (depth + 1) ++ quoted name ++ layout.colon ++
      render layout (depth + 1) value ++ renderMembers layout (depth + 1) members ++
      layout.lead depth ++ ['}']
  | scalar => scalarText scalar

/-- The items behind the first one. -/
def renderItems (layout : Layout) (depth : Nat) : List Json → Text
  | [] => []
  | item :: items =>
    ',' :: layout.lead depth ++ render layout depth item ++ renderItems layout depth items

/-- The members behind the first one. -/
def renderMembers (layout : Layout) (depth : Nat) : List (Text × Json) → Text
  | [] => []
  | (name, value) :: members =>
    ',' :: layout.lead depth ++ quoted name ++ layout.colon ++ render layout depth value ++
      renderMembers layout depth members

end

/-- A value over several lines. -/
def pretty (value : Json) : Text :=
  render .lines 0 value

/-- A value on one line. -/
def compact (value : Json) : Text :=
  render .line 0 value

end BuildLog.Json
