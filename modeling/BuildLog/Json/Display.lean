import BuildLog.Json.Writer
import BuildLog.Text.Printable
import BuildLog.Text.WholeNumber

/-!
# Showing values in messages

A value that has no place in a build log is shown in the message about it.

* `Json.display`: a value as it is shown: a text as it is, all else as inside a list;
* `Json.ShowingFault`: why a value cannot be shown;
* `Json.quotedVisible`: a text as it is shown inside a list or as the name of a file, in quotes and with
  escapes for all that cannot be seen.
-/

namespace BuildLog.Json

/-! ## Texts in quotes -/

/-- The quote around a text: a single quote, unless the text holds one and no double quote. -/
def quoteFor (text : Text) : Char :=
  if text.contains '\'' && !text.contains '"' then '"' else '\''

/-- The escape of a character that cannot be seen: two, four or eight hexadecimal digits. -/
def invisibleEscape (c : Char) : Text :=
  if c.toNat < 0x100 then '\\' :: 'x' :: hexDigits 2 c.toNat
  else if c.toNat < 0x10000 then '\\' :: 'u' :: hexDigits 4 c.toNat
  else '\\' :: 'U' :: hexDigits 8 c.toNat

/-- A character inside the given quotes. -/
def visibleChar (quote c : Char) : Text :=
  if c == quote || c == '\\' then ['\\', c]
  else if c == '\n' then ['\\', 'n']
  else if c == '\r' then ['\\', 'r']
  else if c == '\t' then ['\\', 't']
  else if Text.isPrintable c then [c]
  else invisibleEscape c

/-- A text in quotes. -/
def quotedVisible (text : Text) : Text :=
  let quote := quoteFor text
  quote :: text.flatMap (visibleChar quote) ++ [quote]

/-! ## Values -/

/-- Why a value cannot be shown. -/
inductive ShowingFault where
  /-- A whole number has too many digits. -/
  | longNumber
  /-- Too many lists and objects stand inside each other. -/
  | deepNesting
  deriving DecidableEq

/-- What a fault says. -/
def ShowingFault.message : ShowingFault → Text
  | longNumber => Text.longNumberMessage none
  | deepNesting => "maximum recursion depth exceeded while getting the repr of an object".toList

/-- A whole number, unless it has too many digits; its sign does not count. -/
def displayInt (value : Int) : Except ShowingFault Text :=
  if Text.digitLimit < (Text.ofNat value.natAbs).length then .error .longNumber
  else .ok (Text.ofInt value)

mutual

/-- A value inside a list, with room for the given number of levels. An empty list or object takes no
room. The first fault from left to right is told. -/
def displayInner : Nat → Json → Except ShowingFault Text
  | _, null => .ok "None".toList
  | _, bool true => .ok "True".toList
  | _, bool false => .ok "False".toList
  | _, int value => displayInt value
  | _, double value => .ok value.text
  | _, string value => .ok (quotedVisible value)
  | _, array [] => .ok ['[', ']']
  | _, object [] => .ok ['{', '}']
  | 0, array (_ :: _) => .error .deepNesting
  | 0, object (_ :: _) => .error .deepNesting
  | room + 1, array (item :: items) => do
    let first ← displayInner room item
    let others ← displayItems room items
    return '[' :: first ++ others ++ [']']
  | room + 1, object ((name, value) :: members) => do
    let first ← displayInner room value
    let others ← displayMembers room members
    return '{' :: quotedVisible name ++ [':', ' '] ++ first ++ others ++ ['}']

/-- The items behind the first one. -/
def displayItems : Nat → List Json → Except ShowingFault Text
  | _, [] => .ok []
  | room, item :: items => do
    let first ← displayInner room item
    let others ← displayItems room items
    return ',' :: ' ' :: first ++ others

/-- The members behind the first one. -/
def displayMembers : Nat → List (Text × Json) → Except ShowingFault Text
  | _, [] => .ok []
  | room, (name, value) :: members => do
    let first ← displayInner room value
    let others ← displayMembers room members
    return ',' :: ' ' :: quotedVisible name ++ [':', ' '] ++ first ++ others

end

/-- A value as it is shown in a message. -/
def display (room : Nat) : Json → Except ShowingFault Text
  | string value => .ok value
  | value => displayInner room value

end BuildLog.Json
