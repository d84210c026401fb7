import BuildLog.Json.Reader
import BuildLog.Pattern.Syntax
import BuildLog.Text.CharacterName

/-!
# Escapes and sets of patterns

What stands in a set, or behind a backslash, is read as far as it goes.

* `Pattern.Reading`: something that is read, or the fault in its place;
* `Pattern.readName`: a name up to the sign that ends it;
* `Pattern.readChar`, `Pattern.readOctal`: the characters that escapes stand for;
* `Pattern.readMembers`: the members of a set.
-/

namespace BuildLog.Pattern

/-- Something that is read at the start of a text, or a fault with its offset there; and the number of
characters that were read. -/
abbrev Reading (α : Type) := Except (PatternFault × Nat) α × Nat

/-! ## Names -/

/-- A text cut in front of a sign. A backslash hides the character behind it, and one that ends the text
is left over as well. -/
def beforeSign (stop : Char) : Text → Text × Text
  | [] => ([], [])
  | ['\\'] => ([], ['\\'])
  | '\\' :: c :: rest =>
    let (front, back) := beforeSign stop rest
    ('\\' :: c :: front, back)
  | c :: rest =>
    if c == stop then ([], c :: rest)
    else
      let (front, back) := beforeSign stop rest
      (c :: front, back)

/-- A name with the sign that ends it. -/
def readName (stop : Char) (what : String) (text : Text) : Reading Text :=
  let (name, back) := beforeSign stop text
  let isEnded := back.head? == some stop
  let width := if isEnded then name.length + 1 else name.length
  if name.isEmpty then (.error (.missing what.toList, 0), width)
  else if isEnded then (.ok name, width)
  else (.error (.missing (stop :: ", unterminated name".toList), 0), width)

/-! ## Escapes -/

/-- The value of a run of digits of the given base. -/
def digitsValue (base : Nat) (digits : Text) : Nat :=
  digits.foldl (fun value c => value * base + (Json.hexValue? c).getD 0) 0

/-- Whether a character is an octal digit. -/
def isOctal (c : Char) : Bool :=
  '0' ≤ c && c ≤ '7'

/-- The class that a letter names behind a backslash. -/
def classEscape? : Char → Option SetMember
  | 'd' => some (.ofClass false .digit)
  | 'D' => some (.ofClass true .digit)
  | 's' => some (.ofClass false .blank)
  | 'S' => some (.ofClass true .blank)
  | 'w' => some (.ofClass false .word)
  | 'W' => some (.ofClass true .word)
  | _ => none

/-- The place that a letter names behind a backslash. -/
def anchorEscape? : Char → Option Anchor
  | 'A' => some .veryStart
  | 'Z' => some .veryEnd
  | 'b' => some .boundary
  | 'B' => some .inside
  | _ => none

/-- The control character that a letter stands for behind a backslash. -/
def controlEscape? : Char → Option Char
  | 'a' => some '\x07'
  | 'f' => some '\x0c'
  | 'n' => some '\n'
  | 'r' => some '\r'
  | 't' => some '\t'
  | 'v' => some '\x0b'
  | _ => none

/-- The number of hexadecimal digits that a letter asks for behind a backslash. -/
def hexEscape? : Char → Option Nat
  | 'x' => some 2
  | 'u' => some 4
  | 'U' => some 8
  | _ => none

/-- The number from which on code points cannot be held. -/
def codeLimit : Nat := 2147483648

/-- The code point that is given by some hexadecimal digits. -/
def readHex (letter : Char) (count : Nat) (rest : Text) : Reading Nat :=
  let digits := (rest.take count).takeWhile fun c => (Json.hexValue? c).isSome
  let width := digits.length + 2
  if digits.length < count then (.error (.incompleteEscape ('\\' :: letter :: digits), 0), width)
  else if digitsValue 16 digits < 0x110000 then (.ok (digitsValue 16 digits), width)
  else if codeLimit ≤ digitsValue 16 digits then (.error (.codeTooLarge, 0), width)
  else (.error (.badEscape ('\\' :: letter :: digits), 0), width)

/-- The code point that is given by octal digits. -/
def readOctal (digits : Text) : Reading Nat :=
  if 0o377 < digitsValue 8 digits then
    (.error (.octalTooLarge ('\\' :: digits), 0), digits.length + 1)
  else (.ok (digitsValue 8 digits), digits.length + 1)

/-- The code point of the character with a name in braces, behind the backslash and its letter. -/
def readNamed : Text → Reading Nat
  | '\x7b' :: rest =>
    match readName '}' "character name" rest with
    | (.error (wrong, offset), width) => (.error (wrong, offset + 3), width + 3)
    | (.ok name, width) =>
      match Text.named? name with
      | some c => (.ok c.toNat, width + 3)
      | none => (.error (.undefinedName name, 0), width + 3)
  | _ => (.error (.missing "\x7b".toList, 2), 2)

/-- The code point of what stands for itself, for a control character or for a character with a number or
a name behind a backslash. Other letters have no meaning there. -/
def readChar (letter : Char) (rest : Text) : Reading Nat :=
  match controlEscape? letter, hexEscape? letter with
  | some c, _ => (.ok c.toNat, 2)
  | none, some count => readHex letter count rest
  | none, none =>
    if letter == 'N' then readNamed rest
    else if letter.isAlphanum then (.error (.badEscape ['\\', letter], 0), 2)
    else (.ok letter.toNat, 2)

/-- The pattern of one code point. -/
def ofCode (code : Nat) : Pattern :=
  if code.isValidChar then .char (Char.ofNat code) else .set false [.single code]

/-! ## Sets -/

/-- The member that is written with a backslash. -/
def readMemberEscape (letter : Char) (rest : Text) : Reading SetMember :=
  match classEscape? letter with
  | some member => (.ok member, 2)
  | none =>
    let reading :=
      if letter == 'b' then (.ok '\x08'.toNat, 2)
      else if isOctal letter then readOctal (letter :: (rest.take 2).takeWhile isOctal)
      else readChar letter rest
    (reading.1.map .single, reading.2)

/-- The member at the start of a text. -/
def readMember : Text → Reading SetMember
  | [] => (.error (.unterminatedSet, 0), 0)
  | ['\\'] => (.error (.danglingEscape, 0), 0)
  | '\\' :: letter :: rest => readMemberEscape letter rest
  | c :: _ => (.ok (.single c.toNat), 1)

/-- The sign at the start of a text: a character, or a backslash with the next one. -/
def leadingSign : Text → Text
  | '\\' :: c :: _ => ['\\', c]
  | ['\\'] => []
  | text => text.take 1

/-- The range between two members, if both are characters in order. -/
def rangeOf? : SetMember → SetMember → Option SetMember
  | .single first, .single last => if first ≤ last then some (.range first last) else none
  | _, _ => none

/-- The members of a set behind those that were read, up to the given offset from its start. A bracket
that comes first is a member. The first number bounds the steps of reading. -/
def readMembers : Nat → Nat → List SetMember → Text → Reading (List SetMember)
  | 0, offset, _, _ => (.error (.unterminatedSet, 0), offset)
  | _, offset, _, [] => (.error (.unterminatedSet, 0), offset)
  | _, offset, _, ['\\'] => (.error (.danglingEscape, offset), offset)
  | bound + 1, offset, members, text =>
    if text.head? == some ']' && !members.isEmpty then (.ok members, offset + 1)
    else
      match readMember text with
      | (.error (wrong, place), width) => (.error (wrong, offset + place), offset + width)
      | (.ok member, width) =>
        let behind := offset + width
        match text.drop width with
        | ['-'] => (.error (.unterminatedSet, 0), behind + 1)
        | ['-', '\\'] => (.error (.danglingEscape, behind + 1), behind + 1)
        | '-' :: ']' :: _ => (.ok (members ++ [member, .single '-'.toNat]), behind + 2)
        | '-' :: rest =>
          match readMember rest with
          | (.error (wrong, place), width) =>
            (.error (wrong, behind + 1 + place), behind + 1 + width)
          | (.ok last, width) =>
            let finish := behind + 1 + width
            match rangeOf? member last with
            | some range => readMembers bound finish (members ++ [range]) (rest.drop width)
            | none =>
              let low := leadingSign text
              let high := leadingSign rest
              (.error (.badRange low high, finish - (low.length + 1 + high.length)), finish)
        | rest => readMembers bound behind (members ++ [member]) rest

/-- The set of some members. A set of one character is that character, also in its other cases. -/
def setOf (complement : Bool) (members : List SetMember) : Pattern :=
  match members.eraseDups with
  | [.single code] =>
    if !code.isValidChar then .set complement [.single code]
    else if complement then .set true [.lone (Char.ofNat code)]
    else .char (Char.ofNat code)
  | distinct => .set complement distinct

/-- The set behind an opening bracket. -/
def readSet (text : Text) : Reading Pattern :=
  let complement := text.head? == some '^'
  let start := if complement then 2 else 1
  let body := if complement then text.tail else text
  let (members, width) := readMembers (body.length + 1) start [] body
  (members.map (setOf complement), width)

end BuildLog.Pattern
