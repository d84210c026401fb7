import BuildLog.Pattern.Escape
import BuildLog.Text.Alphanumeric
import BuildLog.Text.Identifier

/-!
# Lexemes of patterns

The text of a pattern is a row of lexemes: characters, sets and places, quantifiers, and the signs that
open, close and divide groups. Comments, and blanks where a flag asks for it, mean nothing.

* `Lexeme`: one such sign, or the fault that stands in its place;
* `Layout`: whether blanks and comments are left out, in each of the groups that are open;
* `Lexeme.list`: the lexemes of a text, each with its position. The list ends with the first fault.

A backslash at the very end is found as soon as the character in front of it is taken, so it comes
before any other fault of the lexeme that ends there.
-/

namespace BuildLog

/-- A group that is referred to. -/
inductive GroupRef where
  /-- By its number. -/
  | number (number : Nat)
  /-- By its name. -/
  | name (name : Text)
  deriving DecidableEq

/-- What a group is for. -/
inductive GroupKind where
  /-- To keep the text it matches under the next number, and maybe a name. -/
  | capture (name : Option Text)
  /-- To hold its parts together. -/
  | plain
  /-- To look at what follows or at what is in front. -/
  | look (isBehind positive : Bool)
  /-- To settle on the first way to match. -/
  | atomic
  /-- To set some flags and clear others. -/
  | flagged (on off : Text)
  /-- To choose by what another group has kept, which is named in the first characters. -/
  | condition (target : GroupRef) (width : Nat)
  deriving DecidableEq

/-- A sign in the text of a pattern. -/
inductive Lexeme where
  /-- A pattern in itself. -/
  | part (pattern : Pattern)
  /-- A reference to the text of a group, and its number of characters. -/
  | reference (target : GroupRef) (width : Nat)
  /-- A number of repetitions. -/
  | quantifier (greed : Greed) (least : Nat) (most : Option Nat)
  /-- The start of a group. -/
  | opening (kind : GroupKind)
  /-- Flags for the whole pattern. -/
  | wholeFlags (flags : Text)
  /-- A blank or a comment; an open one would go on with any text behind it. -/
  | filler (isOpen : Bool)
  /-- The end of a group. -/
  | closing
  /-- The sign between alternatives. -/
  | bar
  /-- A fault at a position. -/
  | fault (fault : PatternFault) (position : Nat)
  deriving DecidableEq

namespace Lexeme

/-! ## Quantifiers -/

/-- The bounds beyond which no number of repetitions is accepted. -/
def boundLimit : Nat := 4294967295

/-- A quantifier with the sign behind it that says which numbers are tried first. -/
def withGreed (least : Nat) (most : Option Nat) (width : Nat) : Text → Lexeme × Nat
  | '?' :: _ => (quantifier .lazy least most, width + 1)
  | '+' :: _ => (quantifier .possessive least most, width + 1)
  | _ => (quantifier .greedy least most, width)

/-- The fault of a bound, if it cannot be read or held. -/
def boundFault? (digits : Text) : Option PatternFault :=
  if Text.digitLimit < digits.length then some (.longBound digits.length)
  else if boundLimit ≤ Pattern.digitsValue 10 digits then some .boundTooLarge
  else none

/-- A quantifier with bounds in braces; a brace that starts none is a character. -/
def readBounds (text : Text) : Lexeme × Nat :=
  let low := text.takeWhile (·.isDigit)
  let afterLow := text.drop low.length
  let comma := afterLow.head? == some ','
  let high := if comma then afterLow.tail.takeWhile (·.isDigit) else low
  let rest := if comma then afterLow.tail.drop high.length else afterLow
  match rest with
  | '}' :: rest =>
    let least := Pattern.digitsValue 10 low
    let most := if high.isEmpty then none else some (Pattern.digitsValue 10 high)
    let width := text.length - rest.length + 1
    if low.isEmpty && !comma then (part (.char '\x7b'), 1)
    else
      match (boundFault? low).or (boundFault? high) with
      | some wrong => (fault wrong 0, width)
      | none =>
        if most.any (· < least) then (fault .boundsReversed 1, width)
        else withGreed least most width rest
  | _ => (part (.char '\x7b'), 1)

/-! ## Flags -/

/-- The letters of flags: for the alphabets, for comparing, and for how the text is written. -/
def flagLetters : Text := "aiLmstux".toList

/-- The letters of the flags that name an alphabet. -/
def alphabetLetters : Text := "aLu".toList

/-- The fault of a sign that is no flag: a letter is an unknown flag, all else stands where something is
missing. -/
def flagFault (c : Char) (what : String) : PatternFault :=
  if Text.isLetter c then .unknownFlag else .missing what.toList

/-- The flags that are set, behind those that were read up to the given offset, as far as the sign behind
them, which is left in the text. -/
def readOn (offset : Nat) (on : Text) : Text → Pattern.Reading (Text × Text)
  | [] => (.error (.missing "-, : or )".toList, offset), offset)
  | c :: rest =>
    if flagLetters.contains c then
      if c == 'L' then (.error (.localeFlag, offset + 1), offset + 1)
      else if alphabetLetters.contains c && on.any (fun d => alphabetLetters.contains d && d != c) then
        (.error (.alphabetFlags, offset + 1), offset + 1)
      else readOn (offset + 1) (on ++ [c]) rest
    else if c == ')' || c == '-' || c == ':' then (.ok (on, c :: rest), offset)
    else
      (.error (flagFault c "-, : or )", offset), offset + (Pattern.leadingSign (c :: rest)).length)

/-- The flags that are cleared, behind those that were read up to the given offset, with the sign behind
them. -/
def readOff (offset : Nat) (off : Text) : Text → Pattern.Reading Text
  | [] => (.error (.missing (if off.isEmpty then "flag" else ":").toList, offset), offset)
  | c :: rest =>
    if flagLetters.contains c then
      if alphabetLetters.contains c then (.error (.alphabetOff, offset + 1), offset + 1)
      else readOff (offset + 1) (off ++ [c]) rest
    else if c == ':' && !off.isEmpty then (.ok off, offset + 1)
    else
      (.error (flagFault c (if off.isEmpty then "flag" else ":"), offset),
        offset + (Pattern.leadingSign (c :: rest)).length)

/-- The start of a group with flags, behind the minus sign at the end of those that are set. -/
def readCleared (offset : Nat) (on : Text) (text : Text) : Lexeme × Nat :=
  match readOff offset [] text with
  | (.error (wrong, place), width) => (fault wrong place, width)
  | (.ok off, width) =>
    if off.contains 't' then (fault .globalOff (width - 1), width)
    else if on.any (off.contains ·) then (fault .contradictoryFlags (width - 1), width)
    else (opening (.flagged on off), width)

/-- What flags are for, by the sign behind those that are set: the whole pattern, or a group in which others
may be cleared. -/
def readFlagSign (offset : Nat) (on : Text) : Text → Lexeme × Nat
  | [] => (fault .unexpectedEnd offset, offset)
  | ')' :: _ => (wholeFlags on, offset + 1)
  | sign :: rest =>
    if on.contains 't' then (fault .globalOn offset, offset + 1)
    else if sign == ':' then (opening (.flagged on []), offset + 1)
    else readCleared (offset + 1) on rest

/-- The flags of a group or of the whole pattern, behind the question mark. -/
def readFlags (text : Text) : Lexeme × Nat :=
  match readOn 2 [] text with
  | (.error (wrong, place), width) => (fault wrong place, width)
  | (.ok (on, rest), width) => readFlagSign width on rest

/-! ## Groups -/

/-- The number from which on no group can be asked for. -/
def groupLimit : Nat := 1073741823

/-- The group that keeps its text under a name, behind the sign in front of the name. -/
def readNamedCapture (text : Text) : Lexeme × Nat :=
  match Pattern.readName '>' "group name" text with
  | (.error (wrong, _), width) => (fault wrong 4, width + 4)
  | (.ok name, width) =>
    if Text.isIdentifier name then (opening (.capture (some name)), width + 4)
    else (fault (.badGroupName name) 4, width + 4)

/-- The reference to a group by its name, behind the sign in front of the name. -/
def readNamedReference (text : Text) : Lexeme × Nat :=
  match Pattern.readName ')' "group name" text with
  | (.error (wrong, _), width) => (fault wrong 4, width + 4)
  | (.ok name, width) =>
    if Text.isIdentifier name then (reference (.name name) (width + 4), width + 4)
    else (fault (.badGroupName name) 4, width + 4)

/-- The group of a condition with its name or number. -/
def conditionGroup (name : Text) : Except PatternFault GroupRef :=
  if Text.isIdentifier name then .ok (.name name)
  else
    match Text.readInt? name with
    | some (.ofNat number) =>
      if number = 0 then .error .zeroGroup
      else if groupLimit ≤ number then .error (.unknownGroup number)
      else .ok (.number number)
    | _ => .error (.badGroupName name)

/-- The start of a choice by what a group has kept, behind the second parenthesis. -/
def readCondition (text : Text) : Lexeme × Nat :=
  match Pattern.readName ')' "group name" text with
  | (.error (wrong, _), width) => (fault wrong 3, width + 3)
  | (.ok name, width) =>
    match conditionGroup name with
    | .error wrong => (fault wrong 3, width + 3)
    | .ok group => (opening (.condition group (width + 3)), width + 3)

/-- The comment behind its number sign. -/
def readComment (text : Text) : Lexeme × Nat :=
  let (front, back) := Pattern.beforeSign ')' text
  if back.head? == some ')' then (filler false, front.length + 4)
  else (fault .unterminatedComment 0, front.length + 3)

/-- The fault of signs that stand for no kind of group, behind some that may. -/
def unknownGroupKind (front : Text) : Text → Lexeme × Nat
  | [] => (fault .unexpectedEnd (2 + front.length), 2 + front.length)
  | text =>
    let sign := Pattern.leadingSign text
    (fault (.unknownExtension (front ++ sign)) 1, 2 + front.length + sign.length)

/-- The group behind an opening parenthesis and a question mark. -/
def readExtension : Text → Lexeme × Nat
  | ':' :: _ => (opening .plain, 3)
  | '=' :: _ => (opening (.look false true), 3)
  | '!' :: _ => (opening (.look false false), 3)
  | '<' :: '=' :: _ => (opening (.look true true), 4)
  | '<' :: '!' :: _ => (opening (.look true false), 4)
  | '<' :: rest => unknownGroupKind ['<'] rest
  | '>' :: _ => (opening .atomic, 3)
  | '#' :: rest => readComment rest
  | '(' :: rest => readCondition rest
  | 'P' :: '<' :: rest => readNamedCapture rest
  | 'P' :: '=' :: rest => readNamedReference rest
  | 'P' :: rest => unknownGroupKind ['P'] rest
  | text =>
    if text.head?.any fun c => flagLetters.contains c || c == '-' then readFlags text
    else unknownGroupKind [] text

/-! ## All lexemes -/

/-- The reference or the character that digits stand for behind a backslash: a leading zero or three
octal digits give a character, other numbers name a group. -/
def readNumber (digit : Char) (rest : Text) : Lexeme × Nat :=
  let asChar (digits : Text) : Lexeme × Nat :=
    match Pattern.readOctal digits with
    | (.ok code, width) => (part (.ofCode code), width)
    | (.error (wrong, offset), width) => (fault wrong offset, width)
  let asGroup (digits : Text) : Lexeme × Nat :=
    (reference (.number (Pattern.digitsValue 10 digits)) (digits.length + 1), digits.length + 1)
  if digit == '0' then asChar ('0' :: (rest.take 2).takeWhile Pattern.isOctal)
  else
    match rest with
    | second :: third :: _ =>
      if Pattern.isOctal digit && Pattern.isOctal second && Pattern.isOctal third then
        asChar [digit, second, third]
      else if second.isDigit then asGroup [digit, second]
      else asGroup [digit]
    | [second] => if second.isDigit then asGroup [digit, second] else asGroup [digit]
    | [] => asGroup [digit]

/-- The lexeme that is written with a backslash. -/
def readEscape (letter : Char) (rest : Text) : Lexeme × Nat :=
  match Pattern.anchorEscape? letter, Pattern.classEscape? letter with
  | some place, _ => (part (.anchor place), 2)
  | none, some member => (part (.set false [member]), 2)
  | none, none =>
    if letter.isDigit then readNumber letter rest
    else
      match Pattern.readChar letter rest with
      | (.ok code, width) => (part (.ofCode code), width)
      | (.error (wrong, offset), width) => (fault wrong offset, width)

/-- The set behind an opening bracket, as a lexeme. -/
def readBracket (text : Text) : Lexeme × Nat :=
  match Pattern.readSet text with
  | (.ok set, width) => (part set, width)
  | (.error (wrong, offset), width) => (fault wrong offset, width)

/-- The lexeme at the start of a text, the characters that it takes, and for a fault its offset. -/
def readSign : Text → Lexeme × Nat
  | [] => (part .empty, 0)
  | ['\\'] => (fault .danglingEscape 0, 1)
  | '\\' :: letter :: rest => readEscape letter rest
  | '.' :: _ => (part .anyChar, 1)
  | '^' :: _ => (part (.anchor .start), 1)
  | '$' :: _ => (part (.anchor .finish), 1)
  | '|' :: _ => (bar, 1)
  | ')' :: _ => (closing, 1)
  | '(' :: '?' :: rest => readExtension rest
  | '(' :: _ => (opening (.capture none), 1)
  | '[' :: rest => readBracket rest
  | '*' :: rest => withGreed 0 none 1 rest
  | '+' :: rest => withGreed 1 none 1 rest
  | '?' :: rest => withGreed 0 (some 1) 1 rest
  | '\x7b' :: rest => readBounds rest
  | c :: _ => (part (.char c), 1)

/-- The blanks that may be left out. -/
def looseBlanks : Text := " \t\n\r\x0b\x0c".toList

/-- The lexeme at the start of a text where blanks are left out, and comments up to the end of a line. -/
def readLoose : Text → Lexeme × Nat
  | '#' :: rest =>
    let (front, back) := Pattern.beforeSign '\n' rest
    if back.head? == some '\n' then (filler false, front.length + 2)
    else (filler true, front.length + 1)
  | text =>
    if text.head?.any looseBlanks.contains then (filler false, 1) else readSign text

/-- Whether a lexeme is put in its place before the character behind it is looked at. -/
def isPlacedFirst : Lexeme → Bool
  | closing | bar => true
  | quantifier .lazy .. => true
  | quantifier .possessive .. => true
  | _ => false

/-- The lexeme at the start of a text; a backslash that ends the text right behind it is a fault. -/
def read (loose : Bool) (text : Text) : Lexeme × Nat :=
  let (sign, width) := if loose then readLoose text else readSign text
  if text.drop width == ['\\'] && !sign.isPlacedFirst then (fault .danglingEscape width, width)
  else (sign, width)

end Lexeme

/-! ## Layouts -/

/-- Whether blanks and comments are left out in the innermost open group, and in those around it. -/
structure Layout where
  loose : Bool
  outer : List Bool
  deriving DecidableEq

namespace Layout

/-- The layout of a text in which every character counts. -/
def strict : Layout := ⟨false, []⟩

/-- Whether blanks are left out in a group, given whether they are around it. -/
def within (loose : Bool) : GroupKind → Bool
  | .flagged on off => Mode.switch on off 'x' loose
  | _ => loose

/-- The layout behind a lexeme. -/
def behind (layout : Layout) : Lexeme → Layout
  | .opening kind => ⟨within layout.loose kind, layout.loose :: layout.outer⟩
  | .closing =>
    match layout.outer with
    | [] => layout
    | loose :: outer => ⟨loose, outer⟩
  | .wholeFlags flags => ⟨flags.contains 'x' || layout.loose, layout.outer⟩
  | _ => layout

end Layout

namespace Lexeme

/-- The lexemes that start behind the first `skip` characters of a text with a layout. -/
def listFrom : Nat → Nat → Layout → Text → List (Nat × Lexeme)
  | _, _, _, [] => []
  | position, skip + 1, layout, _ :: rest => listFrom (position + 1) skip layout rest
  | position, 0, layout, c :: rest =>
    match read layout.loose (c :: rest) with
    | (fault wrong offset, _) => [(position, fault wrong (position + offset))]
    | (sign, width) =>
      (position, sign) :: listFrom (position + 1) (width - 1) (layout.behind sign) rest

/-- The lexemes of a text, each with its position. -/
def list (text : Text) : List (Nat × Lexeme) :=
  listFrom 0 0 .strict text

end Lexeme
end BuildLog
