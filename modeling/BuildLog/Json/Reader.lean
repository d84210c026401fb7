import BuildLog.Json.Value
import BuildLog.Text.WholeNumber

/-!
# Reading JSON

* `Json.read`: the value of a document. The document holds exactly one value, with white space around
  it; `NaN`, `Infinity` and `-Infinity` count as numbers, and halves of surrogate pairs are kept as they are;
* `Json.ReadingFault`: why there is none: a broken rule, or something that is allowed but too much to be
  read.

Each reader takes a text that starts with what it reads, and gives back the rest of it.
-/

namespace BuildLog.Json

/-! ## Faults -/

/-- Why a document has no value. -/
inductive ReadingFault where
  /-- It breaks a rule. -/
  | noDocument
  /-- A whole number has too many digits. -/
  | longNumber (digits : Nat)
  /-- Too many lists and objects stand inside each other. -/
  | deepNesting
  deriving DecidableEq

/-- What a fault says. -/
def ReadingFault.message : ReadingFault → Text
  | noDocument => "no JSON document".toList
  | longNumber digits => Text.longNumberMessage (some digits)
  | deepNesting => "maximum recursion depth exceeded while decoding a JSON document".toList

/-- What is read, if the rules are kept. -/
def orBroken {α : Type} : Option α → Except ReadingFault α
  | some found => .ok found
  | none => .error .noDocument

/-! ## Parts of values -/

/-- Whether a character may stand between the parts of a document. -/
def isFiller (c : Char) : Bool :=
  c == ' ' || c == '\t' || c == '\n' || c == '\r'

/-- A text without the fillers in front of it. -/
def skipFiller (text : Text) : Text :=
  text.dropWhile isFiller

/-- The value of a hexadecimal digit. -/
def hexValue? (c : Char) : Option Nat :=
  if c.isDigit then some (c.toNat - '0'.toNat)
  else if 'a' ≤ c && c ≤ 'f' then some (c.toNat - 'a'.toNat + 10)
  else if 'A' ≤ c && c ≤ 'F' then some (c.toNat - 'A'.toNat + 10)
  else none

/-- Four hexadecimal digits. -/
def readUnit? : Text → Option (Nat × Text)
  | a :: b :: c :: d :: rest => do
    let a ← hexValue? a
    let b ← hexValue? b
    let c ← hexValue? c
    let d ← hexValue? d
    return (((a * 16 + b) * 16 + c) * 16 + d, rest)
  | _ => none

/-- The code point of two halves of a surrogate pair. -/
def pairedCode (high low : Nat) : Nat :=
  0x10000 + (high - 0xD800) * 0x400 + (low - 0xDC00)

/-- Whether a unit is the first half of a surrogate pair. -/
def isHigh (unit : Nat) : Bool :=
  0xD800 ≤ unit && unit < 0xDC00

/-- Whether a unit is the second half of a surrogate pair. -/
def isLow (unit : Nat) : Bool :=
  0xDC00 ≤ unit && unit < 0xE000

/-- The code point behind `\u`; two escapes that form a surrogate pair are one. -/
def readUnicode? (text : Text) : Option (Nat × Text) := do
  let (unit, rest) ← readUnit? text
  match isHigh unit, rest with
  | true, '\\' :: 'u' :: more =>
    let (low, tail) ← readUnit? more
    return if isLow low then (pairedCode unit low, tail) else (unit, rest)
  | _, _ => return (unit, rest)

/-- The character that a letter stands for behind a backslash. -/
def escaped? : Char → Option Char
  | '"' => some '"'
  | '\\' => some '\\'
  | '/' => some '/'
  | 'b' => some '\x08'
  | 'f' => some '\x0c'
  | 'n' => some '\n'
  | 'r' => some '\r'
  | 't' => some '\t'
  | _ => none

/-- The code points up to the closing quote. The number bounds the characters that are read. -/
def readText? : Nat → Text → Option (Codes × Text)
  | 0, _ => none
  | _, [] => none
  | _ + 1, '"' :: rest => some ([], rest)
  | bound + 1, '\\' :: 'u' :: rest => do
    let (code, rest) ← readUnicode? rest
    let (codes, rest) ← readText? bound rest
    return (code :: codes, rest)
  | bound + 1, '\\' :: letter :: rest => do
    let c ← escaped? letter
    let (codes, rest) ← readText? bound rest
    return (c.toNat :: codes, rest)
  | bound + 1, c :: rest =>
    if c.toNat < 0x20 || c == '\\' then none
    else do
      let (codes, rest) ← readText? bound rest
      return (c.toNat :: codes, rest)

/-! ## Numbers -/

/-- A run of digits as a number. -/
def digitsValue (digits : Text) : Nat :=
  digits.foldl (fun value c => value * 10 + (c.toNat - '0'.toNat)) 0

/-- The whole part of a number: a zero, or digits that do not start with one. -/
def readWhole? : Text → Option (Text × Text)
  | '0' :: rest => some (['0'], rest)
  | text =>
    let digits := text.takeWhile (·.isDigit)
    if digits.isEmpty then none else some (digits, text.drop digits.length)

/-- The digits behind a point, if there are any. -/
def readFraction : Text → Text × Text
  | '.' :: rest =>
    let digits := rest.takeWhile (·.isDigit)
    if digits.isEmpty then ([], '.' :: rest) else (digits, rest.drop digits.length)
  | text => ([], text)

/-- The sign and the digits of an exponent. -/
def readPower? (negative : Bool) (text : Text) : Option (Int × Text) :=
  let digits := text.takeWhile (·.isDigit)
  let value : Int := digitsValue digits
  if digits.isEmpty then none
  else some (if negative then -value else value, text.drop digits.length)

/-- The exponent of a number, if there is one. -/
def readExponent? : Text → Option (Int × Text)
  | mark :: '-' :: rest => if mark == 'e' || mark == 'E' then readPower? true rest else none
  | mark :: '+' :: rest => if mark == 'e' || mark == 'E' then readPower? false rest else none
  | mark :: rest => if mark == 'e' || mark == 'E' then readPower? false rest else none
  | [] => none

/-- A number without its sign. Only whole numbers may have too many digits. -/
def readMagnitude (negative : Bool) (text : Text) : Except ReadingFault (Json Codes × Text) := do
  let (whole, rest) ← orBroken (readWhole? text)
  let (fraction, rest) := readFraction rest
  let digits := digitsValue (whole ++ fraction)
  match readExponent? rest with
  | some (exponent, rest) =>
    return (.double (.ofDecimal negative digits (exponent - fraction.length)), rest)
  | none =>
    if !fraction.isEmpty then
      return (.double (.ofDecimal negative digits (-fraction.length)), rest)
    else if Text.digitLimit < whole.length then throw (.longNumber whole.length)
    else return (.int (if negative then -(digits : Int) else digits), rest)

/-! ## Values -/

/-- The values that are written as words. -/
def words : List (Text × Json Codes) :=
  [("null".toList, .null), ("true".toList, .bool true), ("false".toList, .bool false),
    ("NaN".toList, .double .nan), ("Infinity".toList, .double (.infinite false)),
    ("-Infinity".toList, .double (.infinite true))]

/-- The word that a text starts with. -/
def readWord? (text : Text) : List (Text × Json Codes) → Option (Json Codes × Text)
  | [] => none
  | (word, value) :: more =>
    match word.isPrefixOf? text with
    | some rest => some (value, rest)
    | none => readWord? text more

/-- A value that holds no other values. -/
def readScalar (text : Text) : Except ReadingFault (Json Codes × Text) :=
  match readWord? text words with
  | some found => .ok found
  | none =>
    match text with
    | '-' :: rest => readMagnitude true rest
    | '"' :: rest =>
      (orBroken (readText? (rest.length + 1) rest)).map fun found => (.string found.1, found.2)
    | text => readMagnitude false text

mutual

/-- A value, with room for the given number of levels; each bracket and each brace takes one. The second
number bounds the steps of reading. -/
def readValue : Nat → Nat → Text → Except ReadingFault (Json Codes × Text)
  | _, 0, _ => .error .noDocument
  | 0, _ + 1, '[' :: _ => .error .deepNesting
  | 0, _ + 1, '{' :: _ => .error .deepNesting
  | room + 1, bound + 1, '[' :: rest =>
    match skipFiller rest with
    | ']' :: rest => .ok (.array [], rest)
    | rest => do
      let (items, rest) ← readItems room bound rest
      return (.array items, rest)
  | room + 1, bound + 1, '{' :: rest =>
    match skipFiller rest with
    | '}' :: rest => .ok (.object [], rest)
    | rest => do
      let (members, rest) ← readMembers room bound rest
      return (.object (distinctMembers members), rest)
  | _, _ + 1, text => readScalar text

/-- The items of a list, with the bracket that closes it. -/
def readItems : Nat → Nat → Text → Except ReadingFault (List (Json Codes) × Text)
  | _, 0, _ => .error .noDocument
  | room, bound + 1, text => do
    let (item, rest) ← readValue room bound text
    match skipFiller rest with
    | ']' :: rest => return ([item], rest)
    | ',' :: rest =>
      let (items, rest) ← readItems room bound (skipFiller rest)
      return (item :: items, rest)
    | _ => throw .noDocument

/-- The members of an object, with the brace that closes it. -/
def readMembers : Nat → Nat → Text → Except ReadingFault (List (Codes × Json Codes) × Text)
  | _, 0, _ => .error .noDocument
  | room, bound + 1, text =>
    match text with
    | '"' :: rest => do
      let (name, rest) ← orBroken (readText? (rest.length + 1) rest)
      match skipFiller rest with
      | ':' :: rest =>
        let (value, rest) ← readValue room bound (skipFiller rest)
        match skipFiller rest with
        | '}' :: rest => return ([(name, value)], rest)
        | ',' :: rest =>
          let (members, rest) ← readMembers room bound (skipFiller rest)
          return ((name, value) :: members, rest)
        | _ => throw .noDocument
      | _ => throw .noDocument
    | _ => throw .noDocument

end

/-- The value of a document, with room for the given number of levels inside the outermost one. -/
def read (room : Nat) (document : Text) : Except ReadingFault (Json Codes) := do
  let (value, rest) ← readValue (room + 1) (2 * document.length + 2) (skipFiller document)
  if (skipFiller rest).isEmpty then return value else throw .noDocument

end BuildLog.Json
