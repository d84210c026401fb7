import BuildLog.Text.NameTable
import BuildLog.Text.Span

/-!
# Characters by name

* `Text.named?`: the character with a name of Unicode 14. Most names stand in tables; those of ideographs
  tell the code point, and those of Hangul syllables are put together from the names of their letters.
-/

namespace BuildLog.Text

/-! ## Names in tables -/

/-- The words of a text, with a space between each two of them. -/
def nameWords (text : String) : List Text :=
  (text.splitOn " ").map (·.toList)

/-- The number in a run of ASCII digits. -/
def decimalValue (digits : Text) : Nat :=
  digits.foldl (fun value c => value * 10 + (c.toNat - '0'.toNat)) 0

/-- The code points of the entries of a table, each with its name. `next` is the code point behind the entry
in front, and `words` are the words of its name. -/
def readTable (next : Nat) (words : List Text) : List String → List (Nat × Text)
  | [] => []
  | entry :: entries =>
    let (code, own) :=
      match entry.splitOn ":" with
      | [code, own] => (decimalValue code.toList, own)
      | _ => (next, entry)
    let shared := own.toList.takeWhile (·.isDigit)
    let words := words.take (decimalValue shared) ++ nameWords (own.drop shared.length).toString
    (code, joined [' '] words) :: readTable (code + 1) words entries

/-- The tables of names. -/
def nameTables : List String :=
  [NameTable.latinNames, NameTable.southNames, NameTable.signNames, NameTable.eastNames,
    NameTable.ancientNames, NameTable.wedgeNames, NameTable.pictureNames, NameTable.emojiNames,
    NameTable.aliases]

/-- The entries of a table. -/
def tableEntries (table : String) : List String :=
  (table.splitOn ";").map fun entry => entry.trimAsciiStart.toString

/-- The code point with a name in one of the tables. -/
def codeInTables? (name : Text) : Option Nat :=
  nameTables.findSome? fun table =>
    ((readTable 0 [] (tableEntries table)).find? (·.2 == name)).map (·.1)

/-! ## Names made by a rule -/

/-- A code point in hexadecimal, as it stands in a name. -/
def codeText (code : Nat) : Text :=
  (Nat.toDigits 16 code).map Char.toUpper

/-- The value of a hexadecimal number in upper case. -/
def codeValue? (digits : Text) : Option Nat :=
  digits.foldlM (fun value c =>
    if c.isDigit then some (value * 16 + (c.toNat - '0'.toNat))
    else if 'A' ≤ c && c ≤ 'F' then some (value * 16 + (c.toNat - 'A'.toNat + 10))
    else none) 0

/-- The unified ideographs. -/
def unifiedSpans : List Span :=
  [(0x3400, 0x4DBF), (0x4E00, 0x9FFF), (0x20000, 0x2A6DF), (0x2A700, 0x2B738), (0x2B740, 0x2B81D),
   (0x2B820, 0x2CEA1), (0x2CEB0, 0x2EBE0), (0x30000, 0x3134A)]

/-- The code point of a unified ideograph, which its name ends with in four or five digits. -/
def unifiedCode? (digits : Text) : Option Nat :=
  if digits.length = 4 || digits.length = 5 then
    (codeValue? digits).filter fun code =>
      unifiedSpans.any fun span => span.1 ≤ code && code ≤ span.2
  else none

/-- Other characters whose names end with their code points, and what the names start with. -/
def numberedFamilies : List (Text × List Span) :=
  [("CJK COMPATIBILITY IDEOGRAPH-".toList, [(0xF900, 0xFA6D), (0xFA70, 0xFAD9), (0x2F800, 0x2FA1D)]),
   ("KHITAN SMALL SCRIPT CHARACTER-".toList, [(0x18B00, 0x18CD5)]),
   ("NUSHU CHARACTER-".toList, [(0x1B170, 0x1B2FB)])]

/-- The code point of a character of these families. -/
def numberedCode? (name : Text) : Option Nat :=
  numberedFamilies.findSome? fun (start, spans) =>
    (start.isPrefixOf? name).bind fun digits =>
      (codeValue? digits).filter fun code =>
        codeText code == digits && spans.any fun span => span.1 ≤ code && code ≤ span.2

/-- The first letters of Hangul syllables, by name. -/
def leadingLetters : List Text :=
  nameWords "G GG N D DD R M B BB S SS  J JJ C K T P H"

/-- The vowels of Hangul syllables, by name. -/
def vowelLetters : List Text :=
  nameWords "A AE YA YAE EO E YEO YE O WA WAE OE YO U WEO WE WI YU EU YI I"

/-- The last letters of Hangul syllables, by name; the first of them is none. -/
def trailingLetters : List Text :=
  nameWords " G GG GS N NJ NH D L LG LM LB LS LT LP LH M B BS S SS NG J C K T P H"

/-- The places in a list of letters that a text starts with, each with what follows. -/
def letterPlaces (letters : List Text) (text : Text) : List (Nat × Text) :=
  letters.zipIdx.filterMap fun (letter, place) => (letter.isPrefixOf? text).map fun rest => (place, rest)

/-- The code point of a syllable that is put together from the names of its letters. -/
def syllableCode? (letters : Text) : Option Nat :=
  let found := (letterPlaces leadingLetters letters).flatMap fun (leading, rest) =>
    (letterPlaces vowelLetters rest).flatMap fun (vowel, rest) =>
      (letterPlaces trailingLetters rest).filterMap fun (trailing, rest) =>
        if rest.isEmpty then some (0xAC00 + (leading * 21 + vowel) * 28 + trailing) else none
  found.head?

/-! ## All names -/

/-- The character with a name. Only for names made by a rule from ideographs and syllables the case of letters
counts. -/
def named? (name : Text) : Option Char :=
  let code :=
    match "HANGUL SYLLABLE ".toList.isPrefixOf? name, "CJK UNIFIED IDEOGRAPH-".toList.isPrefixOf? name with
    | some letters, _ => syllableCode? letters
    | none, some digits => unifiedCode? digits
    | none, none =>
      let name := name.map Char.toUpper
      (numberedCode? name).orElse fun _ => codeInTables? name
  code.map Char.ofNat

end BuildLog.Text
