import BuildLog.Json.Display
import BuildLog.Text.WholeNumber

/-!
# Patterns

Names and version suffixes of tools are described by patterns.

* `Mode`: how characters and places are compared, which flags decide;
* `Pattern`: what a pattern is made of, and `Pattern.width`: how many characters it takes;
* `PatternError`: why a text is no pattern, and where.
-/

namespace BuildLog

/-! ## Modes -/

/-- How characters and places are compared. -/
structure Mode where
  /-- Whether the case of letters is ignored. -/
  ignoreCase : Bool
  /-- Whether only ASCII characters count as digits, blanks, letters of words, and letters with a case. -/
  ascii : Bool
  /-- Whether every line has a start and an end of its own. -/
  lines : Bool
  /-- Whether a line feed is a character like any other. -/
  anyLineFeed : Bool
  deriving DecidableEq

namespace Mode

/-- The mode of a pattern without flags. -/
def plain : Mode := ⟨false, false, false, false⟩

/-- The mode without flags, apart from the case of letters. -/
def ofCase (ignoreCase : Bool) : Mode := { plain with ignoreCase := ignoreCase }

/-- A choice with some flags set and others cleared. -/
def switch (on off : Text) (flag : Char) (before : Bool) : Bool :=
  (on.contains flag || before) && !off.contains flag

/-- A mode with some flags set and others cleared. Of the two alphabets, the last one that is named
counts. -/
def flagged (on off : Text) (mode : Mode) : Mode where
  ignoreCase := switch on off 'i' mode.ignoreCase
  ascii := on.contains 'a' || (mode.ascii && !on.contains 'u')
  lines := switch on off 'm' mode.lines
  anyLineFeed := switch on off 's' mode.anyLineFeed

end Mode

/-! ## Parts -/

/-- A class of characters. -/
inductive CharClass where
  /-- Decimal digits. -/
  | digit
  /-- Blanks. -/
  | blank
  /-- Characters of words. -/
  | word
  deriving DecidableEq

/-- A member of a set of characters. Characters are given by their code points, and a half of a surrogate
pair is none of them. -/
inductive SetMember where
  /-- A character. -/
  | single (code : Nat)
  /-- A character that is the only one of its set. -/
  | lone (c : Char)
  /-- All characters between two, both included. -/
  | range (first last : Nat)
  /-- The characters of a class, or all others. -/
  | ofClass (complement : Bool) (kind : CharClass)
  deriving DecidableEq

/-- A place in a text. -/
inductive Anchor where
  /-- The start of the text, or of a line. -/
  | start
  /-- The end of the text, or the line feed that ends it, or the end of a line. -/
  | finish
  /-- The very start of the text. -/
  | veryStart
  /-- The very end of the text. -/
  | veryEnd
  /-- A place with a character of a word on one side only. -/
  | boundary
  /-- Any other place of a text that is not empty. -/
  | inside
  deriving DecidableEq

/-- In which order the numbers of repetitions are tried. -/
inductive Greed where
  /-- Many first. -/
  | greedy
  /-- Few first. -/
  | lazy
  /-- As many as possible, and no others. -/
  | possessive
  deriving DecidableEq

/-- How many characters a pattern takes, at least and at most. -/
structure Width where
  least : Nat
  most : Option Nat
  deriving DecidableEq

/-- Where one looks. -/
inductive Direction where
  /-- At what follows. -/
  | ahead
  /-- At what is in front, as far back as the pattern is wide. -/
  | behind (width : Width)
  deriving DecidableEq

/-- A pattern. -/
inductive Pattern where
  /-- The empty text. -/
  | empty
  /-- One given character. -/
  | char (c : Char)
  /-- Any character, apart from a line feed. -/
  | anyChar
  /-- A character of a set, or one that is not in it. -/
  | set (complement : Bool) (members : List SetMember)
  /-- A place, without a character. -/
  | anchor (place : Anchor)
  /-- One pattern behind another. -/
  | seq (first second : Pattern)
  /-- One pattern or, failing that, another. -/
  | alt (first second : Pattern)
  /-- A pattern in parentheses; with a number, the text it matches is kept under it. -/
  | group (number : Option Nat) (body : Pattern)
  /-- The text that was kept under a number, by a pattern of the given width. -/
  | backref (number : Nat) (width : Width)
  /-- One pattern if a text was kept under a number, and another one if not. -/
  | ifKept (number : Nat) (yes no : Pattern)
  /-- What must stand at a place, or must not stand there, without being taken. -/
  | look (direction : Direction) (positive : Bool) (body : Pattern)
  /-- A pattern of which only the first way to match counts. -/
  | atomic (body : Pattern)
  /-- A pattern with some flags set and others cleared. -/
  | flagged (on off : Text) (body : Pattern)
  /-- A pattern several times in a row, with or without an upper bound. -/
  | iterate (greed : Greed) (least : Nat) (most : Option Nat) (body : Pattern)
  deriving DecidableEq

/-! ## Widths -/

namespace Width

/-- No character. -/
def zero : Width := ⟨0, some 0⟩

/-- One character. -/
def one : Width := ⟨1, some 1⟩

/-- The width of one pattern behind another. -/
def add (first second : Width) : Width :=
  ⟨first.least + second.least, first.most.bind fun most => second.most.map (most + ·)⟩

/-- The width of one pattern or another. -/
def or (first second : Width) : Width :=
  ⟨min first.least second.least, first.most.bind fun most => second.most.map (max most ·)⟩

/-- The width of a pattern several times in a row. Nothing, however often, is nothing. -/
def times (width : Width) (least : Nat) (most : Option Nat) : Width :=
  ⟨width.least * least,
    if width.most == some 0 || most == some 0 then some 0
    else width.most.bind fun each => most.map (each * ·)⟩

end Width

namespace Pattern

/-- How many characters a pattern takes. -/
def width : Pattern → Width
  | empty | anchor _ | look .. => .zero
  | char _ | anyChar | set .. => .one
  | seq first second => first.width.add second.width
  | alt first second => first.width.or second.width
  | group _ body | atomic body | flagged _ _ body => body.width
  | backref _ width => width
  | ifKept _ yes no => yes.width.or no.width
  | iterate _ least most body => body.width.times least most

end Pattern

/-! ## Errors -/

/-- Why a text is no pattern. -/
inductive PatternFault where
  /-- A backslash ends the text. -/
  | danglingEscape
  /-- A letter or digit has no meaning behind a backslash. -/
  | badEscape (written : Text)
  /-- An escape with too few digits. -/
  | incompleteEscape (written : Text)
  /-- An octal escape beyond the first 256 characters. -/
  | octalTooLarge (written : Text)
  /-- A code point that cannot be held. -/
  | codeTooLarge
  /-- A name that no character has. -/
  | undefinedName (name : Text)
  /-- A set that is never closed. -/
  | unterminatedSet
  /-- A range in a set whose ends are out of order or are no characters. -/
  | badRange (first last : Text)
  /-- A quantifier with nothing in front of it. -/
  | nothingToRepeat
  /-- A quantifier behind another one. -/
  | multipleRepeat
  /-- A quantifier with its bounds out of order. -/
  | boundsReversed
  /-- A quantifier with a bound that cannot be held. -/
  | boundTooLarge
  /-- A quantifier with a bound that has too many digits to be read. -/
  | longBound (digits : Nat)
  /-- A group that is never closed. -/
  | unterminatedGroup
  /-- A comment that is never closed. -/
  | unterminatedComment
  /-- A closing parenthesis without an opening one. -/
  | unbalanced
  /-- A reference to a group that does not exist. -/
  | unknownGroup (number : Nat)
  /-- A reference to a group by a name that no group has. -/
  | unknownGroupName (name : Text)
  /-- A reference to a group from within. -/
  | openGroup
  /-- A reference from behind to a group that is looked for in the same place. -/
  | lookbehindGroup
  /-- A reference to a group with the number zero. -/
  | zeroGroup
  /-- A name that no group can have. -/
  | badGroupName (name : Text)
  /-- A name that another group has. -/
  | groupRedefined (name : Text) (number before : Nat)
  /-- A choice between more than two patterns. -/
  | manyBranches
  /-- Signs behind the start of a group that stand for no kind of group. -/
  | unknownExtension (written : Text)
  /-- The text ends behind the start of a group. -/
  | unexpectedEnd
  /-- Something is missing. -/
  | missing (what : Text)
  /-- A letter that stands for no flag. -/
  | unknownFlag
  /-- The flag for the alphabet of the locale, which a text cannot have. -/
  | localeFlag
  /-- Two alphabets in the flags of one group. -/
  | alphabetFlags
  /-- An alphabet that is cleared. -/
  | alphabetOff
  /-- A flag that is set for a group and can only be set for the whole pattern. -/
  | globalOn
  /-- A flag that is cleared for a group and can only be set for the whole pattern. -/
  | globalOff
  /-- A flag that is set and cleared at once. -/
  | contradictoryFlags
  /-- Flags for the whole pattern behind its start. -/
  | lateFlags
  /-- Two alphabets for the whole pattern. -/
  | alphabetsAtOnce
  /-- A pattern of no fixed width that is looked for in front. -/
  | variableLookbehind
  /-- A pattern that is looked for too far in front. -/
  | longLookbehind
  /-- A repetition where the flag for templates is set. -/
  | template (greed : Greed)
  deriving DecidableEq

namespace PatternFault

/-- A repetition as it is called in a template. -/
def repetitionName : Greed → Text
  | .greedy => "MAX_REPEAT".toList
  | .lazy => "MIN_REPEAT".toList
  | .possessive => "POSSESSIVE_REPEAT".toList

/-- The fault in words. -/
def message : PatternFault → Text
  | danglingEscape => "bad escape (end of pattern)".toList
  | badEscape written => "bad escape ".toList ++ written
  | incompleteEscape written => "incomplete escape ".toList ++ written
  | octalTooLarge written =>
    "octal escape value ".toList ++ written ++ " outside of range 0-0o377".toList
  | codeTooLarge => "int too large to convert to C int".toList
  | undefinedName name => "undefined character name ".toList ++ Json.quotedVisible name
  | unterminatedSet => "unterminated character set".toList
  | badRange first last => "bad character range ".toList ++ first ++ '-' :: last
  | nothingToRepeat => "nothing to repeat".toList
  | multipleRepeat => "multiple repeat".toList
  | boundsReversed => "min repeat greater than max repeat".toList
  | boundTooLarge => "the repetition number is too large".toList
  | longBound digits => Text.longNumberMessage (some digits)
  | unterminatedGroup => "missing ), unterminated subpattern".toList
  | unterminatedComment => "missing ), unterminated comment".toList
  | unbalanced => "unbalanced parenthesis".toList
  | unknownGroup number => "invalid group reference ".toList ++ Text.ofNat number
  | unknownGroupName name => "unknown group name ".toList ++ Json.quotedVisible name
  | openGroup => "cannot refer to an open group".toList
  | lookbehindGroup => "cannot refer to group defined in the same lookbehind subpattern".toList
  | zeroGroup => "bad group number".toList
  | badGroupName name => "bad character in group name ".toList ++ Json.quotedVisible name
  | groupRedefined name number before =>
    "redefinition of group name ".toList ++ Json.quotedVisible name ++ " as group ".toList ++
      Text.ofNat number ++ "; was group ".toList ++ Text.ofNat before
  | manyBranches => "conditional backref with more than two branches".toList
  | unknownExtension written => "unknown extension ?".toList ++ written
  | unexpectedEnd => "unexpected end of pattern".toList
  | missing what => "missing ".toList ++ what
  | unknownFlag => "unknown flag".toList
  | localeFlag => "bad inline flags: cannot use 'L' flag with a str pattern".toList
  | alphabetFlags => "bad inline flags: flags 'a', 'u' and 'L' are incompatible".toList
  | alphabetOff => "bad inline flags: cannot turn off flags 'a', 'u' and 'L'".toList
  | globalOn => "bad inline flags: cannot turn on global flag".toList
  | globalOff => "bad inline flags: cannot turn off global flag".toList
  | contradictoryFlags => "bad inline flags: flag turned on and off".toList
  | lateFlags => "global flags not at the start of the expression".toList
  | alphabetsAtOnce => "ASCII and UNICODE flags are incompatible".toList
  | variableLookbehind => "look-behind requires fixed-width pattern".toList
  | longLookbehind => "looks too much behind".toList
  | template greed => "internal: unsupported template operator ".toList ++ repetitionName greed

/-- What kind of error a fault is. -/
inductive Kind where
  /-- An error of the pattern. -/
  | pattern
  /-- A value that does not fit, as of any other text. -/
  | value
  /-- A number that is too large for the machine. -/
  | overflow
  deriving DecidableEq

/-- The kind of a fault. -/
def kind : PatternFault → Kind
  | codeTooLarge | boundTooLarge => .overflow
  | longBound _ | alphabetsAtOnce => .value
  | _ => .pattern

/-- Whether a fault is found at a place, and not in the pattern as a whole. -/
def hasPlace : PatternFault → Bool
  | codeTooLarge | boundTooLarge | longBound _ | alphabetsAtOnce => false
  | variableLookbehind | longLookbehind | template _ => false
  | _ => true

end PatternFault

/-- A fault and its place in the text of a pattern. -/
structure PatternError where
  fault : PatternFault
  position : Nat
  source : Text
  deriving DecidableEq

namespace PatternError

/-- The place as line and column, both counted from one. -/
def lineAndColumn (error : PatternError) : Text :=
  let before := error.source.take error.position
  let line := before.count '\n' + 1
  let column := (before.reverse.takeWhile (· != '\n')).length + 1
  " (line ".toList ++ Text.ofNat line ++ ", column ".toList ++ Text.ofNat column ++ [')']

/-- Where an error is; the line is told only if there are several. -/
def placeText (error : PatternError) : Text :=
  " at position ".toList ++ Text.ofNat error.position ++
    if error.source.contains '\n' then error.lineAndColumn else []

/-- What an error says. -/
def message (error : PatternError) : Text :=
  error.fault.message ++ if error.fault.hasPlace then error.placeText else []

end PatternError
end BuildLog
