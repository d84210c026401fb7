import BuildLog.Pattern.Compile
import BuildLog.Text.Alphanumeric
import BuildLog.Text.Blank
import BuildLog.Text.Digit
import BuildLog.Text.LetterCase

/-!
# Matching patterns

* `Pattern.search`: the first way to match that has a good end, where a given function says what becomes
  of an end;
* `Pattern.matchesIn`, `Pattern.matchesAll`: whether a pattern matches a text from its start to its end.

A place knows the text on both sides and the texts that groups have kept so far.
-/

namespace BuildLog.Pattern

/-! ## Places -/

/-- A text that a group has kept, and the place behind it as a number of characters. -/
structure Kept where
  finish : Nat
  text : Text
  deriving DecidableEq

/-- A place in a text: the number of characters in front of it, these characters, the nearest one first,
the characters behind it, and the texts kept by groups. -/
structure Place where
  offset : Nat
  before : Text
  after : Text
  kept : List (Nat × Kept)
  deriving DecidableEq

namespace Place

/-- The place at the start of a text. -/
def start (text : Text) : Place := ⟨0, [], text, []⟩

/-- Whether a place is at the end of its text. -/
def atEnd (place : Place) : Bool :=
  place.after.isEmpty

/-- The place behind the next character, if that is accepted. -/
def advance? (place : Place) (accepts : Char → Bool) : Option Place :=
  match place.after with
  | [] => none
  | c :: rest =>
    if accepts c then some ⟨place.offset + 1, c :: place.before, rest, place.kept⟩ else none

/-- The place a number of characters further back, if there are so many. -/
def back? (place : Place) (count : Nat) : Option Place :=
  if place.before.length < count then none
  else
    some ⟨place.offset - count, place.before.drop count,
      (place.before.take count).reverse ++ place.after, place.kept⟩

/-- The place where one looks in a direction. -/
def towards? (place : Place) : Direction → Option Place
  | .ahead => some place
  | .behind width => place.back? width.least

/-- The text that a group has kept. -/
def kept? (place : Place) (number : Nat) : Option Text :=
  (place.kept.lookup number).map (·.text)

/-- A place where a group starts anew. What it has kept before and left behind is forgotten. -/
def reopen (place : Place) (number : Nat) : Place :=
  { place with kept := place.kept.filter fun entry =>
      entry.1 != number || place.offset ≤ entry.2.finish }

/-- A place with the text since an earlier place kept by a group. -/
def keep (place : Place) (number : Nat) (since : Place) : Place :=
  let text := since.after.take (place.offset - since.offset)
  { place with kept := (number, ⟨place.offset, text⟩) :: place.kept.filter (·.1 != number) }

/-- A place with what groups kept at another one. -/
def keeping (place other : Place) : Place :=
  { place with kept := other.kept }

end Place

/-! ## Characters -/

/-- Whether a class holds a character. -/
def inClass (ascii : Bool) (kind : CharClass) (c : Char) : Bool :=
  if ascii then
    match kind with
    | .digit => c.isDigit
    | .blank => c.isWhitespace || c == '\x0b' || c == '\x0c'
    | .word => c.isAlphanum || c == '_'
  else
    match kind with
    | .digit => Text.isDigit c
    | .blank => Text.isBlank c
    | .word => Text.isWordChar c

/-- The lower-case form of a character; beyond ASCII only if that is asked for. -/
def fold (ascii : Bool) (c : Char) : Char :=
  if ascii then c.toLower else Text.lower c

/-- All characters that are the given letter in one case or another. -/
def forms (ascii : Bool) (c : Char) : List Char :=
  if ascii then [c.toLower, c.toUpper] else Text.caseForms c

/-- Whether two characters differ in case at most. -/
def sameLetter (ascii : Bool) (a b : Char) : Bool :=
  if ascii then a.toLower == b.toLower else Text.sameLetter a b

/-- Whether two characters count as equal. -/
def sameChar (mode : Mode) (a b : Char) : Bool :=
  if mode.ignoreCase then sameLetter mode.ascii a b else a == b

/-- Whether two kept characters count as equal: only their lower-case forms are compared. -/
def sameKept (mode : Mode) (a b : Char) : Bool :=
  if mode.ignoreCase then fold mode.ascii a == fold mode.ascii b else a == b

/-- Whether a member of a set holds a character whose case counts. -/
def SetMember.holds (ascii : Bool) (c : Char) : SetMember → Bool
  | .single code => c.toNat == code
  | .lone d => c == d
  | .range first last => first ≤ c.toNat && c.toNat ≤ last
  | .ofClass complement kind => inClass ascii kind c != complement

/-- Whether a member of a set holds a character in one case or another. A single character beyond the
first plane holds only texts whose lower-case form it is. -/
def SetMember.holdsCaseless (ascii : Bool) (c : Char) : SetMember → Bool
  | .single code =>
    if 0xFFFF < code then (fold ascii c).toNat == code
    else (forms ascii c).any fun form => form.toNat == code
  | .lone d => sameLetter ascii d c
  | .range first last => (forms ascii c).any fun form => first ≤ form.toNat && form.toNat ≤ last
  | .ofClass complement kind => inClass ascii kind (fold ascii c) != complement

/-- Whether a set holds a character. -/
def inSet (mode : Mode) (complement : Bool) (members : List BuildLog.SetMember) (c : Char) : Bool :=
  let holds := fun member =>
    if mode.ignoreCase then SetMember.holdsCaseless mode.ascii c member
    else SetMember.holds mode.ascii c member
  members.any holds != complement

/-- Whether a character is one that the point stands for. -/
def isAnyChar (mode : Mode) (c : Char) : Bool :=
  mode.anyLineFeed || c != '\n'

namespace Place

/-- Whether the character in front of a place is part of a word. -/
def wordBefore (place : Place) (ascii : Bool) : Bool :=
  place.before.head?.any (inClass ascii .word)

/-- Whether the character behind a place is part of a word. -/
def wordAfter (place : Place) (ascii : Bool) : Bool :=
  place.after.head?.any (inClass ascii .word)

/-- Whether a place is of the given kind. -/
def isAt (place : Place) (mode : Mode) : Anchor → Bool
  | .start => place.before.isEmpty || (mode.lines && place.before.head? == some '\n')
  | .finish =>
    place.after.isEmpty || place.after == ['\n'] || (mode.lines && place.after.head? == some '\n')
  | .veryStart => place.before.isEmpty
  | .veryEnd => place.after.isEmpty
  | .boundary => place.wordBefore mode.ascii != place.wordAfter mode.ascii
  | .inside =>
    !(place.before.isEmpty && place.after.isEmpty) &&
      place.wordBefore mode.ascii == place.wordAfter mode.ascii

end Place

/-! ## Repetitions -/

/-- What becomes of an end of a match: nothing, if the end is of no use. -/
abbrev Goal := Place → Option Place

/-- Matches something at a place in such a way that the goal is reached from its end. -/
abbrev Step := Goal → Goal

/-- A step that settles on its first way to match. -/
def settled (step : Step) : Step := fun goal place =>
  match step some place with
  | some found => goal found
  | none => none

/-- A fixed number of repetitions. -/
def exactly (step : Step) (goal : Goal) : Nat → Goal
  | 0, place => goal place
  | count + 1, place => step (exactly step goal count) place

/-- Further repetitions. `last` is where the previous one of them started: a repetition that went
nowhere is not tried again. The first number bounds the steps. -/
def further (step : Step) (lazily : Bool) (goal : Goal) : Nat → Option Nat → Option Nat → Goal
  | 0, _, _, place => goal place
  | bound + 1, most, last, place =>
    if most == some 0 || last == some place.offset then goal place
    else
      let again := further step lazily goal bound (most.map (· - 1)) (some place.offset)
      if lazily then (goal place).orElse fun _ => step again place
      else (step again place).orElse fun _ => goal place

/-- Any accepted number of repetitions, tried in the order of a greed. -/
def rounds (step : Step) (lazily : Bool) (least : Nat) (most : Option Nat) : Step := fun goal =>
  exactly step
    (fun place =>
      further step lazily goal (place.after.length + 2) (most.map (· - least)) none place)
    least

/-- A repeated step. -/
def repeated (greed : Greed) (least : Nat) (most : Option Nat) (step : Step) : Step :=
  match greed with
  | .greedy => rounds step false least most
  | .lazy => rounds step true least most
  | .possessive => settled (rounds (settled step) false least most)

/-! ## Matching -/

/-- A given text. -/
def searchText (mode : Mode) (goal : Goal) : Text → Goal
  | [], place => goal place
  | c :: rest, place => (place.advance? (sameKept mode c)).bind (searchText mode goal rest)

/-- Looks for something in a direction, without taking it. Negatively, nothing must be found; where there is
not enough text in front, nothing is. -/
def looking (step : Step) (direction : Direction) (positive : Bool) : Step := fun goal place =>
  let found := (place.towards? direction).bind (step some)
  if positive then found.bind fun found => goal (place.keeping found)
  else if found.isSome then none
  else goal place

/-- Matches a pattern at a place in such a way that the goal is reached from its end. Of several ways,
the first one in the order of preference counts. -/
def search : Pattern → Mode → Step
  | empty, _, goal, place => goal place
  | char c, mode, goal, place => (place.advance? (sameChar mode c)).bind goal
  | anyChar, mode, goal, place => (place.advance? (isAnyChar mode)).bind goal
  | set complement members, mode, goal, place =>
    (place.advance? (inSet mode complement members)).bind goal
  | anchor kind, mode, goal, place => if place.isAt mode kind then goal place else none
  | seq first second, mode, goal, place => search first mode (search second mode goal) place
  | alt first second, mode, goal, place =>
    (search first mode goal place).orElse fun _ => search second mode goal place
  | group none body, mode, goal, place => search body mode goal place
  | group (some number) body, mode, goal, place =>
    search body mode (fun found => goal (found.keep number place)) (place.reopen number)
  | backref number _, mode, goal, place =>
    (place.kept? number).bind fun text => searchText mode goal text place
  | ifKept number yes no, mode, goal, place =>
    if (place.kept? number).isSome then search yes mode goal place else search no mode goal place
  | look direction positive body, mode, goal, place =>
    looking (search body mode) direction positive goal place
  | atomic body, mode, goal, place => settled (search body mode) goal place
  | flagged on off body, mode, goal, place => search body (mode.flagged on off) goal place
  | iterate greed least most body, mode, goal, place =>
    repeated greed least most (search body mode) goal place

/-- Whether a pattern matches a text from its start to its end in a mode. -/
def matchesIn (pattern : Pattern) (mode : Mode) (text : Text) : Bool :=
  (pattern.search mode (fun place => if place.atEnd then some place else none) (.start text)).isSome

/-- Whether a pattern matches a text from its start to its end. -/
def matchesAll (pattern : Pattern) (ignoreCase : Bool) (text : Text) : Bool :=
  pattern.matchesIn (.ofCase ignoreCase) text

end BuildLog.Pattern
