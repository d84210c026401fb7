import BuildLog.Pattern.Lexeme

/-!
# Patterns from their text

* `Pattern.ofText`: the pattern that a text describes, or the first fault in it;
* `Pattern.escape`: the text that describes exactly the given text.

The lexemes are put together from left to right. A draft holds the groups that are open, and of the
innermost one the finished alternatives and the parts of the current one. When all lexemes have their
place, some faults of the pattern as a whole may be left. Patterns may be nested as deeply as one likes.
-/

namespace BuildLog

namespace Pattern

/-! ## Drafts -/

/-- A sequence of alternatives in the making, the latest first everywhere. -/
structure Branches where
  finished : List Pattern
  parts : List Pattern

namespace Branches

/-- No alternative, no part. -/
def none : Branches := ⟨[], []⟩

/-- One pattern behind the other. -/
def sequence (parts : List Pattern) : Pattern :=
  parts.foldl (fun rest part => .seq part rest) .empty

/-- The pattern of all alternatives. -/
def pattern (branches : Branches) : Pattern :=
  branches.finished.foldl (fun rest branch => .alt branch rest) (sequence branches.parts)

/-- The choice between two alternatives by what a group has kept. Without a second one, the empty text
stands in its place. -/
def choice (number : Nat) (branches : Branches) : Pattern :=
  match branches.finished with
  | [] => .ifKept number (sequence branches.parts) .empty
  | yes :: _ => .ifKept number yes (sequence branches.parts)

/-- One more part. -/
def add (branches : Branches) (part : Pattern) : Branches :=
  { branches with parts := part :: branches.parts }

/-- One more alternative. -/
def divide (branches : Branches) : Branches :=
  ⟨sequence branches.parts :: branches.finished, []⟩

end Branches

/-- A group that is open: what it is for, where it starts, a number, and what stands in front of it. The
number is that of the group if it keeps its text, and that of the group it asks for if it is a condition;
otherwise it tells how many groups that keep their text were opened in front. -/
structure OpenGroup where
  kind : GroupKind
  position : Nat
  number : Nat
  before : Branches

namespace OpenGroup

/-- Whether a group looks at what is in front of it. -/
def isBehind (opened : OpenGroup) : Bool :=
  match opened.kind with
  | .look isBehind _ => isBehind
  | _ => false

/-- Whether a group chooses by what another group has kept. -/
def isCondition (opened : OpenGroup) : Bool :=
  match opened.kind with
  | .condition .. => true
  | _ => false

/-- The pattern of a group with the given content. -/
def pattern (opened : OpenGroup) (content : Branches) : Pattern :=
  match opened.kind with
  | .capture _ => .group (some opened.number) content.pattern
  | .plain => .group Option.none content.pattern
  | .look false positive => .look .ahead positive content.pattern
  | .look true positive => .look (.behind content.pattern.width) positive content.pattern
  | .atomic => .atomic content.pattern
  | .flagged on off => .flagged on off content.pattern
  | .condition .. => content.choice opened.number

end OpenGroup

/-- A pattern in the making. -/
structure Draft where
  branches : Branches
  outer : List OpenGroup
  /-- How many groups that keep their text were opened. -/
  groups : Nat
  /-- The names of groups, with their numbers. -/
  names : List (Text × Nat)
  /-- The groups that keep their text and were closed, with their widths. -/
  closed : List (Nat × Width)
  /-- The numbers of groups that conditions ask for, with the positions where they do. -/
  awaited : List (Nat × Nat)
  /-- The flags for the whole pattern. -/
  flags : Text

namespace Draft

/-- A step in the making of a pattern; it fails with a fault and its position. -/
abbrev Step (α : Type) := Except (PatternFault × Nat) α

/-- The draft of an empty text. -/
def blank : Draft := ⟨.none, [], 0, [], [], [], []⟩

/-- One more part. -/
def add (draft : Draft) (part : Pattern) : Draft :=
  { draft with branches := draft.branches.add part }

/-! ### References -/

/-- The number of the groups that can be referred to where one looks at what is in front: those that were
opened in front of the outermost place of that kind. -/
def limit? (draft : Draft) : Option Nat :=
  (draft.outer.reverse.find? (·.isBehind)).map (·.number)

/-- The draft itself, if a group can be referred to where one may look at what is in front. -/
def checkBehind (draft : Draft) (number position : Nat) : Step Unit :=
  match draft.limit? with
  | none => .ok ()
  | some limit =>
    if (draft.closed.lookup number).isNone then .error (.openGroup, position)
    else if limit < number then .error (.lookbehindGroup, position)
    else .ok ()

/-- The number of a group and the position where a fault of the reference to it is told, for a reference at
a position. -/
def resolve (draft : Draft) (position : Nat) : GroupRef → Step (Nat × Nat)
  | .number number =>
    if draft.groups < number then .error (.unknownGroup number, position + 1)
    else .ok (number, position)
  | .name name =>
    match draft.names.lookup name with
    | some number => .ok (number, position + 4)
    | none => .error (.unknownGroupName name, position + 4)

/-- A draft with a reference to a group that was closed before. -/
def refer (draft : Draft) (target : GroupRef) (width position : Nat) : Step Draft := do
  let (number, place) ← draft.resolve position target
  match draft.closed.lookup number with
  | none => .error (.openGroup, place)
  | some taken =>
    draft.checkBehind number (position + width)
    .ok (draft.add (.backref number taken))

/-! ### Groups -/

/-- The number of the group that a condition asks for. It may be opened later on. -/
def conditionNumber (draft : Draft) (position : Nat) : GroupRef → Step Nat
  | .number number => .ok number
  | .name name =>
    match draft.names.lookup name with
    | some number => .ok number
    | none => .error (.unknownGroupName name, position + 3)

/-- A draft that waits for a group if a condition asks for its number. -/
def await (draft : Draft) (position : Nat) : GroupRef → Draft
  | .number number => { draft with awaited := draft.awaited ++ [(number, position + 3)] }
  | .name _ => draft

/-- A draft with one more group open. -/
def enter (draft : Draft) (kind : GroupKind) (position number : Nat) : Draft :=
  { draft with
    branches := .none
    outer := ⟨kind, position, number, draft.branches⟩ :: draft.outer }

/-- A draft with one more group that keeps its text. -/
def enterCapture (draft : Draft) (name : Option Text) (position : Nat) : Step Draft :=
  let number := draft.groups + 1
  let entered := { draft.enter (.capture name) position number with groups := number }
  match name with
  | none => .ok entered
  | some name =>
    match draft.names.lookup name with
    | some before => .error (.groupRedefined name number before, position + 4)
    | none => .ok { entered with names := (name, number) :: draft.names }

/-- A draft with one more group open that chooses by what another one has kept. -/
def enterCondition (draft : Draft) (target : GroupRef) (width position : Nat) : Step Draft := do
  let number ← draft.conditionNumber position target
  draft.checkBehind number (position + width)
  .ok ((draft.await position target).enter (.condition target width) position number)

/-- A draft with one more group open, of any kind. -/
def openGroup (draft : Draft) (kind : GroupKind) (position : Nat) : Step Draft :=
  match kind with
  | .capture name => draft.enterCapture name position
  | .condition target width => draft.enterCondition target width position
  | kind => .ok (draft.enter kind position draft.groups)

/-- Whether two alphabets are set for the whole pattern. -/
def hasTwoAlphabets (draft : Draft) : Bool :=
  draft.flags.contains 'a' && draft.flags.contains 'u'

/-- The closed groups of a draft when its innermost group is closed as well. -/
def closedWith (draft : Draft) (opened : OpenGroup) : List (Nat × Width) :=
  match opened.kind with
  | .capture _ => (opened.number, draft.branches.pattern.width) :: draft.closed
  | _ => draft.closed

/-- A draft with its innermost group closed. -/
def closeGroup (draft : Draft) (position : Nat) : Step Draft :=
  match draft.outer with
  | [] => .error (if draft.hasTwoAlphabets then .alphabetsAtOnce else .unbalanced, position)
  | opened :: outer =>
    .ok { draft with
      branches := opened.before.add (opened.pattern draft.branches)
      outer := outer
      closed := draft.closedWith opened }

/-! ### All lexemes -/

/-- A draft whose last part is repeated. -/
def quantify (draft : Draft) (greed : Greed) (least : Nat) (most : Option Nat) (position : Nat) :
    Step Draft :=
  match draft.branches.parts with
  | [] => .error (.nothingToRepeat, position)
  | .anchor _ :: _ => .error (.nothingToRepeat, position)
  | .iterate .. :: _ => .error (.multipleRepeat, position)
  | part :: parts =>
    .ok { draft with
      branches := { draft.branches with parts := .iterate greed least most part :: parts } }

/-- A draft with one more alternative; a condition chooses between two. -/
def divide (draft : Draft) (position : Nat) : Step Draft :=
  if draft.outer.head?.any (·.isCondition) && !draft.branches.finished.isEmpty then
    .error (.manyBranches, position)
  else .ok { draft with branches := draft.branches.divide }

/-- A draft with flags for the whole pattern; they are given at the start. -/
def setFlags (draft : Draft) (flags : Text) (position : Nat) : Step Draft :=
  if draft.outer.isEmpty && draft.branches.finished.isEmpty && draft.branches.parts.isEmpty then
    .ok { draft with flags := draft.flags ++ flags }
  else .error (.lateFlags, position)

/-- A draft with one more lexeme. -/
def place (draft : Draft) (position : Nat) : Lexeme → Step Draft
  | .part pattern => .ok (draft.add pattern)
  | .reference target width => draft.refer target width position
  | .quantifier greed least most => draft.quantify greed least most position
  | .opening kind => draft.openGroup kind position
  | .wholeFlags flags => draft.setFlags flags position
  | .filler _ => .ok draft
  | .closing => draft.closeGroup position
  | .bar => draft.divide position
  | .fault fault place => .error (fault, place)

/-- A draft with all lexemes of a list. -/
def placeAll (draft : Draft) : List (Nat × Lexeme) → Step Draft
  | [] => .ok draft
  | (position, lexeme) :: rest =>
    match draft.place position lexeme with
    | .ok draft => draft.placeAll rest
    | .error error => .error error

end Draft

/-! ## Whole patterns -/

/-- The first fault in a pattern as a whole: what is looked for in front must have a width, and a template
must not repeat anything. -/
def fault? (isTemplate : Bool) : Pattern → Option PatternFault
  | empty | char _ | anyChar | set .. | anchor _ | backref .. => none
  | seq first second | alt first second | ifKept _ first second =>
    (first.fault? isTemplate).or (second.fault? isTemplate)
  | group _ body | look .ahead _ body | atomic body | flagged _ _ body => body.fault? isTemplate
  | look (.behind width) _ body =>
    if Lexeme.boundLimit < width.least then some .longLookbehind
    else if width.most ≠ some width.least then some .variableLookbehind
    else body.fault? isTemplate
  | iterate greed _ _ body => if isTemplate then some (.template greed) else body.fault? isTemplate

namespace Draft

/-- The pattern of a draft in which no group is open. -/
def finish (draft : Draft) : Step Pattern :=
  match draft.outer with
  | opened :: _ => .error (.unterminatedGroup, opened.position)
  | [] =>
    let pattern := draft.branches.pattern
    if draft.hasTwoAlphabets then .error (.alphabetsAtOnce, 0)
    else
      match draft.awaited.find? (draft.groups < ·.1) with
      | some (number, position) => .error (.unknownGroup number, position)
      | none =>
        match pattern.fault? (draft.flags.contains 't') with
        | some fault => .error (fault, 0)
        | none => .ok (if draft.flags.isEmpty then pattern else .flagged draft.flags [] pattern)

end Draft

/-! ## Reading and writing patterns -/

/-- The pattern that a text describes. -/
def ofText (text : Text) : Except PatternError Pattern :=
  match Draft.blank.placeAll (Lexeme.list text) >>= Draft.finish with
  | .ok pattern => .ok pattern
  | .error (fault, position) => .error ⟨fault, position, text⟩

/-- The characters that mean something else in a pattern, or that are easily taken for it. -/
def specialChars : Text :=
  "()[]\x7b\x7d?*+-|^$\\.&~# \t\n\r\x0b\x0c".toList

/-- The text of a pattern that matches exactly the given text. -/
def escape (text : Text) : Text :=
  text.flatMap fun c => if specialChars.contains c then ['\\', c] else [c]

end Pattern
end BuildLog
