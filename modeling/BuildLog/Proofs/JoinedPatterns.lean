import BuildLog.Proofs.DraftSteps
import BuildLog.Signature

/-!
# Joined patterns

A pattern of versions is checked on its own, but it is used behind the name of a tool, in a group of its
own, and with an extension behind it.

* `Draft.within`: what is made of a text that stands in a group of another one. Every lexeme but flags for the
  whole has the same effect there (`Draft.placeAll_within`), with the numbers of its groups raised;
* `Pattern.SetsFlags`, `Pattern.ChangesReading`, `Pattern.Captures`, `Pattern.Refers`,
  `Pattern.SharesName`: what may go wrong when patterns are joined, and `Pattern.KeepsGroups`: no groups
  are mixed up;
* `Draft.joined`, `Draft.placeAll_joined`: the draft of a joined pattern in which nothing goes wrong;
* `Pattern.exists_ofText_namePattern_iff`: where no groups are mixed up and the name has no flag that
  changes how what follows is read, the joined pattern is in order exactly if the pattern of versions has
  no flags for the whole.
-/

namespace BuildLog
namespace Pattern

/-! ## Numbers of groups -/

/-- A pattern with the numbers of its groups raised. -/
def raised (count : Nat) : Pattern → Pattern
  | seq first second => seq (raised count first) (raised count second)
  | alt first second => alt (raised count first) (raised count second)
  | group number body => group (number.map (· + count)) (raised count body)
  | backref number width => backref (number + count) width
  | ifKept number yes no => ifKept (number + count) (raised count yes) (raised count no)
  | look direction positive body => look direction positive (raised count body)
  | atomic body => atomic (raised count body)
  | flagged on off body => flagged on off (raised count body)
  | iterate greed least most body => iterate greed least most (raised count body)
  | pattern => pattern

theorem raised_of_isAtom {pattern : Pattern} (h : pattern.isAtom = true) (count : Nat) :
    pattern.raised count = pattern := by
  cases pattern <;> first | rfl | cases h

theorem width_raised (count : Nat) (pattern : Pattern) : (pattern.raised count).width = pattern.width := by
  induction pattern with
  | seq first second ihfirst ihsecond => simp [raised, width, ihfirst, ihsecond]
  | alt first second ihfirst ihsecond => simp [raised, width, ihfirst, ihsecond]
  | ifKept number yes no ihyes ihno => simp [raised, width, ihyes, ihno]
  | group number body ih => exact ih
  | atomic body ih => exact ih
  | flagged on off body ih => exact ih
  | iterate greed least most body ih => simp [raised, width, ih]
  | _ => rfl

theorem fault?_raised (isTemplate : Bool) (count : Nat) (pattern : Pattern) :
    (pattern.raised count).fault? isTemplate = pattern.fault? isTemplate := by
  induction pattern with
  | seq first second ihfirst ihsecond => simp [raised, fault?, ihfirst, ihsecond]
  | alt first second ihfirst ihsecond => simp [raised, fault?, ihfirst, ihsecond]
  | ifKept number yes no ihyes ihno => simp [raised, fault?, ihyes, ihno]
  | look direction positive body ih => cases direction <;> simp [raised, fault?, ih]
  | group number body ih => simp [raised, fault?, ih]
  | atomic body ih => simp [raised, fault?, ih]
  | flagged on off body ih => simp [raised, fault?, ih]
  | iterate greed least most body ih => simp [raised, fault?, ih]
  | _ => rfl

namespace Branches

/-- All alternatives with the numbers of their groups raised. -/
def raised (count : Nat) (branches : Branches) : Branches :=
  ⟨branches.finished.map (·.raised count), branches.parts.map (·.raised count)⟩

theorem sequence_raised (count : Nat) (parts : List Pattern) :
    sequence (parts.map (·.raised count)) = (sequence parts).raised count := by
  have hfold (rest : Pattern) : (parts.map (·.raised count)).foldl (fun rest part => .seq part rest)
      (rest.raised count) = (parts.foldl (fun rest part => .seq part rest) rest).raised count := by
    induction parts generalizing rest with
    | nil => rfl
    | cons part parts ih => exact ih (.seq part rest)
  exact hfold .empty

theorem pattern_raised (count : Nat) (branches : Branches) :
    (branches.raised count).pattern = branches.pattern.raised count := by
  obtain ⟨finished, parts⟩ := branches
  have hfold (rest : Pattern) : (finished.map (·.raised count)).foldl
      (fun rest branch => .alt branch rest) (rest.raised count) =
        (finished.foldl (fun rest branch => .alt branch rest) rest).raised count := by
    induction finished generalizing rest with
    | nil => rfl
    | cons branch finished ih => exact ih (.alt branch rest)
  rw [pattern, raised, sequence_raised]
  exact hfold _

theorem choice_raised (count number : Nat) (branches : Branches) :
    (branches.raised count).choice (number + count) = (branches.choice number).raised count := by
  obtain ⟨finished, parts⟩ := branches
  cases finished with
  | nil => simp [choice, raised, sequence_raised, Pattern.raised]
  | cons yes finished => simp [choice, raised, sequence_raised, Pattern.raised]

theorem divide_raised (count : Nat) (branches : Branches) :
    (branches.raised count).divide = branches.divide.raised count := by
  simp [divide, raised, sequence_raised]

end Branches

/-- A group that is opened further on, behind some groups that are counted. -/
def OpenGroup.raised (count offset : Nat) (opened : OpenGroup) : OpenGroup :=
  ⟨opened.kind, opened.position + offset, opened.number + count, opened.before.raised count⟩

theorem OpenGroup.pattern_raised (count offset : Nat) (opened : OpenGroup) (content : Branches) :
    (opened.raised count offset).pattern (content.raised count) =
      (opened.pattern content).raised count := by
  obtain ⟨kind, position, number, before⟩ := opened
  cases kind with
  | look isBehind positive =>
    cases isBehind <;> simp [raised, pattern, Branches.pattern_raised, width_raised, Pattern.raised]
  | condition target width => exact Branches.choice_raised ..
  | _ => simp [raised, pattern, Branches.pattern_raised, Pattern.raised]

namespace Draft

/-- A draft within the innermost group of another one. -/
def within (around : Draft) (offset : Nat) (draft : Draft) : Draft where
  branches := draft.branches.raised around.groups
  outer := draft.outer.map (·.raised around.groups offset) ++ around.outer
  groups := draft.groups + around.groups
  names := draft.names.map (fun named => (named.1, named.2 + around.groups)) ++ around.names
  closed := draft.closed.map (fun group => (group.1 + around.groups, group.2)) ++ around.closed
  awaited :=
    around.awaited ++ draft.awaited.map fun entry => (entry.1 + around.groups, entry.2 + offset)
  flags := around.flags

variable {around draft next : Draft} {offset position number : Nat} {lexeme : Lexeme}

theorem add_within (around : Draft) (offset : Nat) (draft : Draft) (part : Pattern) :
    (within around offset draft).add (part.raised around.groups) =
      within around offset (draft.add part) := rfl

theorem lookup_names_within {name : Text} (h : draft.names.lookup name = some number) :
    (within around offset draft).names.lookup name = some (number + around.groups) := by
  have hmap : (draft.names.map fun named => (named.1, named.2 + around.groups)).lookup name =
      (draft.names.lookup name).map (· + around.groups) := by
    induction draft.names with
    | nil => rfl
    | cons named names ih =>
      rw [List.map_cons, List.lookup_cons, List.lookup_cons, ih]
      split <;> rfl
  rw [within, List.lookup_append, hmap, h]
  rfl

theorem lookup_closed_within {width : Width} (h : draft.closed.lookup number = some width) :
    (within around offset draft).closed.lookup (number + around.groups) = some width := by
  have hmap : (draft.closed.map fun group => (group.1 + around.groups, group.2)).lookup
      (number + around.groups) = draft.closed.lookup number := by
    induction draft.closed with
    | nil => rfl
    | cons group closed ih =>
      have hsame : (number + around.groups == group.1 + around.groups) = (number == group.1) :=
        Bool.eq_iff_iff.2 (by simp)
      rw [List.map_cons, List.lookup_cons, List.lookup_cons, ih, hsame]
  rw [within, List.lookup_append, hmap, h]
  rfl

/-- In a draft, one neither looks at what is in front nor chooses between two patterns. -/
def IsHost (around : Draft) : Prop :=
  ∀ opened ∈ around.outer, opened.isBehind = false ∧ opened.isCondition = false

theorem isHost_blank : IsHost blank :=
  List.forall_mem_nil _

/-- A lexeme means the same within a draft: no number of a group is written that would mean another one,
and no name is given twice. -/
structure Suits (around : Draft) (lexeme : Lexeme) : Prop where
  simple : lexeme.isSimple = true
  numbers : around.groups = 0 ∨ lexeme.isNumbered = false
  names : ∀ name, lexeme.groupName? = some name → around.names.lookup name = none

theorem limit?_within (hhost : IsHost around) :
    (within around offset draft).limit? = draft.limit?.map (· + around.groups) := by
  have hnone : around.outer.reverse.find? (·.isBehind) = none := by
    rw [List.find?_eq_none]
    intro opened hopened
    simp [(hhost opened (List.mem_reverse.1 hopened)).1]
  have hraised : (fun opened : OpenGroup => opened.isBehind) ∘ OpenGroup.raised around.groups offset =
      fun opened => opened.isBehind := rfl
  rw [limit?, within, List.reverse_append, List.find?_append, hnone, Option.none_or,
    ← List.map_reverse, List.find?_map, hraised, Option.map_map, limit?, Option.map_map]
  rfl

theorem checkBehind_within (hhost : IsHost around)
    (h : draft.checkBehind number position = .ok ()) :
    (within around offset draft).checkBehind (number + around.groups) (position + offset) = .ok () := by
  unfold checkBehind at h ⊢
  rw [limit?_within hhost]
  cases hlimit : draft.limit? with
  | none => rfl
  | some limit =>
    rw [hlimit] at h
    dsimp only at h
    split at h
    · cases h
    · rename_i hclosed
      split at h
      · cases h
      · rename_i hbelow
        cases hlookup : draft.closed.lookup number with
        | none =>
          rw [hlookup] at hclosed
          exact absurd rfl hclosed
        | some width =>
          have hbelow : ¬ limit + around.groups < number + around.groups := by omega
          simp only [Option.map_some, lookup_closed_within hlookup, if_neg hbelow]
          rfl

theorem resolve_within {target : GroupRef} {width place : Nat}
    (hsuits : Suits around (.reference target width))
    (h : draft.resolve position target = .ok (number, place)) :
    (within around offset draft).resolve (position + offset) target =
      .ok (number + around.groups, place + offset) := by
  cases target with
  | number written =>
    have hcount : around.groups = 0 := hsuits.numbers.resolve_right nofun
    unfold resolve at h ⊢
    dsimp only at h ⊢
    split at h
    · cases h
    · rename_i hknown
      cases h
      have hmore : ¬ (within around offset draft).groups < number := by
        simp only [within]
        omega
      rw [if_neg hmore, hcount]
      rfl
  | name name =>
    unfold resolve at h ⊢
    dsimp only at h ⊢
    split at h
    · rename_i known hknown
      cases h
      rw [lookup_names_within hknown]
      simp only [Except.ok.injEq, Prod.mk.injEq, true_and]
      omega
    · cases h

theorem conditionNumber_within {target : GroupRef} {width : Nat}
    (hsuits : Suits around (.opening (.condition target width)))
    (h : draft.conditionNumber position target = .ok number) :
    (within around offset draft).conditionNumber (position + offset) target =
      .ok (number + around.groups) := by
  cases target with
  | number written =>
    have hcount : around.groups = 0 := hsuits.numbers.resolve_right nofun
    cases h
    rw [hcount]
    rfl
  | name name =>
    unfold conditionNumber at h ⊢
    dsimp only at h ⊢
    split at h
    · rename_i known hknown
      cases h
      rw [lookup_names_within hknown]
    · cases h

theorem await_within {target : GroupRef} {width : Nat}
    (hsuits : Suits around (.opening (.condition target width))) :
    (within around offset draft).await (position + offset) target =
      within around offset (draft.await position target) := by
  cases target with
  | number written =>
    have hcount : around.groups = 0 := hsuits.numbers.resolve_right nofun
    simp [await, within, hcount, Nat.add_right_comm]
  | name name => rfl

theorem enter_within (around draft : Draft) (offset position number : Nat) (kind : GroupKind) :
    (within around offset draft).enter kind (position + offset) (number + around.groups) =
      within around offset (draft.enter kind position number) := rfl

theorem openGroup_within {kind : GroupKind} (hhost : IsHost around)
    (hsuits : Suits around (.opening kind)) (h : draft.openGroup kind position = .ok next) :
    (within around offset draft).openGroup kind (position + offset) =
      .ok (within around offset next) := by
  cases kind with
  | capture name =>
    obtain ⟨hfree, rfl⟩ := enterCapture_eq_ok_iff.1 h
    refine enterCapture_eq_ok_iff.2 ⟨?_, ?_⟩
    · rintro name rfl
      have hown := List.lookup_eq_none_iff.1 (hfree name rfl)
      have haround := List.lookup_eq_none_iff.1 (hsuits.names name rfl)
      rw [List.lookup_eq_none_iff]
      intro named hnamed
      rcases List.mem_append.1 hnamed with hmem | hmem
      · obtain ⟨other, hother, rfl⟩ := List.mem_map.1 hmem
        exact hown other hother
      · exact haround named hmem
    · cases name <;> simp [within, enter, OpenGroup.raised, Branches.raised, Branches.none,
        Nat.add_right_comm]
  | condition target width =>
    obtain ⟨number, hnumber, hcheck, rfl⟩ := enterCondition_eq_ok_iff.1 h
    refine enterCondition_eq_ok_iff.2 ⟨number + around.groups, conditionNumber_within hsuits hnumber, ?_, ?_⟩
    · rw [Nat.add_right_comm]
      exact checkBehind_within hhost hcheck
    · rw [await_within hsuits, enter_within]
  | _ =>
    cases h
    exact congrArg Except.ok (enter_within around draft offset position draft.groups _)

theorem closeGroup_within (h : draft.closeGroup position = .ok next) :
    (within around offset draft).closeGroup (position + offset) =
      .ok (within around offset next) := by
  obtain ⟨opened, outer, houter, rfl⟩ := closeGroup_eq_ok_iff.1 h
  refine closeGroup_eq_ok_iff.2 ⟨opened.raised around.groups offset,
    outer.map (·.raised around.groups offset) ++ around.outer, by simp [within, houter], ?_⟩
  have hclosed : (within around offset draft).closedWith (opened.raised around.groups offset) =
      (draft.closedWith opened).map (fun group => (group.1 + around.groups, group.2)) ++
        around.closed := by
    obtain ⟨kind, place, number, before⟩ := opened
    cases kind with
    | capture name =>
      simp [closedWith, OpenGroup.raised, within, Branches.pattern_raised, width_raised]
    | _ => rfl
  rw [hclosed]
  simp only [within]
  rw [OpenGroup.pattern_raised]
  rfl

theorem quantify_within {greed : Greed} {least : Nat} {most : Option Nat}
    (h : draft.quantify greed least most position = .ok next) :
    (within around offset draft).quantify greed least most (position + offset) =
      .ok (within around offset next) := by
  obtain ⟨part, parts, hparts, hanchor, hiterate, rfl⟩ := quantify_eq_ok_iff.1 h
  refine quantify_eq_ok_iff.2 ⟨part.raised around.groups, parts.map (·.raised around.groups), ?_, ?_, ?_, ?_⟩
  · simp [within, Branches.raised, hparts]
  · intro place hsame
    cases part with
    | anchor place => exact hanchor place rfl
    | _ => cases hsame
  · intro greed least most body hsame
    cases part with
    | iterate greed least most body => exact hiterate greed least most body rfl
    | _ => cases hsame
  · simp [within, Branches.raised, Pattern.raised]

theorem divide_within (hhost : IsHost around) (h : draft.divide position = .ok next) :
    (within around offset draft).divide (position + offset) = .ok (within around offset next) := by
  obtain ⟨hbranches, rfl⟩ := divide_eq_ok_iff.1 h
  refine divide_eq_ok_iff.2 ⟨?_, by simp only [within]; rw [Branches.divide_raised]⟩
  have hhead : (within around offset draft).outer.head?.any (·.isCondition) =
      draft.outer.head?.any (·.isCondition) := by
    cases houter : draft.outer with
    | cons opened outer =>
      rw [within, houter]
      rfl
    | nil =>
      rw [within, houter, List.map_nil, List.nil_append]
      cases haround : around.outer with
      | nil => rfl
      | cons opened outer =>
        have hplain := (hhost opened (by rw [haround]; exact List.mem_cons_self ..)).2
        simp [hplain]
  have hfinished : (within around offset draft).branches.finished.isEmpty =
      draft.branches.finished.isEmpty := List.isEmpty_map
  rw [hhead, hfinished]
  exact hbranches

/-- Every lexeme but flags for the whole pattern is placed within another draft as it is on its own, if it
suits that draft. -/
theorem place_within (hhost : IsHost around) (hsuits : Suits around lexeme)
    (hflags : lexeme.isWholeFlags = false) (h : draft.place position lexeme = .ok next) :
    (within around offset draft).place (position + offset) lexeme =
      .ok (within around offset next) := by
  cases lexeme with
  | part pattern =>
    cases h
    have hsame : pattern.raised around.groups = pattern := raised_of_isAtom hsuits.simple _
    rw [place, ← add_within, hsame]
  | reference target width =>
    obtain ⟨number, place, taken, hresolve, hclosed, hcheck, rfl⟩ := refer_eq_ok_iff.1 h
    refine refer_eq_ok_iff.2 ⟨number + around.groups, place + offset, taken,
      resolve_within hsuits hresolve, lookup_closed_within hclosed, ?_, ?_⟩
    · rw [Nat.add_right_comm]
      exact checkBehind_within hhost hcheck
    · exact add_within around offset draft (.backref number taken)
  | quantifier greed least most => exact quantify_within h
  | opening kind => exact openGroup_within hhost hsuits h
  | wholeFlags flags => cases hflags
  | filler isOpen =>
    cases h
    rfl
  | closing => exact closeGroup_within h
  | bar => exact divide_within hhost h
  | fault fault place => cases h

/-- The lexemes of a pattern without flags for the whole make the same draft within another one. -/
theorem placeAll_within {entries : List (Nat × Lexeme)} (offset : Nat) (hhost : IsHost around)
    (hsuits : ∀ entry ∈ entries, Suits around entry.2)
    (hflags : ∀ entry ∈ entries, entry.2.isWholeFlags = false)
    (h : draft.placeAll entries = .ok next) :
    (within around offset draft).placeAll (entries.map (Lexeme.moved offset)) =
      .ok (within around offset next) := by
  induction entries generalizing draft with
  | nil =>
    cases h
    rfl
  | cons entry entries ih =>
    obtain ⟨following, hplace, hrest⟩ := placeAll_cons_eq_ok_iff.1 h
    rw [List.map_cons, placeAll_cons_eq_ok_iff]
    exact ⟨within around offset following,
      place_within hhost (hsuits entry (by simp)) (hflags entry (by simp)) hplace,
      ih (fun other hother => hsuits other (List.mem_cons_of_mem _ hother))
        (fun other hother => hflags other (List.mem_cons_of_mem _ hother)) hrest⟩

/-- Flags for the whole pattern have no place within a group. -/
theorem placeAll_within_flags {entries : List (Nat × Lexeme)} (offset : Nat) (hhost : IsHost around)
    (hsuits : ∀ entry ∈ entries, Suits around entry.2) (hgroup : around.outer ≠ [])
    (hflags : ∃ entry ∈ entries, entry.2.isWholeFlags = true)
    (h : draft.placeAll entries = .ok next) :
    ∃ error, (within around offset draft).placeAll (entries.map (Lexeme.moved offset)) =
      .error error := by
  induction entries generalizing draft with
  | nil => simp at hflags
  | cons entry entries ih =>
    obtain ⟨following, hplace, hrest⟩ := placeAll_cons_eq_ok_iff.1 h
    rw [List.map_cons, Lexeme.moved, placeAll]
    cases hhead : entry.2.isWholeFlags with
    | true =>
      obtain ⟨place, lexeme⟩ := entry
      cases lexeme with
      | wholeFlags flags =>
        have houter : (within around offset draft).outer.isEmpty = false := by simp [within, hgroup]
        exact ⟨(.lateFlags, place + offset), by simp [Draft.place, setFlags, houter]⟩
      | _ => cases hhead
    | false =>
      obtain ⟨other, hmem, hother⟩ := hflags
      rw [place_within hhost (hsuits entry (by simp)) hhead hplace]
      rcases List.mem_cons.1 hmem with rfl | hmem
      · rw [hhead] at hother
        cases hother
      · exact ih (fun other hother => hsuits other (List.mem_cons_of_mem _ hother))
          ⟨other, hmem, hother⟩ hrest

/-! ## Texts behind a draft -/

/-- A draft with the characters of a text added. -/
def addText (draft : Draft) (text : Text) : Draft :=
  let parts := (text.map .char).reverse ++ draft.branches.parts
  { draft with branches := { draft.branches with parts := parts } }

/-- Characters can be added to every draft. -/
theorem placeAll_chars {entries : List (Nat × Lexeme)} {text : Text}
    (h : entries.map (·.2) = text.map fun c => .part (.char c)) (draft : Draft) :
    draft.placeAll entries = .ok (draft.addText text) := by
  induction text generalizing entries draft with
  | nil =>
    have hnil : entries = [] := List.map_eq_nil_iff.1 h
    rw [hnil]
    rfl
  | cons c text ih =>
    cases entries with
    | nil => cases h
    | cons entry entries =>
      rw [List.map_cons, List.map_cons, List.cons.injEq] at h
      obtain ⟨hlexeme, hrest⟩ := h
      rw [placeAll, hlexeme]
      show (draft.add (.char c)).placeAll entries = .ok (draft.addText (c :: text))
      rw [ih hrest]
      simp [addText, add, Branches.add]

end Draft

/-! ## Faults of patterns as a whole -/

/-- A pattern of alternatives has no fault if none of its parts has one. -/
theorem fault?_branches_eq_none_iff {isTemplate : Bool} {branches : Branches} :
    branches.pattern.fault? isTemplate = none ↔
      (∀ branch ∈ branches.finished, branch.fault? isTemplate = none) ∧
        ∀ part ∈ branches.parts, part.fault? isTemplate = none := by
  obtain ⟨finished, parts⟩ := branches
  have hparts (rest : Pattern) :
      (parts.foldl (fun rest part => .seq part rest) rest).fault? isTemplate = none ↔
        (∀ part ∈ parts, part.fault? isTemplate = none) ∧ rest.fault? isTemplate = none := by
    induction parts generalizing rest with
    | nil => simp
    | cons part parts ih =>
      rw [List.foldl_cons, ih, fault?, Option.or_eq_none_iff, List.forall_mem_cons]
      tauto
  have hfinished (rest : Pattern) :
      (finished.foldl (fun rest branch => .alt branch rest) rest).fault? isTemplate = none ↔
        (∀ branch ∈ finished, branch.fault? isTemplate = none) ∧ rest.fault? isTemplate = none := by
    induction finished generalizing rest with
    | nil => simp
    | cons branch finished ih =>
      rw [List.foldl_cons, ih, fault?, Option.or_eq_none_iff, List.forall_mem_cons]
      tauto
  rw [Branches.pattern, hfinished, Branches.sequence, hparts]
  simp [fault?]

/-- Characters behind a complete draft leave it complete. -/
theorem Draft.IsComplete.addText {draft : Draft} (h : draft.IsComplete) (text : Text) :
    (draft.addText text).IsComplete := by
  refine ⟨h.outer, h.alphabets, h.awaited, ?_⟩
  obtain ⟨hfinished, hparts⟩ := fault?_branches_eq_none_iff.1 h.faultless
  rw [fault?_branches_eq_none_iff]
  refine ⟨hfinished, ?_⟩
  intro part hpart
  rcases List.mem_append.1 hpart with hpart | hpart
  · obtain ⟨c, -, rfl⟩ := List.mem_map.1 (List.mem_reverse.1 hpart)
    rfl
  · exact hparts part hpart

/-! ## Joined texts -/

variable {name version : Text}

/-- A pattern has flags for the whole of it. -/
def SetsFlags (text : Text) : Prop :=
  ∃ entry ∈ Lexeme.list text, entry.2.isWholeFlags = true

/-- Flags for the whole of a pattern change how a text is read behind them. -/
def ChangesReading (text : Text) : Prop :=
  ∃ entry ∈ Lexeme.list text, entry.2.changesReading = true

/-- A pattern ends in a comment that any text behind it would go on with. -/
def EndsOpen (text : Text) : Prop :=
  ∃ entry ∈ Lexeme.list text, entry.2 = .filler true

/-- A pattern has groups that keep their texts. -/
def Captures (text : Text) : Prop :=
  ∃ entry ∈ Lexeme.list text, entry.2.isCapture = true

/-- A pattern refers to groups by their numbers. -/
def Refers (text : Text) : Prop :=
  ∃ entry ∈ Lexeme.list text, entry.2.isNumbered = true

/-- Two patterns have groups of the same name. -/
def SharesName (name version : Text) : Prop :=
  ∃ entry ∈ Lexeme.list name, ∃ other ∈ Lexeme.list version,
    entry.2.groupName?.isSome = true ∧ other.2.groupName? = entry.2.groupName?

/-- The groups of two patterns are not mixed up where one stands behind the other. -/
def KeepsGroups (name version : Text) : Prop :=
  ¬ Captures name ∨ ¬ Refers version ∧ ¬ SharesName name version

instance (text : Text) : Decidable (SetsFlags text) := inferInstanceAs (Decidable (∃ _ ∈ _, _))

instance (text : Text) : Decidable (ChangesReading text) := inferInstanceAs (Decidable (∃ _ ∈ _, _))

instance (text : Text) : Decidable (EndsOpen text) := inferInstanceAs (Decidable (∃ _ ∈ _, _))

instance (text : Text) : Decidable (Captures text) := inferInstanceAs (Decidable (∃ _ ∈ _, _))

instance (text : Text) : Decidable (Refers text) := inferInstanceAs (Decidable (∃ _ ∈ _, _))

instance (name version : Text) : Decidable (SharesName name version) :=
  inferInstanceAs (Decidable (∃ _ ∈ _, ∃ _ ∈ _, _))

instance (name version : Text) : Decidable (KeepsGroups name version) :=
  inferInstanceAs (Decidable (_ ∨ _))

/-- What stands behind a name with an extension. -/
def suffixOf (extension : Text) : Text :=
  if extension.isEmpty then [] else '.' :: extension

theorem namePattern_eq (name version extension : Text) :
    namePattern name version extension =
      name ++ (if version.isEmpty then [] else "(?:".toList ++ version ++ [')']) ++
        escape (suffixOf extension) := by
  unfold namePattern suffixOf
  by_cases hempty : extension.isEmpty = true
  · rw [if_pos hempty, if_pos hempty]
    rfl
  · rw [if_neg hempty, if_neg hempty]
    rfl

/-- In a pattern whose reading does not change, all lexemes are whole, and blanks count at its end. -/
theorem isWhole_of_not_changesReading {text : Text} {draft : Draft} (h : ¬ ChangesReading text)
    (hplace : Draft.blank.placeAll (Lexeme.list text) = .ok draft) (houter : draft.outer = []) :
    (∀ entry ∈ Lexeme.list text, entry.2.isWhole = true) ∧
      Layout.strict.behindAll (Lexeme.list text) = .strict := by
  apply isWhole_of_complete hplace houter
  intro entry hentry flags hflags
  rw [← Bool.not_eq_true]
  intro hloose
  exact h ⟨entry, hentry, by rw [hflags, Lexeme.changesReading, hloose, Bool.true_or]⟩

theorem not_changesReading_of_not_setsFlags {text : Text} (h : ¬ SetsFlags text) :
    ¬ ChangesReading text := by
  rintro ⟨⟨place, lexeme⟩, hentry, hchanges⟩
  cases lexeme with
  | wholeFlags flags => exact h ⟨_, hentry, rfl⟩
  | _ => cases hchanges

/-- Behind a name, a group is opened, and the text in it is read as a text where blanks count. -/
theorem list_open_group (hwhole : ∀ entry ∈ Lexeme.list name, entry.2.isWhole = true)
    (hnests : Layout.strict.Nests (Lexeme.list name))
    (hstrict : Layout.strict.behindAll (Lexeme.list name) = .strict) {rest : Text}
    (hrest : rest ≠ ['\\']) :
    Lexeme.list (name ++ '(' :: '?' :: ':' :: rest) =
      Lexeme.list name ++ (name.length, .opening .plain) ::
        Lexeme.listFrom (name.length + 3) 0 (Layout.strict.around [false]) rest := by
  have hgroup : BreaksOff ('(' :: '?' :: ':' :: rest) := trivial
  have hrow := Lexeme.list_append hgroup 0 [] hwhole hnests
  have hopening : Lexeme.read false ('(' :: '?' :: ':' :: rest) = (.opening .plain, 3) := by
    simp [Lexeme.read, Lexeme.readSign, Lexeme.readExtension, hrest]
  rw [Layout.around_nil, hstrict, Layout.around_nil, Lexeme.map_moved_zero, Nat.add_zero,
    Lexeme.listFrom_cons_of_read hopening rfl] at hrow
  exact hrow

/-- The text of a name with a version and an extension. -/
theorem namePattern_of_version (name extension : Text) (hne : version ≠ []) :
    namePattern name version extension =
      name ++ '(' :: '?' :: ':' :: (version ++ ')' :: escape (suffixOf extension)) := by
  have hversion : version.isEmpty = false := by simpa using hne
  rw [namePattern_eq, hversion]
  simp

namespace Draft

theorem within_blank {around : Draft} (h : around.branches = .none) (offset : Nat) :
    within around offset blank = around := by
  obtain ⟨branches, outer, groups, names, closed, awaited, flags⟩ := around
  cases h
  simp [within, blank, Branches.raised, Branches.none]

/-- The draft of a name with a version in a group of its own, and an extension; the first number is the
length of the name. -/
def joined (name version : Draft) (length : Nat) (extension : Text) : Draft :=
  let inside := within (name.enter .plain length name.groups) (length + 3) version
  let group := .group none (version.branches.pattern.raised name.groups)
  addText { inside with branches := name.branches.add group, outer := [] } (suffixOf extension)

variable {first second : Draft}

theorem isHost_enter (houter : first.outer = []) (position number : Nat) :
    IsHost (first.enter .plain position number) := by
  intro opened hopened
  rw [enter, houter] at hopened
  rw [List.mem_singleton.1 hopened]
  exact ⟨rfl, rfl⟩

/-- Where the version stands, its lexemes mean the same as on their own if no groups are mixed up. -/
theorem suits_version (hfirst : blank.placeAll (Lexeme.list name) = .ok first)
    (hgroups : KeepsGroups name version) (position number : Nat) :
    ∀ entry ∈ Lexeme.list version, Suits (first.enter .plain position number) entry.2 := by
  intro entry hentry
  refine ⟨Lexeme.isSimple_listFrom entry hentry, hgroups.imp ?_ ?_, ?_⟩
  · intro hcaptures
    refine groups_of_placeAll hfirst fun other hother => ?_
    rw [← Bool.not_eq_true]
    exact fun hcapture => hcaptures ⟨other, hother, hcapture⟩
  · rintro ⟨hrefers, -⟩
    rw [← Bool.not_eq_true]
    exact fun hnumbered => hrefers ⟨entry, hentry, hnumbered⟩
  · intro group hgroup
    show first.names.lookup group = none
    rw [List.lookup_eq_none_iff]
    intro named hnamed
    rw [bne_iff_ne]
    rintro rfl
    rcases names_of_placeAll hfirst named hnamed with hblank | ⟨other, hother, hname⟩
    · cases hblank
    · rcases hgroups with hcaptures | ⟨-, hshares⟩
      · exact hcaptures ⟨other, hother, Lexeme.isCapture_of_groupName? hname⟩
      · exact hshares ⟨other, hother, entry, hentry, by rw [hname]; rfl, hgroup.trans hname.symm⟩

/-- The group with the version is closed behind it. -/
theorem closeGroup_joined (houterFirst : first.outer = []) (houterSecond : second.outer = [])
    (length position : Nat) :
    (within (first.enter .plain length first.groups) (length + 3) second).closeGroup position =
      .ok { within (first.enter .plain length first.groups) (length + 3) second with
        branches := first.branches.add (.group none (second.branches.pattern.raised first.groups))
        outer := [] } := by
  refine closeGroup_eq_ok_iff.2 ⟨⟨.plain, length, first.groups, first.branches⟩, [], ?_, ?_⟩
  · simp [within, enter, houterFirst, houterSecond]
  · have hpattern : OpenGroup.pattern ⟨.plain, length, first.groups, first.branches⟩
        (second.branches.raised first.groups) =
          .group none (second.branches.pattern.raised first.groups) := by
      simp [OpenGroup.pattern, Branches.pattern_raised]
    simp only [within, enter, closedWith, hpattern]

/-- The draft of a name with a version and an extension, if the version has no flags for the whole. -/
theorem placeAll_joined (extension : Text)
    (hfirst : blank.placeAll (Lexeme.list name) = .ok first) (houterFirst : first.outer = [])
    (hsecond : blank.placeAll (Lexeme.list version) = .ok second) (houterSecond : second.outer = [])
    (hne : version ≠ []) (hchanges : ¬ ChangesReading name) (hgroups : KeepsGroups name version)
    (hflags : ¬ SetsFlags version) :
    blank.placeAll (Lexeme.list (namePattern name version extension)) =
      .ok (joined first second name.length extension) := by
  obtain ⟨hwhole, hstrict⟩ := isWhole_of_not_changesReading hchanges hfirst houterFirst
  obtain ⟨hnests, -⟩ := nests_of_blank hfirst
  obtain ⟨hwhole', hstrict'⟩ := isWhole_of_not_changesReading
    (not_changesReading_of_not_setsFlags hflags) hsecond houterSecond
  obtain ⟨hnests', -⟩ := nests_of_blank hsecond
  have hclose : BreaksOff (')' :: escape (suffixOf extension)) := trivial
  have hclosing : Lexeme.read false (')' :: escape (suffixOf extension)) = (.closing, 1) := by
    simp [Lexeme.read, Lexeme.readSign, Lexeme.isPlacedFirst]
  have hinside := placeAll_within (name.length + 3)
    (isHost_enter houterFirst name.length first.groups)
    (suits_version hfirst hgroups name.length first.groups)
    (fun entry hentry => by
      rw [← Bool.not_eq_true]
      exact fun hwhole => hflags ⟨entry, hentry, hwhole⟩) hsecond
  rw [within_blank rfl] at hinside
  rw [namePattern_of_version name extension hne,
    list_open_group hwhole hnests hstrict (Lexeme.append_ne_slash hclose version),
    Lexeme.list_append hclose _ _ hwhole' hnests', hstrict', placeAll_append, hfirst]
  show (first.enter .plain name.length first.groups).placeAll (_ ++ _) = _
  rw [placeAll_append, hinside, Lexeme.listFrom_cons_of_read hclosing rfl, ok_bind, placeAll, place,
    closeGroup_joined houterFirst houterSecond]
  exact placeAll_chars (Lexeme.listFrom_escape ..) _

/-- The draft of a name with a version and an extension is complete if both drafts are. -/
theorem isComplete_joined (hfirst : blank.placeAll (Lexeme.list name) = .ok first)
    (hcompleteFirst : first.IsComplete) (hsecond : blank.placeAll (Lexeme.list version) = .ok second)
    (hcompleteSecond : second.IsComplete) (hchanges : ¬ ChangesReading name)
    (hflags : ¬ SetsFlags version) (length : Nat) (extension : Text) :
    (joined first second length extension).IsComplete := by
  have hnoTemplate {text : Text} {draft : Draft} (hplace : blank.placeAll (Lexeme.list text) = .ok draft)
      (h : ¬ ChangesReading text) : draft.flags.contains 't' = false := by
    rw [← Bool.not_eq_true, List.contains_iff_mem]
    intro hmem
    rcases flags_of_placeAll hplace 't' hmem with hblank | ⟨entry, hentry, flags, hflags, hmem⟩
    · cases hblank
    · exact h ⟨entry, hentry, by simp [hflags, Lexeme.changesReading, hmem]⟩
  have hfaultFirst := hcompleteFirst.faultless
  have hfaultSecond := hcompleteSecond.faultless
  rw [hnoTemplate hfirst hchanges] at hfaultFirst
  rw [hnoTemplate hsecond (not_changesReading_of_not_setsFlags hflags)] at hfaultSecond
  obtain ⟨hfinished, hparts⟩ := fault?_branches_eq_none_iff.1 hfaultFirst
  apply IsComplete.addText
  refine ⟨rfl, hcompleteFirst.alphabets, ?_, ?_⟩
  · intro entry hentry
    show entry.1 ≤ second.groups + first.groups
    rcases List.mem_append.1 hentry with hmem | hmem
    · exact Nat.le_add_left_of_le (hcompleteFirst.awaited entry hmem)
    · obtain ⟨other, hother, rfl⟩ := List.mem_map.1 hmem
      exact Nat.add_le_add_right (hcompleteSecond.awaited other hother) _
  · show Pattern.fault? (first.flags.contains 't') _ = none
    rw [hnoTemplate hfirst hchanges, fault?_branches_eq_none_iff]
    refine ⟨hfinished, List.forall_mem_cons.2 ⟨?_, hparts⟩⟩
    rw [fault?, fault?_raised]
    exact hfaultSecond

/-- In front of a lexeme that is no open comment, there is none. -/
theorem isWhole_front {text : Text} {front back : List (Nat × Lexeme)} {entry : Nat × Lexeme}
    (hfaults : ∀ entry ∈ Lexeme.list text, entry.2.isFault = false)
    (hlist : Lexeme.list text = front ++ entry :: back) :
    ∀ other ∈ front, other.2.isWhole = true := by
  intro other hother
  rw [Lexeme.isWhole_iff]
  refine ⟨hfaults other (by rw [hlist]; exact List.mem_append_left _ hother), ?_⟩
  intro hopen
  obtain ⟨before, behind, rfl⟩ := List.append_of_mem hother
  rw [List.append_assoc, List.cons_append] at hlist
  obtain ⟨hnil, -⟩ := loose_of_open hfaults hlist hopen
  simp at hnil

/-- Flags for the whole pattern have no place where the version stands. -/
theorem placeAll_namePattern_of_setsFlags (extension : Text)
    (hfirst : blank.placeAll (Lexeme.list name) = .ok first) (houterFirst : first.outer = [])
    (hsecond : blank.placeAll (Lexeme.list version) = .ok second)
    (hne : version ≠ []) (hchanges : ¬ ChangesReading name) (hgroups : KeepsGroups name version)
    (hflags : SetsFlags version) :
    ∃ error, blank.placeAll (Lexeme.list (namePattern name version extension)) = .error error := by
  obtain ⟨hwhole, hstrict⟩ := isWhole_of_not_changesReading hchanges hfirst houterFirst
  obtain ⟨hnests, -⟩ := nests_of_blank hfirst
  have hclose : BreaksOff (')' :: escape (suffixOf extension)) := trivial
  -- the lexemes of the version up to the flags are the same where it stands
  obtain ⟨entry, hentry, hentryFlags⟩ := hflags
  obtain ⟨front, back, hlist⟩ := List.append_of_mem hentry
  have hsplit : Lexeme.list version = (front ++ [entry]) ++ back := by
    rw [hlist, List.append_assoc]
    rfl
  have hwhole' : ∀ other ∈ front ++ [entry], other.2.isWhole = true := by
    intro other hother
    rcases List.mem_append.1 hother with hfront | hlast
    · exact isWhole_front (isFault_of_placeAll hsecond) hlist other hfront
    · rw [List.mem_singleton.1 hlast]
      exact Lexeme.isWhole_of_isWholeFlags hentryFlags
  have hplace := hsecond
  rw [hsplit, placeAll_append, bind_eq_ok_iff] at hplace
  obtain ⟨middle, hmiddle, -⟩ := hplace
  obtain ⟨hnests', -⟩ := nests_of_blank hmiddle
  obtain ⟨more, hmore⟩ := Lexeme.listFrom_append_front hclose (name.length + 3) [false] hsplit hwhole'
    hnests'
  rw [Nat.zero_add] at hmore
  obtain ⟨error, herror⟩ := placeAll_within_flags (name.length + 3)
    (isHost_enter houterFirst name.length first.groups)
    (fun other hother => suits_version hfirst hgroups name.length first.groups other
      (by rw [hsplit]; exact List.mem_append_left _ hother))
    (List.cons_ne_nil _ _) ⟨entry, by simp, hentryFlags⟩ hmiddle
  rw [within_blank rfl] at herror
  refine ⟨error, ?_⟩
  rw [namePattern_of_version name extension hne,
    list_open_group hwhole hnests hstrict (Lexeme.append_ne_slash hclose version), hmore,
    placeAll_append, hfirst]
  show (first.enter .plain name.length first.groups).placeAll (_ ++ _) = _
  rw [placeAll_append, herror]
  rfl

end Draft

/-- A name and a pattern of versions that are in order on their own are so together with an extension,
unless the pattern of versions has flags for the whole, which are too late then. No groups are mixed up,
and the name has no flags that change how the version is read. -/
theorem exists_ofText_namePattern_iff (extension : Text)
    (hname : ∃ pattern, ofText name = .ok pattern)
    (hversion : ∃ pattern, ofText version = .ok pattern) (hne : version ≠ [])
    (hchanges : ¬ ChangesReading name) (hgroups : KeepsGroups name version) :
    (∃ pattern, ofText (namePattern name version extension) = .ok pattern) ↔ ¬ SetsFlags version := by
  obtain ⟨first, hfirst, hcompleteFirst⟩ := exists_ofText_iff.1 hname
  obtain ⟨second, hsecond, hcompleteSecond⟩ := exists_ofText_iff.1 hversion
  rw [exists_ofText_iff]
  constructor
  · rintro ⟨draft, hdraft, -⟩ hflags
    obtain ⟨error, herror⟩ := Draft.placeAll_namePattern_of_setsFlags extension hfirst
      hcompleteFirst.outer hsecond hne hchanges hgroups hflags
    rw [herror] at hdraft
    cases hdraft
  · intro hflags
    exact ⟨_, Draft.placeAll_joined extension hfirst hcompleteFirst.outer hsecond hcompleteSecond.outer
      hne hchanges hgroups hflags, Draft.isComplete_joined hfirst hcompleteFirst hsecond
        hcompleteSecond hchanges hflags name.length extension⟩

end Pattern
end BuildLog
