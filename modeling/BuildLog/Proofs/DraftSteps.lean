import BuildLog.Proofs.LexemeRows

/-!
# Steps of drafts

A draft takes one lexeme after the other. What a step can do is said once, and what follows for a whole row of
lexemes is derived from that.

* `Draft.refer_eq_ok_iff` to `Draft.setFlags_eq_ok_iff`: when the steps for the kinds of lexemes succeed,
  and what they lead to;
* `Draft.groups_of_placeAll`, `Draft.names_of_placeAll`, `Draft.flags_of_placeAll`: the groups and the
  flags of a draft are those of its lexemes;
* `Draft.nests_of_placeAll`: lexemes that have their place close no group that they have not opened;
* `Draft.IsComplete`, `Pattern.ofText_eq_ok_iff`: a text is a pattern exactly if its lexemes make a draft that
  is complete;
* `Pattern.isWhole_of_complete`: in a pattern that leaves blanks out nowhere but in groups, no comment is
  left open.
-/

namespace BuildLog

/-- The name of the group that a lexeme opens, if it has one. -/
def Lexeme.groupName? : Lexeme → Option Text
  | opening (.capture name) => name
  | _ => none

/-- Whether a lexeme opens a group that keeps its text. -/
def Lexeme.isCapture : Lexeme → Bool
  | opening (.capture _) => true
  | _ => false

/-- Whether a lexeme refers to a group by its number. -/
def Lexeme.isNumbered : Lexeme → Bool
  | reference (.number _) _ => true
  | opening (.condition (.number _) _) => true
  | _ => false

/-- Whether a lexeme sets flags for the whole pattern. -/
def Lexeme.isWholeFlags : Lexeme → Bool
  | wholeFlags _ => true
  | _ => false

/-- Whether a lexeme sets flags for the whole pattern that change how the text behind it is read: blanks
may be left out, or nothing may be repeated. -/
def Lexeme.changesReading : Lexeme → Bool
  | wholeFlags flags => flags.contains 'x' || flags.contains 't'
  | _ => false

theorem Lexeme.isWhole_of_isWholeFlags {lexeme : Lexeme} (h : lexeme.isWholeFlags = true) :
    lexeme.isWhole = true := by
  cases lexeme <;> first | rfl | cases h

theorem Lexeme.isCapture_of_groupName? {lexeme : Lexeme} {name : Text}
    (h : lexeme.groupName? = some name) : lexeme.isCapture = true := by
  cases lexeme with
  | opening kind =>
    cases kind with
    | capture name => rfl
    | _ => cases h
  | _ => cases h

namespace Pattern
namespace Draft

variable {draft next : Draft} {position : Nat} {lexeme : Lexeme}

/-! ## What steps lead to -/

theorem ok_bind {α β : Type} (value : α) (more : α → Step β) :
    ((.ok value : Step α) >>= more) = more value := rfl

theorem bind_eq_ok_iff {α β : Type} {step : Step α} {more : α → Step β} {result : β} :
    (step >>= more) = .ok result ↔ ∃ value, step = .ok value ∧ more value = .ok result := by
  cases step <;> simp [bind, Except.bind]

theorem refer_eq_ok_iff {target : GroupRef} {width : Nat} :
    draft.refer target width position = .ok next ↔ ∃ number place taken,
      draft.resolve position target = .ok (number, place) ∧
      draft.closed.lookup number = some taken ∧
      draft.checkBehind number (position + width) = .ok () ∧
      draft.add (.backref number taken) = next := by
  unfold refer
  rw [bind_eq_ok_iff]
  constructor
  · rintro ⟨⟨number, place⟩, hresolve, hrest⟩
    dsimp only at hrest
    split at hrest
    · cases hrest
    · rename_i taken htaken
      obtain ⟨⟨⟩, hcheck, hnext⟩ := bind_eq_ok_iff.1 hrest
      exact ⟨number, place, taken, hresolve, htaken, hcheck, Except.ok.inj hnext⟩
  · rintro ⟨number, place, taken, hresolve, htaken, hcheck, rfl⟩
    refine ⟨(number, place), hresolve, ?_⟩
    dsimp only
    rw [htaken]
    exact bind_eq_ok_iff.2 ⟨(), hcheck, rfl⟩

theorem quantify_eq_ok_iff {greed : Greed} {least : Nat} {most : Option Nat} :
    draft.quantify greed least most position = .ok next ↔ ∃ part parts,
      draft.branches.parts = part :: parts ∧ (∀ place, part ≠ .anchor place) ∧
      (∀ greed least most body, part ≠ .iterate greed least most body) ∧
      { draft with branches :=
          { draft.branches with parts := .iterate greed least most part :: parts } } = next := by
  unfold quantify
  constructor
  · intro h
    split at h
    · cases h
    · cases h
    · cases h
    · rename_i part parts hanchor hiterate hparts
      exact ⟨part, parts, hparts, fun place hsame => hanchor place hsame,
        fun greed least most body hsame => hiterate greed least most body hsame, Except.ok.inj h⟩
  · rintro ⟨part, parts, hparts, hanchor, hiterate, rfl⟩
    rw [hparts]
    cases part with
    | anchor place => exact absurd rfl (hanchor place)
    | iterate greed least most body => exact absurd rfl (hiterate greed least most body)
    | _ => rfl

theorem enterCapture_eq_ok_iff {name : Option Text} :
    draft.enterCapture name position = .ok next ↔
      (∀ name' ∈ name, draft.names.lookup name' = none) ∧
      { draft.enter (.capture name) position (draft.groups + 1) with
        groups := draft.groups + 1
        names := (name.map fun name => (name, draft.groups + 1)).toList ++ draft.names } = next := by
  unfold enterCapture
  cases name with
  | none => simp [enter]
  | some name =>
    dsimp only
    have hall : (∀ name' ∈ some name, draft.names.lookup name' = none) ↔
        draft.names.lookup name = none :=
      ⟨fun h => h name rfl, fun h name' hname => Option.some.inj hname ▸ h⟩
    rw [hall]
    cases draft.names.lookup name with
    | none => exact ⟨fun h => ⟨rfl, Except.ok.inj h⟩, fun h => congrArg Except.ok h.2⟩
    | some before => exact ⟨nofun, nofun⟩

theorem enterCondition_eq_ok_iff {target : GroupRef} {width : Nat} :
    draft.enterCondition target width position = .ok next ↔ ∃ number,
      draft.conditionNumber position target = .ok number ∧
      draft.checkBehind number (position + width) = .ok () ∧
      (draft.await position target).enter (.condition target width) position number = next := by
  unfold enterCondition
  rw [bind_eq_ok_iff]
  constructor
  · rintro ⟨number, hnumber, hrest⟩
    obtain ⟨⟨⟩, hcheck, hnext⟩ := bind_eq_ok_iff.1 hrest
    exact ⟨number, hnumber, hcheck, Except.ok.inj hnext⟩
  · rintro ⟨number, hnumber, hcheck, rfl⟩
    exact ⟨number, hnumber, bind_eq_ok_iff.2 ⟨(), hcheck, rfl⟩⟩

theorem closeGroup_eq_ok_iff :
    draft.closeGroup position = .ok next ↔ ∃ opened outer, draft.outer = opened :: outer ∧
      { draft with
        branches := opened.before.add (opened.pattern draft.branches)
        outer := outer
        closed := draft.closedWith opened } = next := by
  unfold closeGroup
  cases houter : draft.outer with
  | nil => simp
  | cons opened outer => simp

theorem divide_eq_ok_iff :
    draft.divide position = .ok next ↔
      (draft.outer.head?.any (·.isCondition) && !draft.branches.finished.isEmpty) = false ∧
      { draft with branches := draft.branches.divide } = next := by
  unfold divide
  cases draft.outer.head?.any (·.isCondition) && !draft.branches.finished.isEmpty <;> simp

theorem setFlags_eq_ok_iff {flags : Text} :
    draft.setFlags flags position = .ok next ↔
      (draft.outer = [] ∧ draft.branches.finished = [] ∧ draft.branches.parts = []) ∧
      { draft with flags := draft.flags ++ flags } = next := by
  unfold setFlags
  split
  · rename_i hstart
    simp only [Bool.and_eq_true, List.isEmpty_iff] at hstart
    simp [hstart.1, hstart.2]
  · rename_i hlate
    simp only [Bool.and_eq_true, List.isEmpty_iff] at hlate
    simp only [reduceCtorEq, false_iff]
    rintro ⟨⟨houter, hfinished, hparts⟩, -⟩
    exact hlate ⟨⟨houter, hfinished⟩, hparts⟩

/-- A row of lexemes has its places if the first one has, and the others behind it. -/
theorem placeAll_cons_eq_ok_iff {entry : Nat × Lexeme} {entries : List (Nat × Lexeme)} :
    draft.placeAll (entry :: entries) = .ok next ↔ ∃ following,
      draft.place entry.1 entry.2 = .ok following ∧ following.placeAll entries = .ok next := by
  rw [placeAll]
  cases draft.place entry.1 entry.2 <;> simp

theorem placeAll_append (draft : Draft) (first second : List (Nat × Lexeme)) :
    draft.placeAll (first ++ second) = draft.placeAll first >>= (·.placeAll second) := by
  induction first generalizing draft with
  | nil => rfl
  | cons entry first ih =>
    rw [List.cons_append, placeAll, placeAll]
    cases draft.place entry.1 entry.2 with
    | error error => rfl
    | ok next => exact ih next

theorem isFault_of_placeAll {entries : List (Nat × Lexeme)} (h : draft.placeAll entries = .ok next) :
    ∀ entry ∈ entries, entry.2.isFault = false := by
  induction entries generalizing draft with
  | nil => simp
  | cons entry entries ih =>
    obtain ⟨following, hplace, hrest⟩ := placeAll_cons_eq_ok_iff.1 h
    intro other hother
    rcases List.mem_cons.1 hother with rfl | hother
    · obtain ⟨place, lexeme⟩ := other
      cases lexeme <;> first | rfl | cases hplace
    · exact ih hrest other hother

/-! ## Groups -/

/-- Groups are counted and named where a group that keeps its text is opened. -/
theorem groups_of_place (h : draft.place position lexeme = .ok next) :
    next.groups = (if lexeme.isCapture then draft.groups + 1 else draft.groups) ∧
    next.names =
      (lexeme.groupName?.map fun name => (name, draft.groups + 1)).toList ++ draft.names := by
  cases lexeme with
  | part pattern =>
    cases h
    exact ⟨rfl, rfl⟩
  | reference target width =>
    obtain ⟨_, _, _, -, -, -, rfl⟩ := refer_eq_ok_iff.1 h
    exact ⟨rfl, rfl⟩
  | quantifier greed least most =>
    obtain ⟨_, _, -, -, -, rfl⟩ := quantify_eq_ok_iff.1 h
    exact ⟨rfl, rfl⟩
  | opening kind =>
    cases kind with
    | capture name =>
      obtain ⟨-, rfl⟩ := enterCapture_eq_ok_iff.1 h
      exact ⟨rfl, rfl⟩
    | condition target width =>
      obtain ⟨_, -, -, rfl⟩ := enterCondition_eq_ok_iff.1 h
      cases target <;> exact ⟨rfl, rfl⟩
    | _ =>
      cases h
      exact ⟨rfl, rfl⟩
  | wholeFlags flags =>
    obtain ⟨-, rfl⟩ := setFlags_eq_ok_iff.1 h
    exact ⟨rfl, rfl⟩
  | filler isOpen =>
    cases h
    exact ⟨rfl, rfl⟩
  | closing =>
    obtain ⟨_, _, -, rfl⟩ := closeGroup_eq_ok_iff.1 h
    exact ⟨rfl, rfl⟩
  | bar =>
    obtain ⟨-, rfl⟩ := divide_eq_ok_iff.1 h
    exact ⟨rfl, rfl⟩
  | fault fault place => cases h

theorem groups_of_placeAll {entries : List (Nat × Lexeme)} (h : draft.placeAll entries = .ok next)
    (hcapture : ∀ entry ∈ entries, entry.2.isCapture = false) : next.groups = draft.groups := by
  induction entries generalizing draft with
  | nil =>
    cases h
    rfl
  | cons entry entries ih =>
    obtain ⟨following, hplace, hrest⟩ := placeAll_cons_eq_ok_iff.1 h
    rw [ih hrest fun other hother => hcapture other (List.mem_cons_of_mem _ hother),
      (groups_of_place hplace).1, hcapture entry (by simp), if_neg Bool.false_ne_true]

/-- The names of groups are those of the lexemes that open them. -/
theorem names_of_placeAll {entries : List (Nat × Lexeme)} (h : draft.placeAll entries = .ok next) :
    ∀ named ∈ next.names, named ∈ draft.names ∨ ∃ entry ∈ entries, entry.2.groupName? = some named.1 := by
  induction entries generalizing draft with
  | nil =>
    cases h
    exact fun named hnamed => .inl hnamed
  | cons entry entries ih =>
    obtain ⟨following, hplace, hrest⟩ := placeAll_cons_eq_ok_iff.1 h
    intro named hnamed
    rcases ih hrest named hnamed with hbefore | ⟨other, hother, hname⟩
    · rw [(groups_of_place hplace).2, List.mem_append] at hbefore
      rcases hbefore with hown | hbefore
      · obtain ⟨name, hname, rfl⟩ := Option.map_eq_some_iff.1 (Option.mem_toList.1 hown)
        exact .inr ⟨entry, by simp, hname⟩
      · exact .inl hbefore
    · exact .inr ⟨other, List.mem_cons_of_mem _ hother, hname⟩

/-! ## Flags -/

/-- The flags of a draft are those that its lexemes set. -/
theorem flags_of_place (h : draft.place position lexeme = .ok next) :
    next.flags = draft.flags ∨ ∃ flags, lexeme = .wholeFlags flags ∧ next.flags = draft.flags ++ flags := by
  cases lexeme with
  | part pattern =>
    cases h
    exact .inl rfl
  | reference target width =>
    obtain ⟨_, _, _, -, -, -, rfl⟩ := refer_eq_ok_iff.1 h
    exact .inl rfl
  | quantifier greed least most =>
    obtain ⟨_, _, -, -, -, rfl⟩ := quantify_eq_ok_iff.1 h
    exact .inl rfl
  | opening kind =>
    cases kind with
    | capture name =>
      obtain ⟨-, rfl⟩ := enterCapture_eq_ok_iff.1 h
      exact .inl rfl
    | condition target width =>
      obtain ⟨_, -, -, rfl⟩ := enterCondition_eq_ok_iff.1 h
      cases target <;> exact .inl rfl
    | _ =>
      cases h
      exact .inl rfl
  | wholeFlags flags =>
    obtain ⟨-, rfl⟩ := setFlags_eq_ok_iff.1 h
    exact .inr ⟨flags, rfl, rfl⟩
  | filler isOpen =>
    cases h
    exact .inl rfl
  | closing =>
    obtain ⟨_, _, -, rfl⟩ := closeGroup_eq_ok_iff.1 h
    exact .inl rfl
  | bar =>
    obtain ⟨-, rfl⟩ := divide_eq_ok_iff.1 h
    exact .inl rfl
  | fault fault place => cases h

theorem flags_of_placeAll {entries : List (Nat × Lexeme)} (h : draft.placeAll entries = .ok next) :
    ∀ c ∈ next.flags, c ∈ draft.flags ∨
      ∃ entry ∈ entries, ∃ flags, entry.2 = .wholeFlags flags ∧ c ∈ flags := by
  induction entries generalizing draft with
  | nil =>
    cases h
    exact fun c hc => .inl hc
  | cons entry entries ih =>
    obtain ⟨following, hplace, hrest⟩ := placeAll_cons_eq_ok_iff.1 h
    intro c hc
    rcases ih hrest c hc with hbefore | ⟨other, hother, flags, hflags, hc⟩
    · rcases flags_of_place hplace with hsame | ⟨flags, hflags, hmore⟩
      · exact .inl (hsame ▸ hbefore)
      · rw [hmore, List.mem_append] at hbefore
        exact hbefore.imp_right fun hc => ⟨entry, by simp, flags, hflags, hc⟩
    · exact .inr ⟨other, List.mem_cons_of_mem _ hother, flags, hflags, hc⟩

/-! ## Layouts -/

/-- A lexeme that has its place opens a group in the draft where it opens one in the layout, and closes one
where it closes one. -/
theorem length_outer_of_place {layout : Layout} (hdepth : draft.outer.length = layout.outer.length)
    (h : draft.place position lexeme = .ok next) :
    next.outer.length = (layout.behind lexeme).outer.length ∧
      (lexeme = .closing → layout.outer ≠ []) := by
  cases lexeme with
  | part pattern =>
    cases h
    exact ⟨hdepth, nofun⟩
  | reference target width =>
    obtain ⟨_, _, _, -, -, -, rfl⟩ := refer_eq_ok_iff.1 h
    exact ⟨hdepth, nofun⟩
  | quantifier greed least most =>
    obtain ⟨_, _, -, -, -, rfl⟩ := quantify_eq_ok_iff.1 h
    exact ⟨hdepth, nofun⟩
  | opening kind =>
    have hdeeper : draft.outer.length + 1 = layout.outer.length + 1 := by rw [hdepth]
    refine ⟨?_, nofun⟩
    cases kind with
    | capture name =>
      obtain ⟨-, rfl⟩ := enterCapture_eq_ok_iff.1 h
      exact hdeeper
    | condition target width =>
      obtain ⟨_, -, -, rfl⟩ := enterCondition_eq_ok_iff.1 h
      cases target <;> exact hdeeper
    | _ =>
      cases h
      exact hdeeper
  | wholeFlags flags =>
    obtain ⟨-, rfl⟩ := setFlags_eq_ok_iff.1 h
    exact ⟨hdepth, nofun⟩
  | filler isOpen =>
    cases h
    exact ⟨hdepth, nofun⟩
  | closing =>
    obtain ⟨opened, outer, houter, rfl⟩ := closeGroup_eq_ok_iff.1 h
    obtain ⟨loose, groups⟩ := layout
    rw [houter] at hdepth
    cases groups with
    | nil => cases hdepth
    | cons inner groups => exact ⟨by simpa [Layout.behind] using hdepth, fun _ => by simp⟩
  | bar =>
    obtain ⟨-, rfl⟩ := divide_eq_ok_iff.1 h
    exact ⟨hdepth, nofun⟩
  | fault fault place => cases h

/-- Lexemes that have their place close no group that is not open. -/
theorem nests_of_placeAll {entries : List (Nat × Lexeme)} {layout : Layout}
    (hdepth : draft.outer.length = layout.outer.length) (h : draft.placeAll entries = .ok next) :
    layout.Nests entries ∧ next.outer.length = (layout.behindAll entries).outer.length := by
  induction entries generalizing draft layout with
  | nil =>
    cases h
    exact ⟨trivial, hdepth⟩
  | cons entry entries ih =>
    obtain ⟨following, hplace, hrest⟩ := placeAll_cons_eq_ok_iff.1 h
    obtain ⟨hlength, hclosing⟩ := length_outer_of_place hdepth hplace
    obtain ⟨hnests, hmore⟩ := ih hlength hrest
    exact ⟨⟨hclosing, hnests⟩, hmore⟩

/-- The lexemes of a text start where blanks count and no group is open. -/
theorem nests_of_blank {entries : List (Nat × Lexeme)} (h : blank.placeAll entries = .ok next) :
    Layout.strict.Nests entries ∧
      next.outer.length = (Layout.strict.behindAll entries).outer.length :=
  nests_of_placeAll rfl h

/-! ## Complete drafts -/

/-- A draft is complete: nothing is open or missing, and there is no fault in the pattern as a whole. -/
structure IsComplete (draft : Draft) : Prop where
  outer : draft.outer = []
  alphabets : draft.hasTwoAlphabets = false
  awaited : ∀ entry ∈ draft.awaited, entry.1 ≤ draft.groups
  faultless : draft.branches.pattern.fault? (draft.flags.contains 't') = none

/-- The pattern of a draft with its flags. -/
def result (draft : Draft) : Pattern :=
  if draft.flags.isEmpty then draft.branches.pattern else .flagged draft.flags [] draft.branches.pattern

theorem finish_eq_ok_iff {pattern : Pattern} :
    draft.finish = .ok pattern ↔ draft.IsComplete ∧ draft.result = pattern := by
  unfold finish
  cases houter : draft.outer with
  | cons opened outer =>
    simp only [reduceCtorEq, false_iff]
    rintro ⟨hcomplete, -⟩
    exact absurd (houter.symm.trans hcomplete.outer) (List.cons_ne_nil _ _)
  | nil =>
    dsimp only
    split
    · rename_i halphabets
      simp only [reduceCtorEq, false_iff]
      rintro ⟨hcomplete, -⟩
      rw [hcomplete.alphabets] at halphabets
      cases halphabets
    · rename_i halphabets
      split
      · rename_i number place hawaited
        have hmem := List.mem_of_find?_eq_some hawaited
        have hlarge := List.find?_some hawaited
        simp only [reduceCtorEq, false_iff]
        rintro ⟨hcomplete, -⟩
        have hsmall := hcomplete.awaited _ hmem
        rw [decide_eq_true_iff] at hlarge
        omega
      · rename_i hawaited
        have hall : ∀ entry ∈ draft.awaited, entry.1 ≤ draft.groups := by
          intro entry hentry
          have hnot := List.find?_eq_none.1 hawaited entry hentry
          rw [decide_eq_true_iff] at hnot
          omega
        split
        · rename_i fault hfault
          simp only [reduceCtorEq, false_iff]
          rintro ⟨hcomplete, -⟩
          rw [hcomplete.faultless] at hfault
          cases hfault
        · rename_i hfault
          rw [Except.ok.injEq]
          exact ⟨fun h => ⟨⟨houter, by simpa using halphabets, hall, hfault⟩, h⟩, fun h => h.2⟩

end Draft

variable {text : Text} {pattern : Pattern} {draft : Draft}

/-- A text is a pattern exactly if its lexemes make a draft that is complete. -/
theorem ofText_eq_ok_iff :
    ofText text = .ok pattern ↔ ∃ draft, Draft.blank.placeAll (Lexeme.list text) = .ok draft ∧
      draft.IsComplete ∧ draft.result = pattern := by
  have hbind : ofText text = .ok pattern ↔
      (Draft.blank.placeAll (Lexeme.list text) >>= Draft.finish) = .ok pattern := by
    unfold ofText
    cases Draft.blank.placeAll (Lexeme.list text) >>= Draft.finish <;> simp
  rw [hbind, Draft.bind_eq_ok_iff]
  simp only [Draft.finish_eq_ok_iff]

theorem exists_ofText_iff :
    (∃ pattern, ofText text = .ok pattern) ↔
      ∃ draft, Draft.blank.placeAll (Lexeme.list text) = .ok draft ∧ draft.IsComplete := by
  constructor
  · rintro ⟨pattern, h⟩
    obtain ⟨draft, hplace, hcomplete, -⟩ := ofText_eq_ok_iff.1 h
    exact ⟨draft, hplace, hcomplete⟩
  · rintro ⟨draft, hplace, hcomplete⟩
    exact ⟨draft.result, ofText_eq_ok_iff.2 ⟨draft, hplace, hcomplete, rfl⟩⟩

/-! ## Open comments -/

/-- An open comment is the last lexeme, and blanks are left out where it stands. -/
theorem loose_of_open {layout : Layout} {position skip : Nat}
    (hfaults : ∀ entry ∈ Lexeme.listFrom position skip layout text, entry.2.isFault = false)
    {front back : List (Nat × Lexeme)} {entry : Nat × Lexeme}
    (hlist : Lexeme.listFrom position skip layout text = front ++ entry :: back)
    (hopen : entry.2 = .filler true) :
    back = [] ∧
      (layout.behindAll (Lexeme.listFrom position skip layout text)).loose = true := by
  induction text generalizing position skip layout front with
  | nil => simp [Lexeme.listFrom] at hlist
  | cons c text ih =>
    cases skip with
    | succ skip => exact ih hfaults hlist
    | zero =>
      obtain ⟨sign, width, hread, hsign⟩ := Lexeme.exists_read_of_not_isFault hfaults
      rw [Lexeme.listFrom_cons_of_read hread hsign] at hfaults hlist ⊢
      cases front with
      | nil =>
        obtain ⟨rfl, hback⟩ := List.cons.inj hlist
        obtain rfl : sign = .filler true := hopen
        obtain ⟨hloose, -, -, rfl⟩ := Lexeme.read_open hread
        rw [Lexeme.listFrom_of_length_le (by simp)] at hback ⊢
        exact ⟨hback.symm, hloose⟩
      | cons first front =>
        obtain ⟨-, hrest⟩ := List.cons.inj hlist
        exact ih (fun other hother => hfaults other (List.mem_cons_of_mem _ hother)) hrest

/-- Where no flag for the whole leaves blanks out, no comment is left open at the end of a pattern, and the
layout there is as strict as at the start. -/
theorem isWhole_of_complete (hplace : Draft.blank.placeAll (Lexeme.list text) = .ok draft)
    (houter : draft.outer = [])
    (hstrict : ∀ entry ∈ Lexeme.list text, ∀ flags,
      entry.2 = .wholeFlags flags → flags.contains 'x' = false) :
    (∀ entry ∈ Lexeme.list text, entry.2.isWhole = true) ∧
      Layout.strict.behindAll (Lexeme.list text) = .strict := by
  have hfaults := Draft.isFault_of_placeAll hplace
  obtain ⟨-, hdepth⟩ := Draft.nests_of_blank hplace
  have hbottom := Layout.bottom_behindAll .strict hstrict
  have hend : Layout.strict.behindAll (Lexeme.list text) = .strict := by
    generalize Layout.strict.behindAll (Lexeme.list text) = layout at hdepth hbottom
    obtain ⟨loose, outer⟩ := layout
    rw [houter] at hdepth
    obtain rfl : outer = [] := List.eq_nil_of_length_eq_zero hdepth.symm
    obtain rfl : loose = false := hbottom
    rfl
  refine ⟨?_, hend⟩
  intro entry hentry
  by_cases hopen : entry.2 = .filler true
  · obtain ⟨front, back, hlist⟩ := List.append_of_mem hentry
    obtain ⟨-, hloose⟩ := loose_of_open hfaults hlist hopen
    rw [show Lexeme.listFrom 0 0 .strict text = Lexeme.list text from rfl, hend] at hloose
    cases hloose
  · have hfault := hfaults entry hentry
    obtain ⟨place, lexeme⟩ := entry
    cases lexeme with
    | fault wrong offset => cases hfault
    | filler isOpen =>
      cases isOpen
      · rfl
      · exact absurd rfl hopen
    | _ => rfl

end Pattern
end BuildLog
