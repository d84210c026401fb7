import BuildLog.Proofs.JoinedPatterns
import BuildLog.Proofs.NameParts
import BuildLog.Proofs.RegularPatterns

/-!
# Patterns with a literal text in them

The pattern of a name is put in front of other patterns as text. What stands behind it is then a part of its
last alternative.

* `Pattern.search_parts`: parts in a row are searched one after the other;
* `Pattern.matchesIn_branches`: a pattern matches what one of its alternatives matches;
* `Draft.placeAll_extension`: an extension is added to the last alternative of a name, unless the name
  ends in an open comment;
* `Pattern.ofText_escape`, `Pattern.ofText_joined`: the patterns of a literal name, alone and with a version
  and an extension.
-/

namespace BuildLog

namespace Pattern

variable {pattern rest : Pattern} {text name : Text}

/-! ## Literal texts -/

theorem literal_append (front back : Text) (rest : Pattern) :
    literal (front ++ back) rest = literal front (literal back rest) :=
  List.foldr_append

theorem isRegular_literal (text : Text) (rest : Pattern) :
    (literal text rest).isRegular = rest.isRegular := by
  induction text with
  | nil => rfl
  | cons c text ih => simpa [literal, isRegular] using ih

theorem hasPossessive_literal (text : Text) (rest : Pattern) :
    (literal text rest).hasPossessive = rest.hasPossessive := by
  induction text with
  | nil => rfl
  | cons c text ih => simpa [literal, hasPossessive] using ih

/-! ## Sequences and alternatives -/

/-- Parts in a row, in front of a pattern. -/
theorem search_parts (parts : List Pattern) (rest : Pattern) (mode : Mode) (goal : Goal) :
    search (parts.foldl (fun rest part => .seq part rest) rest) mode goal =
      search (Branches.sequence parts) mode (search rest mode goal) := by
  have hseq (first second : Pattern) (goal : Goal) : search (.seq first second) mode goal =
      search first mode (search second mode goal) := rfl
  have hempty (goal : Goal) : search .empty mode goal = goal := rfl
  induction parts generalizing rest goal with
  | nil => rfl
  | cons part parts ih =>
    rw [Branches.sequence, List.foldl_cons, List.foldl_cons, ih, ih, hseq, hseq, hempty]

/-- Characters in a row, in front of a pattern. -/
theorem foldl_chars (text : Text) (rest : Pattern) :
    (text.map .char).reverse.foldl (fun rest part => .seq part rest) rest = literal text rest := by
  rw [List.foldl_reverse, List.foldr_map]
  rfl

/-- A text behind the parts of a sequence is searched behind all of them. -/
theorem matchesIn_parts_append (parts : List Pattern) (suffix : Text) (mode : Mode) (text : Text) :
    (Branches.sequence ((suffix.map .char).reverse ++ parts)).matchesIn mode text =
      (Pattern.seq (Branches.sequence parts) (literal suffix .empty)).matchesIn mode text := by
  rw [Branches.sequence, List.foldl_append, foldl_chars, matchesIn, search_parts]
  rfl

/-- A pattern matches what one of its alternatives matches. -/
theorem matchesIn_branches (branches : Branches) (mode : Mode) (text : Text) :
    branches.pattern.matchesIn mode text = true ↔
      (∃ branch ∈ branches.finished, branch.matchesIn mode text = true) ∨
        (Branches.sequence branches.parts).matchesIn mode text = true := by
  obtain ⟨finished, parts⟩ := branches
  have halt (first second : Pattern) : (Pattern.alt first second).matchesIn mode text = true ↔
      first.matchesIn mode text = true ∨ second.matchesIn mode text = true :=
    isSome_alt_iff
  have hfold (rest : Pattern) :
      (finished.foldl (fun rest branch => .alt branch rest) rest).matchesIn mode text = true ↔
        (∃ branch ∈ finished, branch.matchesIn mode text = true) ∨
          rest.matchesIn mode text = true := by
    induction finished generalizing rest with
    | nil => simp
    | cons branch finished ih =>
      rw [List.foldl_cons, ih, halt, List.exists_mem_cons_iff, or_assoc]
      exact or_left_comm
  exact hfold _

/-! ## Drafts -/

/-- The mode of a pattern with flags for the whole. -/
def Draft.mode (draft : Draft) : Mode :=
  Mode.plain.flagged draft.flags []

/-- The flags for the whole say how characters are compared. -/
theorem matchesAll_result (draft : Draft) (text : Text) :
    draft.result.matchesAll false text = draft.branches.pattern.matchesIn draft.mode text := by
  unfold Draft.result Draft.mode
  split
  · rename_i hempty
    rw [List.isEmpty_iff.1 hempty]
    rfl
  · rfl

/-- An extension is added to the last alternative of a name, unless a comment at the end of the name goes on
with it. -/
theorem Draft.placeAll_extension {draft : Draft} (extension : Text)
    (h : blank.placeAll (Lexeme.list name) = .ok draft) :
    blank.placeAll (Lexeme.list (namePattern name [] extension)) =
      .ok (if EndsOpen name then draft else draft.addText (suffixOf extension)) := by
  have htext : namePattern name [] extension = name ++ escape (suffixOf extension) := by
    rw [namePattern_eq]
    simp
  rw [htext]
  by_cases hempty : extension.isEmpty = true
  · rw [suffixOf, if_pos hempty, escape, List.flatMap_nil, List.append_nil, h]
    split <;> rfl
  · have hbreaks : BreaksOff (escape (suffixOf extension)) := by
      rw [suffixOf, if_neg hempty]
      trivial
    have hfaults := isFault_of_placeAll h
    by_cases hopen : EndsOpen name
    · rw [if_pos hopen, Lexeme.list, Lexeme.listFrom_append_of_open hbreaks
        (Lexeme.staysInLine_escape _) (Nat.zero_le _) hfaults hopen]
      exact h
    · rw [if_neg hopen]
      have hwhole : ∀ entry ∈ Lexeme.list name, entry.2.isWhole = true := by
        intro entry hentry
        exact Lexeme.isWhole_iff.2 ⟨hfaults entry hentry, fun hfiller => hopen ⟨entry, hentry, hfiller⟩⟩
      obtain ⟨hnests, -⟩ := nests_of_blank h
      have hrow := Lexeme.list_append hbreaks 0 [] hwhole hnests
      rw [Layout.around_nil, Layout.around_nil, Lexeme.map_moved_zero] at hrow
      rw [Lexeme.list, hrow, placeAll_append, h]
      exact placeAll_chars (Lexeme.listFrom_escape ..) draft

/-- The draft of a pattern without flags for the whole. -/
theorem exists_draft_of_not_setsFlags (hflags : ¬ SetsFlags text) (h : ofText text = .ok pattern) :
    ∃ draft, Draft.blank.placeAll (Lexeme.list text) = .ok draft ∧ draft.IsComplete ∧
      draft.branches.pattern = pattern ∧ pattern.raised 0 = pattern := by
  obtain ⟨draft, hplace, hcomplete, hresult⟩ := ofText_eq_ok_iff.1 h
  -- on its own, the text stands as it would within a draft that is blank
  have hsuits : ∀ entry ∈ Lexeme.list text, Draft.Suits .blank entry.2 :=
    fun entry hentry => ⟨Lexeme.isSimple_listFrom entry hentry, .inl rfl, fun _ _ => rfl⟩
  have hwithin := Draft.placeAll_within 0 Draft.isHost_blank hsuits
    (fun entry hentry => by
      rw [← Bool.not_eq_true]
      exact fun hwhole => hflags ⟨entry, hentry, hwhole⟩) hplace
  rw [Draft.within_blank rfl, Lexeme.map_moved_zero, hplace, Except.ok.injEq] at hwithin
  have hnone : draft.flags = [] := congrArg Draft.flags hwithin
  have hraised : draft.branches = draft.branches.raised 0 := congrArg Draft.branches hwithin
  have hpattern : draft.branches.pattern = pattern := by
    rw [← hresult, Draft.result, hnone]
    rfl
  refine ⟨draft, hplace, hcomplete, hpattern, ?_⟩
  rw [← hpattern, ← Branches.pattern_raised, ← hraised]

/-! ## Literal names -/

/-- The draft of an escaped text. -/
theorem placeAll_escape (text : Text) :
    Draft.blank.placeAll (Lexeme.list (escape text)) = .ok (Draft.blank.addText text) :=
  Draft.placeAll_chars (Lexeme.listFrom_escape 0 .strict text) .blank

theorem isComplete_blank : Draft.blank.IsComplete :=
  ⟨rfl, rfl, List.forall_mem_nil _, rfl⟩

/-- An escaped text is the pattern of that text. -/
theorem ofText_escape (text : Text) : ofText (escape text) = .ok (literal text .empty) := by
  refine ofText_eq_ok_iff.2 ⟨_, placeAll_escape text, isComplete_blank.addText text, ?_⟩
  show Branches.sequence ((text.map .char).reverse ++ []) = literal text .empty
  rw [List.append_nil, Branches.sequence, foldl_chars]

/-- An escaped text is made of characters only. -/
theorem exists_char_of_mem_escape {entry : Nat × Lexeme} (h : entry ∈ Lexeme.list (escape text)) :
    ∃ c, entry.2 = .part (.char c) := by
  have hmem : entry.2 ∈ text.map fun c => Lexeme.part (.char c) := by
    rw [← Lexeme.listFrom_escape 0 .strict text]
    exact List.mem_map_of_mem h
  obtain ⟨c, -, hc⟩ := List.mem_map.1 hmem
  exact ⟨c, hc.symm⟩

theorem not_changesReading_escape (text : Text) : ¬ ChangesReading (escape text) := by
  rintro ⟨entry, hentry, hchanges⟩
  obtain ⟨c, hc⟩ := exists_char_of_mem_escape hentry
  rw [hc] at hchanges
  cases hchanges

/-- An escaped text has no groups. -/
theorem not_captures_escape (text : Text) : ¬ Captures (escape text) := by
  rintro ⟨entry, hentry, hcapture⟩
  obtain ⟨c, hc⟩ := exists_char_of_mem_escape hentry
  rw [hc] at hcapture
  cases hcapture

theorem not_endsOpen_escape (text : Text) : ¬ EndsOpen (escape text) := by
  rintro ⟨entry, hentry, hopen⟩
  obtain ⟨c, hc⟩ := exists_char_of_mem_escape hentry
  rw [hc] at hopen
  cases hopen

/-- Behind a literal name, a pattern of versions stands for itself. -/
theorem ofText_joined {version : Text} (extension : Text) (h : ofText version = .ok pattern)
    (hne : version ≠ []) (hflags : ¬ SetsFlags version) :
    ofText (namePattern (escape name) version extension) =
      .ok (literal name (.seq (.group none pattern) (literal (suffixOf extension) .empty))) := by
  obtain ⟨draft, hplace, hcomplete, hpattern, hraised⟩ := exists_draft_of_not_setsFlags hflags h
  have hname := placeAll_escape name
  have hchanges := not_changesReading_escape name
  have hjoined := Draft.placeAll_joined extension hname rfl hplace hcomplete.outer hne hchanges
    (.inl (not_captures_escape name)) hflags
  have hwhole := Draft.isComplete_joined hname (isComplete_blank.addText name) hplace hcomplete hchanges
    hflags (escape name).length extension
  refine ofText_eq_ok_iff.2 ⟨_, hjoined, hwhole, ?_⟩
  show Branches.sequence (((suffixOf extension).map .char).reverse ++
    .group none (draft.branches.pattern.raised 0) :: ((name.map .char).reverse ++ [])) = _
  rw [hpattern, hraised, Branches.sequence, List.foldl_append, foldl_chars, List.foldl_cons,
    List.append_nil, foldl_chars]

end Pattern

/-! ## Endings of names -/

namespace Signature

variable {signature : Signature} {strategy : Strategy} {extension : Text}

/-- What stands behind the name and the version under a convention. -/
def ending (signature : Signature) (strategy : Strategy) : Text :=
  Pattern.suffixOf (if strategy.usesExtension then signature.extension.getD [] else [])

theorem ending_of_not_usesExtension (h : strategy.usesExtension = false) :
    signature.ending strategy = [] := by
  rw [ending, h]
  rfl

theorem ending_of_usesExtension (h : strategy.usesExtension = true)
    (hextension : signature.extension = some extension) (hne : extension ≠ []) :
    signature.ending strategy = '.' :: extension := by
  have hempty : extension.isEmpty = false := by simpa using hne
  rw [ending, if_pos h, hextension, Option.getD_some, Pattern.suffixOf, hempty]
  rfl

end Signature

end BuildLog
