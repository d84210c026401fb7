import BuildLog.Proofs.ShownValues
import BuildLog.Settings
import Mathlib.Data.List.DropRight
import Mathlib.Tactic.SplitIfs

/-!
# Settings that have passed the checks

* `Text.IsTrimmed`: no white space at either end, and `Text.isTrimmed_trim`, `Text.trim_of_isTrimmed`:
  these are the texts that trimming gives, and it leaves them as they are;
* `Settings.ofMembers_eq_ok_iff`, `Settings.assign_cases`: what it takes for named values to be settings,
  and for one of the settings to be set;
* `Settings.Overflows`: a pattern with a number that is too large. `Settings.exists_breaksOff_iff`,
  `Settings.exists_breaksOff_ofProperties_iff`: checks break off exactly for such a pattern, and those of kept
  values for a choice that cannot be shown as well;
* `Settings.AllowedPattern`: what the checks of settings ensure, and what every assignment keeps;
* `Settings.NormalPattern`: the same with a trimmed pattern, and `Settings.checkPattern_of_normalPattern`:
  such a pattern passes the check as it is.
-/

namespace BuildLog

/-! ## Trimmed texts -/

namespace Text

/-- A text has no white space at either end. -/
structure IsTrimmed (text : Text) : Prop where
  first : ∀ c ∈ text.head?, isSpace c = false
  last : ∀ c ∈ text.getLast?, isSpace c = false

theorem isSpace_head?_dropWhile {text : Text} {c : Char} (h : c ∈ (text.dropWhile isSpace).head?) :
    isSpace c = false := by
  have hnot := List.head?_dropWhile_not isSpace text
  rw [Option.mem_def.1 h] at hnot
  simpa using hnot

/-- A trimmed text is a prefix of what is left behind the white space in front. -/
theorem isTrimmed_trim (text : Text) : IsTrimmed (trim text) where
  first := by
    intro c hc
    have hprefix : trim text <+: text.dropWhile isSpace := List.rdropWhile_prefix ..
    obtain ⟨rest, hrest⟩ := hprefix
    have hhead : c ∈ (text.dropWhile isSpace).head? := by
      rw [← hrest, List.head?_append, Option.mem_def.1 hc]
      rfl
    exact isSpace_head?_dropWhile hhead
  last := by
    intro c hc
    rw [trim, List.getLast?_reverse] at hc
    exact isSpace_head?_dropWhile hc

theorem dropWhile_isSpace_of_head? {text : Text} (h : ∀ c ∈ text.head?, isSpace c = false) :
    text.dropWhile isSpace = text := by
  cases text with
  | nil => rfl
  | cons c text => exact List.dropWhile_cons_of_neg (by simp [h c rfl])

/-- Trimming leaves a trimmed text as it is. -/
theorem trim_of_isTrimmed {text : Text} (h : IsTrimmed text) : trim text = text := by
  have hlast : ∀ c ∈ text.reverse.head?, isSpace c = false := by
    rw [List.head?_reverse]
    exact h.last
  rw [trim, dropWhile_isSpace_of_head? h.first, dropWhile_isSpace_of_head? hlast, List.reverse_reverse]

end Text

namespace Settings

variable {settings changed : Settings}

/-! ## Passing the checks -/

/-- Named values are settings if each of the three values passes its check, and no name is unknown. -/
theorem ofMembers_eq_ok_iff {members : List (Text × Json)} :
    ofMembers members = .ok settings ↔
      member members enabledField false boolOf = .ok settings.versionEnabled ∧
        member members patternField defaultPattern patternOf = .ok settings.versionPattern ∧
        member members backslashField false boolOf = .ok settings.matchBackslash ∧
        unknownNames members = [] := by
  unfold ofMembers
  cases member members enabledField false boolOf with
  | error fault => simp [errorOf]
  | ok enabled =>
    cases member members patternField defaultPattern patternOf with
    | error fault => simp [errorOf]
    | ok pattern =>
      cases member members backslashField false boolOf with
      | error fault => simp [errorOf]
      | ok backslash =>
        cases unknownNames members with
        | nil =>
          obtain ⟨versionEnabled, versionPattern, matchBackslash⟩ := settings
          simp [errorOf]
        | cons error errors => simp [errorOf]

/-- A value behind a check is that of a checked value. -/
theorem exists_ok_of_checked {α : Type} {checked : Except FieldFault α} {use : α → Settings}
    {tell : FieldFault → FieldError} (h : (checked.map use).mapError tell = .ok changed) :
    ∃ a, checked = .ok a ∧ changed = use a := by
  cases checked with
  | error fault => cases h
  | ok a => exact ⟨a, rfl, (Except.ok.inj h).symm⟩

/-- If one of the settings is set, its name tells which one, and the value has passed its check. -/
theorem assign_cases {field : Text} {value : Json} (h : settings.assign field value = .ok changed) :
    (∃ enabled, field = enabledField ∧ boolOf value = .ok enabled ∧
        changed = { settings with versionEnabled := enabled }) ∨
      (∃ pattern, field = patternField ∧ patternOf value = .ok pattern ∧
        changed = { settings with versionPattern := pattern }) ∨
      ∃ backslash, field = backslashField ∧ boolOf value = .ok backslash ∧
        changed = { settings with matchBackslash := backslash } := by
  unfold assign at h
  dsimp only at h
  split_ifs at h with henabled hpattern hbackslash
  · obtain ⟨enabled, hvalue, rfl⟩ := exists_ok_of_checked h
    exact .inl ⟨enabled, henabled, hvalue, rfl⟩
  · obtain ⟨pattern, hvalue, rfl⟩ := exists_ok_of_checked h
    exact .inr (.inl ⟨pattern, hpattern, hvalue, rfl⟩)
  · obtain ⟨backslash, hvalue, rfl⟩ := exists_ok_of_checked h
    exact .inr (.inr ⟨backslash, hbackslash, hvalue, rfl⟩)
  · cases h

/-- A pattern passes the check if it is empty without its white space, and stands for the usual one then,
or if it is in order without it. -/
theorem checkPattern_eq_ok_iff {text pattern : Text} :
    checkPattern text = .ok pattern ↔
      Text.trim text = [] ∧ pattern = defaultPattern ∨
        Text.trim text ≠ [] ∧ pattern = Text.trim text ∧ ∃ parsed, Pattern.ofText pattern = .ok parsed := by
  unfold checkPattern
  dsimp only
  split
  · rename_i hempty
    have hnil := List.isEmpty_iff.1 hempty
    simp [hnil, eq_comm]
  · rename_i hne
    have hnotNil := fun hnil => hne (List.isEmpty_iff.2 hnil)
    split
    · rename_i parsed hparsed
      constructor
      · intro h
        cases h
        exact .inr ⟨hnotNil, rfl, parsed, hparsed⟩
      · rintro (⟨hnil, -⟩ | ⟨-, rfl, -⟩)
        · exact absurd hnil hnotNil
        · rfl
    · rename_i error herror
      constructor
      · intro h
        cases h
      · rintro (⟨hnil, -⟩ | ⟨-, rfl, parsed, hparsed⟩)
        · exact absurd hnil hnotNil
        · cases herror.symm.trans hparsed

/-- Only texts are patterns. -/
theorem exists_text_of_patternOf {value : Json} {pattern : Text} (h : patternOf value = .ok pattern) :
    ∃ text, value = .string text ∧ checkPattern text = .ok pattern := by
  cases value with
  | string text => exact ⟨text, rfl, h⟩
  | _ => cases h

/-! ## Checks that break off -/

/-- A value is a text, and its pattern has a number that is too large for the machine. -/
def Overflows (value : Json) : Prop :=
  ∃ text error, value = .string text ∧ Pattern.ofText (Text.trim text) = .error error ∧
    error.fault.kind = .overflow

/-- A pattern is refused for the error that it has without its white space. -/
theorem checkPattern_eq_error_iff {text : Text} {fault : FieldFault} :
    checkPattern text = .error fault ↔ ∃ error, Pattern.ofText (Text.trim text) = .error error ∧
      fault = patternFault (Text.trim text) error := by
  unfold checkPattern
  dsimp only
  split
  · rename_i hempty
    rw [List.isEmpty_iff.1 hempty]
    exact iff_of_false nofun (by rintro ⟨error, ⟨⟩, -⟩)
  · cases Pattern.ofText (Text.trim text) with
    | ok parsed => exact iff_of_false nofun (by rintro ⟨error, ⟨⟩, -⟩)
    | error error => simp [eq_comm]

theorem breaksOff_patternFault {pattern : Text} {error : PatternError} :
    (patternFault pattern error).breaksOff = true ↔ error.fault.kind = .overflow := by
  unfold patternFault
  cases error.fault.kind <;> simp [FieldFault.breaksOff]

theorem breaksOff_patternOf_iff {value : Json} {fault : FieldFault} (h : patternOf value = .error fault) :
    fault.breaksOff = true ↔ Overflows value := by
  cases value with
  | string text =>
    obtain ⟨error, herror, rfl⟩ := checkPattern_eq_error_iff.1 h
    simp [breaksOff_patternFault, Overflows, herror]
  | _ =>
    cases h
    exact iff_of_false nofun (by rintro ⟨text, error, ⟨⟩, -⟩)

/-- A value is no truth value for one of two reasons. -/
theorem boolOf_eq_error {value : Json} {fault : FieldFault} (h : boolOf value = .error fault) :
    fault = .badBool ∨ fault = .notBool := by
  unfold boolOf boolOfInt at h
  grind

theorem any_errorOf_iff {α : Type} (field : Text) {checked : Except FieldFault α} :
    (errorOf field checked).any (·.fault.breaksOff) = true ↔
      ∃ fault, checked = .error fault ∧ fault.breaksOff = true := by
  cases checked <;> simp [errorOf]

/-- The check of a truth value never breaks off. -/
theorem any_errorOf_boolOf (members : List (Text × Json)) (field : Text) :
    (errorOf field (member members field false boolOf)).any (·.fault.breaksOff) = false := by
  rw [← Bool.not_eq_true, any_errorOf_iff]
  rintro ⟨fault, hchecked, hbreaks⟩
  unfold member at hchecked
  split at hchecked
  · obtain rfl | rfl := boolOf_eq_error hchecked <;> cases hbreaks
  · cases hchecked

theorem any_told (errors : List FieldError) :
    (told errors).any (·.fault.breaksOff) = errors.any (·.fault.breaksOff) := by
  unfold told
  split
  · rename_i error hfound
    have hbreaks : error.fault.breaksOff = true := by simpa using List.find?_some hfound
    rw [List.any_eq_true.2 ⟨error, List.mem_of_find?_eq_some hfound, hbreaks⟩]
    simp [hbreaks]
  · rfl

theorem exists_patternOf_eq_error {value : Json} (h : Overflows value) :
    ∃ fault, patternOf value = .error fault := by
  obtain ⟨text, error, rfl, herror, -⟩ := h
  exact ⟨_, checkPattern_eq_error_iff.2 ⟨error, herror, rfl⟩⟩

/-- The check of named values breaks off exactly if the pattern has a number that is too large. -/
theorem exists_breaksOff_iff {members : List (Text × Json)} :
    (∃ errors, ofMembers members = .error errors ∧ errors.any (·.fault.breaksOff) = true) ↔
      ∃ value, Json.member? patternField members = some value ∧ Overflows value := by
  have hpattern : (∃ fault, member members patternField defaultPattern patternOf = .error fault ∧
      fault.breaksOff = true) ↔ ∃ value, Json.member? patternField members = some value ∧
        Overflows value := by
    rw [member]
    cases Json.member? patternField members with
    | none => simp
    | some value =>
      constructor
      · rintro ⟨fault, hfault, hbreaks⟩
        exact ⟨value, rfl, (breaksOff_patternOf_iff hfault).1 hbreaks⟩
      · rintro ⟨_, ⟨⟩, hlarge⟩
        obtain ⟨fault, hfault⟩ := exists_patternOf_eq_error hlarge
        exact ⟨fault, hfault, (breaksOff_patternOf_iff hfault).2 hlarge⟩
  have hnames : (unknownNames members).any (·.fault.breaksOff) = false := by
    simp [unknownNames, FieldFault.breaksOff]
  rw [← hpattern, ← any_errorOf_iff patternField]
  cases hresult : ofMembers members with
  | ok settings =>
    rw [(ofMembers_eq_ok_iff.1 hresult).2.1]
    exact iff_of_false nofun (Bool.false_ne_true)
  | error errors =>
    have herrors : told (errorOf enabledField (member members enabledField false boolOf) ++
        errorOf patternField (member members patternField defaultPattern patternOf) ++
        errorOf backslashField (member members backslashField false boolOf) ++
        unknownNames members) = errors := by
      unfold ofMembers at hresult
      dsimp only at hresult
      split at hresult
      · cases hresult
      · exact Except.error.inj hresult
    have hany : errors.any (·.fault.breaksOff) = (errorOf patternField
        (member members patternField defaultPattern patternOf)).any (·.fault.breaksOff) := by
      rw [← herrors, any_told, List.any_append, List.any_append, List.any_append, any_errorOf_boolOf,
        any_errorOf_boolOf, hnames, Bool.or_false, Bool.or_false, Bool.false_or]
    rw [← hany]
    exact ⟨fun ⟨_, hsame, hbreaks⟩ => Except.error.inj hsame ▸ hbreaks, fun hbreaks => ⟨_, rfl, hbreaks⟩⟩

/-- The pattern among kept values has a number that is too large exactly if one is kept that has. -/
theorem overflows_keptPattern_iff {kept : List (Text × Json)} :
    Overflows (keptPattern kept) ↔
      ∃ value, Json.member? patternKey kept = some value ∧ Overflows value := by
  have hdefault : ¬ Overflows (.string defaultPattern) := by
    rintro ⟨text, error, ⟨⟩, herror, -⟩
    cases herror
  unfold keptPattern
  cases Json.member? patternKey kept with
  | none => simp [hdefault]
  | some value =>
    dsimp only
    split
    · simp
    · rename_i hgiven
      refine iff_of_false hdefault ?_
      rintro ⟨_, ⟨⟩, text, error, rfl, herror, -⟩
      cases text with
      | nil => cases herror
      | cons c text => exact hgiven rfl

/-- The check of kept values breaks off exactly if the choice cannot be shown, or the pattern has a number
that is too large. -/
theorem exists_breaksOff_ofProperties_iff {room : Nat} {kept : List (Text × Json)} :
    (∃ errors, ofProperties room kept = .error errors ∧ errors.any (·.fault.breaksOff) = true) ↔
      (∃ value, Json.member? enabledKey kept = some value ∧
        (value.hasLongNumber = true ∨ room < value.levels)) ∨
      ∃ value, Json.member? patternKey kept = some value ∧ Overflows value := by
  rw [← overflows_keptPattern_iff]
  have hchecked (enabled : Bool) : (∃ errors, ofMembers [(enabledField, .bool enabled),
      (patternField, keptPattern kept)] = .error errors ∧
      errors.any (·.fault.breaksOff) = true) ↔ Overflows (keptPattern kept) := by
    rw [exists_breaksOff_iff]
    exact ⟨fun ⟨_, hvalue, hlarge⟩ => Option.some.inj hvalue ▸ hlarge, fun hlarge => ⟨_, rfl, hlarge⟩⟩
  unfold ofProperties member
  cases Json.member? enabledKey kept with
  | none =>
    refine (hchecked false).trans (or_iff_right ?_).symm
    rintro ⟨_, ⟨⟩, -⟩
  | some value =>
    have hshown : (value.hasLongNumber = true ∨ room < value.levels) ↔
        ¬ ∃ text, value.display room = .ok text := by
      rw [Json.exists_display_iff, not_and_or, Bool.not_eq_false, Nat.not_le]
    simp only [saysTrue, Option.some.injEq, exists_eq_left', hshown]
    cases value.display room with
    | error fault =>
      exact iff_of_true ⟨_, rfl, rfl⟩ (.inl nofun)
    | ok text =>
      refine (hchecked _).trans (or_iff_right ?_).symm
      exact not_not_intro ⟨text, rfl⟩

/-! ## Patterns of versions -/

/-- What holds of the usual pattern and of all patterns that pass the check holds of the pattern of
settings. -/
theorem pattern_of_ofMembers {kind : Text → Prop} (hdefault : kind defaultPattern)
    (hchecked : ∀ value pattern, patternOf value = .ok pattern → kind pattern)
    {members : List (Text × Json)} (h : ofMembers members = .ok settings) :
    kind settings.versionPattern := by
  obtain ⟨-, hpattern, -, -⟩ := ofMembers_eq_ok_iff.1 h
  unfold member at hpattern
  split at hpattern
  · exact hchecked _ _ hpattern
  · rw [← Except.ok.inj hpattern]
    exact hdefault

/-- A setting that is set leaves the pattern as it is, or is a pattern that has passed the check. -/
theorem pattern_of_assign {kind : Text → Prop}
    (hchecked : ∀ value pattern, patternOf value = .ok pattern → kind pattern)
    {field : Text} {value : Json} (hkind : kind settings.versionPattern)
    (h : settings.assign field value = .ok changed) : kind changed.versionPattern := by
  obtain ⟨_, -, -, rfl⟩ | ⟨_, -, hpattern, rfl⟩ | ⟨_, -, -, rfl⟩ := assign_cases h
  · exact hkind
  · exact hchecked _ _ hpattern
  · exact hkind

/-- So does an attempt to set one, whether it fails or not. -/
theorem pattern_of_attempt {kind : Text → Prop}
    (hchecked : ∀ value pattern, patternOf value = .ok pattern → kind pattern)
    (hkind : kind settings.versionPattern) (field : Text) (value : Json) :
    kind (settings.attempt field value).1.versionPattern := by
  unfold attempt
  split
  · rename_i changed hchanged
    exact pattern_of_assign hchecked hkind hchanged
  · exact hkind

/-- A pattern of versions that passes the check: it is not empty, and it is in order on its own. -/
structure AllowedPattern (pattern : Text) : Prop where
  ne_nil : pattern ≠ []
  inOrder : ∃ parsed, Pattern.ofText pattern = .ok parsed

/-- A pattern of versions as the check leaves it: it has no white space at either end. -/
structure NormalPattern (pattern : Text) : Prop extends AllowedPattern pattern where
  trimmed : Text.IsTrimmed pattern

theorem normalPattern_default : NormalPattern defaultPattern where
  ne_nil := by decide
  inOrder := ⟨_, rfl⟩
  trimmed := by
    have htrim : Text.trim defaultPattern = defaultPattern := by decide
    rw [← htrim]
    exact Text.isTrimmed_trim defaultPattern

/-- Whatever value is given, the pattern that is taken is in order and trimmed. -/
theorem normalPattern_of_patternOf {value : Json} {pattern : Text}
    (h : patternOf value = .ok pattern) : NormalPattern pattern := by
  obtain ⟨text, -, hcheck⟩ := exists_text_of_patternOf h
  obtain ⟨-, rfl⟩ | ⟨hne, rfl, hparsed⟩ := checkPattern_eq_ok_iff.1 hcheck
  · exact normalPattern_default
  · exact ⟨⟨hne, hparsed⟩, Text.isTrimmed_trim text⟩

/-- The check leaves a pattern as it is that has passed it before. -/
theorem patternOf_of_normalPattern {pattern : Text} (h : NormalPattern pattern) :
    patternOf (.string pattern) = .ok pattern := by
  have htrim := Text.trim_of_isTrimmed h.trimmed
  exact checkPattern_eq_ok_iff.2 (.inr ⟨by rw [htrim]; exact h.ne_nil, htrim.symm, h.inOrder⟩)

theorem allowedPattern_of_patternOf {value : Json} {pattern : Text}
    (h : patternOf value = .ok pattern) : AllowedPattern pattern :=
  (normalPattern_of_patternOf h).toAllowedPattern

theorem allowedPattern_of_ofMembers {members : List (Text × Json)}
    (h : ofMembers members = .ok settings) : AllowedPattern settings.versionPattern :=
  pattern_of_ofMembers normalPattern_default.toAllowedPattern (fun _ _ => allowedPattern_of_patternOf) h

end Settings
end BuildLog
