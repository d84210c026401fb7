import BuildLog.Proofs.KeptSettings
import BuildLog.Proofs.LoadedSettings
import BuildLog.Run

/-!
# Options in place of settings

The options of a call are put in place of the settings that it starts from, and all of them are checked once
more. Settings that were loaded pass the check as they are, so nothing but an option can be refused or change.

* `Settings.loaded`: the settings that a call starts from. `Settings.normalPattern_of_loaded`: they have
  passed the checks;
* `Settings.givenPattern?`, `Settings.withOptions`: the pattern that the options give, and the settings with
  the options in place of their own;
* `Settings.ofMembers_choices`: what the check makes of two choices and a pattern;
* `Settings.ofOptions_of_loaded`: the settings of a call.
-/

namespace BuildLog
namespace Settings

variable {room : Json.Room} {files : Files} {options : Options} {settings : Settings}

/-! ## The settings to start from -/

/-- The settings that a call starts from: those of a file, if one is named, or those without any choice
made. -/
def loaded (room : Json.Room) (files : Files) (options : Options) : Except SettingsError Settings :=
  match options.settings with
  | some path => SettingsFile.load room files path
  | none => .ok .default

theorem ofOptions_eq (room : Json.Room) (files : Files) (options : Options) :
    ofOptions room files options = loaded room files options >>= (·.override (changes options)) := by
  unfold ofOptions loaded
  cases options.settings <;> rfl

theorem normalPattern_of_loaded (h : loaded room files options = .ok settings) :
    NormalPattern settings.versionPattern := by
  unfold loaded at h
  split at h
  · exact SettingsFile.normalPattern_of_load h
  · cases h
    exact normalPattern_default

/-! ## The settings that are set anew -/

/-- The pattern of versions that the options give; an empty one counts as none. -/
def givenPattern? (options : Options) : Option Text :=
  options.versionPattern.filter (!·.isEmpty)

/-- The options give a pattern that is refused: something is left of it without the white space at its ends,
and that is not in order. -/
def GivesBadPattern (options : Options) : Prop :=
  ∃ pattern, givenPattern? options = some pattern ∧ Text.trim pattern ≠ [] ∧
    ¬ ∃ parsed, Pattern.ofText (Text.trim pattern) = .ok parsed

/-- Settings with the options in place of their own. A choice can only be made, and a given pattern is
trimmed; if nothing is left of it, it means the usual one. -/
def withOptions (settings : Settings) (options : Options) : Settings where
  versionEnabled := options.enableVersions || settings.versionEnabled
  versionPattern :=
    match givenPattern? options with
    | none => settings.versionPattern
    | some pattern => if Text.trim pattern = [] then defaultPattern else Text.trim pattern
  matchBackslash := options.matchBackslash || settings.matchBackslash

/-- Two choices and a pattern under their names. -/
def choices (enabled : Bool) (pattern : Text) (backslash : Bool) : List (Text × Json) :=
  [(enabledField, .bool enabled), (patternField, .string pattern), (backslashField, .bool backslash)]

/-- Each option is put in place of the setting with its name. -/
theorem foldl_put_changes (settings : Settings) (options : Options) :
    (changes options).foldl (fun members change => Json.put members change.1 change.2)
        settings.toMembers =
      choices (options.enableVersions || settings.versionEnabled)
        ((givenPattern? options).getD settings.versionPattern)
        (options.matchBackslash || settings.matchBackslash) := by
  unfold changes givenPattern?
  cases options.enableVersions <;> cases options.matchBackslash <;>
    rcases options.versionPattern with _ | _ | ⟨c, pattern⟩ <;> rfl

/-- Only the pattern can be refused. -/
theorem ofMembers_choices (enabled : Bool) (pattern : Text) (backslash : Bool) :
    ofMembers (choices enabled pattern backslash) =
      match checkPattern pattern with
      | .ok checked => .ok ⟨enabled, checked, backslash⟩
      | .error fault => .error [⟨some patternField, fault⟩] := by
  have htold (error : FieldError) : told [error] = [error] := by
    unfold told
    cases hbreaks : error.fault.breaksOff <;> simp [hbreaks]
  have hpattern : member (choices enabled pattern backslash) patternField defaultPattern patternOf =
      checkPattern pattern := rfl
  unfold ofMembers
  rw [hpattern]
  cases checkPattern pattern with
  | ok checked => rfl
  | error fault => exact congrArg Except.error (htold ⟨some patternField, fault⟩)

/-- Settings that have passed the checks are checked once more, even if nothing is set anew. -/
theorem override_changes (h : NormalPattern settings.versionPattern) (options : Options) :
    settings.override (changes options) =
      (ofMembers (choices (options.enableVersions || settings.versionEnabled)
        ((givenPattern? options).getD settings.versionPattern)
        (options.matchBackslash || settings.matchBackslash))).mapError .refused := by
  rw [← foldl_put_changes]
  unfold override
  split
  · rename_i hnone
    rw [List.isEmpty_iff.1 hnone, List.foldl_nil, ofMembers_toMembers h]
    rfl
  · rfl

/-! ## The pattern that is checked -/

/-- A pattern that is not refused is taken in the end, or the one that was there before. -/
theorem checkPattern_withOptions (h : NormalPattern settings.versionPattern)
    (hgood : ¬ GivesBadPattern options) :
    checkPattern ((givenPattern? options).getD settings.versionPattern) =
      .ok (settings.withOptions options).versionPattern := by
  unfold withOptions
  cases hgiven : givenPattern? options with
  | none => exact patternOf_of_normalPattern h
  | some pattern =>
    dsimp only [Option.getD_some]
    split
    · rename_i hnil
      exact checkPattern_eq_ok_iff.2 (.inl ⟨hnil, rfl⟩)
    · rename_i hne
      have hparsed : ∃ parsed, Pattern.ofText (Text.trim pattern) = .ok parsed := by
        by_contra hnot
        exact hgood ⟨pattern, hgiven, hne, hnot⟩
      exact checkPattern_eq_ok_iff.2 (.inr ⟨hne, rfl, hparsed⟩)

/-! ## The settings of a call -/

/-- **The settings of a call.** For settings that a call starts from, without a file or from a file in
either form, its own settings cannot be had exactly if its options give a pattern from which something is
left without white space at its ends, and which is not in order then. In all other cases, each of the
settings is what its option says, if that is given, and stays as it was otherwise. -/
theorem ofOptions_of_loaded (h : loaded room files options = .ok settings) :
    ((∃ error, ofOptions room files options = .error error) ↔ GivesBadPattern options) ∧
    (¬ GivesBadPattern options → ofOptions room files options = .ok (settings.withOptions options)) := by
  have hnormal := normalPattern_of_loaded h
  have hresult : ofOptions room files options = settings.override (changes options) := by
    rw [ofOptions_eq, h]
    rfl
  rw [hresult, override_changes hnormal, ofMembers_choices]
  by_cases hbad : GivesBadPattern options
  · refine ⟨iff_of_true ?_ hbad, fun hgood => absurd hbad hgood⟩
    obtain ⟨pattern, hgiven, hne, hnot⟩ := hbad
    rw [hgiven, Option.getD_some]
    cases hcheck : checkPattern pattern with
    | error fault => exact ⟨_, rfl⟩
    | ok checked =>
      obtain ⟨hnil, -⟩ | ⟨-, rfl, hparsed⟩ := checkPattern_eq_ok_iff.1 hcheck
      · exact absurd hnil hne
      · exact absurd hparsed hnot
  · rw [checkPattern_withOptions hnormal hbad]
    refine ⟨iff_of_false ?_ hbad, fun _ => rfl⟩
    rintro ⟨error, ⟨⟩⟩

/-- Options on top of settings in the form in which they are kept. The pattern of the file and the given one
both stand in blanks, and the versions of the file stay accepted although that option is not given. -/
theorem ofOptions_of_loaded_kept :
    let members : List (Text × Json) :=
      [(patternKey, .string " _v\\d+".toList), (enabledKey, .string "True".toList)]
    let files : Files := fun _ => .ok (Bytes.ofText (Json.pretty (.object members)))
    let path : FilePath := .ofText "settings.json".toList
    let given : Options := { settings := some path, versionPattern := some "-x\t".toList }
    let others : Options := { settings := some path, versionPattern := some [], matchBackslash := true }
    let bad : Options := { settings := some path, versionPattern := some " (".toList }
    let room : Json.Room := ⟨0, 0⟩
    loaded room files given = .ok ⟨true, "_v\\d+".toList, false⟩ ∧
    ofOptions room files given = .ok ⟨true, "-x".toList, false⟩ ∧
    ofOptions room files others = .ok ⟨true, "_v\\d+".toList, true⟩ ∧
    ∃ error, ofOptions room files bad = .error error := by
  intro members files path given others bad room
  have hplain : ∀ entry ∈ members, entry.2.IsPlain := by
    simp [members, Json.isPlain_string]
  have hread : Json.read room.reading (Json.pretty (.object members)) =
      .ok (.object (Json.mapMembers Text.codes members)) :=
    Json.read_pretty (List.cons_ne_nil _ _) hplain (by decide) room.reading
  have hmembers : SettingsFile.ofMembers room.showing (Json.mapMembers Text.codes members) =
      .ok ⟨true, "_v\\d+".toList, false⟩ := rfl
  have hfile : files path = .ok (Bytes.ofText (Json.pretty (.object members))) := rfl
  have hloaded (options : Options) (hpath : options.settings = some path) :
      loaded room files options = .ok ⟨true, "_v\\d+".toList, false⟩ := by
    rw [loaded, hpath]
    dsimp only
    rw [SettingsFile.load_of_text hfile, SettingsFile.ofDocument_of_object hread, hmembers]
  obtain ⟨-, hgiven⟩ := ofOptions_of_loaded (hloaded given rfl)
  obtain ⟨-, hothers⟩ := ofOptions_of_loaded (hloaded others rfl)
  obtain ⟨hbad, -⟩ := ofOptions_of_loaded (hloaded bad rfl)
  refine ⟨hloaded given rfl, hgiven ?_, hothers ?_, hbad.2 ⟨_, rfl, by decide, ?_⟩⟩
  · rintro ⟨pattern, ⟨⟩, -, hnot⟩
    exact hnot ⟨_, rfl⟩
  · rintro ⟨pattern, ⟨⟩, -⟩
  · rintro ⟨parsed, ⟨⟩⟩

end Settings
end BuildLog
