import BuildLog.Proofs.CheckedSettings
import BuildLog.Proofs.LoadedSettings
import BuildLog.Proofs.WrittenJson
import Mathlib.Data.List.Perm.Basic

/-!
# Settings that are kept

Settings may be set one by one, and kept in a file in between: as texts, of which the usual pattern is left
out, or under their own names.

* `Settings.run`: settings after several attempts to set one of them;
* `Settings.kept`, `Settings.toMembers`: the two forms in which settings are kept;
  `Settings.ofProperties_perm` and `Settings.ofMembers_perm`: in either, the order does not matter;
* `SettingsFile.Holds`: a file holds named values, and `SettingsFile.holds_of_written`: so does each file
  to which they were written;
* `Settings.kept_of_run`: the settings stay in order all the time, and can be had back from what is kept.
-/

namespace BuildLog

/-! ## The order of members -/

namespace Json

variable {members found : List (Text × Json)} {name : Text} {value : Json}

/-- Where all names are different, each stands for its value. -/
theorem member?_eq_some_iff (h : (members.map (·.1)).Nodup) :
    member? name members = some value ↔ (name, value) ∈ members := by
  induction members with
  | nil => simp [member?]
  | cons entry members ih =>
    obtain ⟨key, old⟩ := entry
    obtain ⟨hnew, hrest⟩ := List.nodup_cons.1 h
    by_cases hkey : key = name
    · subst hkey
      have hnot : (key, value) ∉ members := fun hmem =>
        hnew (List.mem_map.2 ⟨_, hmem, rfl⟩)
      simp [member?, hnot, eq_comm]
    · rw [member?, if_neg (by simpa using hkey), ih hrest]
      simp [Ne.symm hkey]

/-- For the values of members, their order does not matter. -/
theorem member?_perm (hperm : found.Perm members) (h : (members.map (·.1)).Nodup) (name : Text) :
    member? name found = member? name members := by
  have hfound : (found.map (·.1)).Nodup := (hperm.map _).nodup_iff.2 h
  refine Option.ext fun value => ?_
  rw [member?_eq_some_iff h, member?_eq_some_iff hfound, hperm.mem_iff]

end Json

namespace Settings

variable {settings : Settings} {members found : List (Text × Json)}

theorem ofMembers_perm (hperm : found.Perm members) (hnames : (members.map (·.1)).Nodup)
    (h : ofMembers members = .ok settings) : ofMembers found = .ok settings := by
  obtain ⟨henabled, hpattern, hbackslash, hunknown⟩ := ofMembers_eq_ok_iff.1 h
  have hfound : unknownNames found = [] := by
    have hsame : (unknownNames found).Perm (unknownNames members) := (hperm.filter _).map _
    rw [hunknown] at hsame
    exact hsame.eq_nil
  refine ofMembers_eq_ok_iff.2 ⟨?_, ?_, ?_, hfound⟩
  · rwa [member, Json.member?_perm hperm hnames]
  · rwa [member, Json.member?_perm hperm hnames]
  · rwa [member, Json.member?_perm hperm hnames]

theorem ofProperties_perm (room : Nat) (hperm : found.Perm members)
    (hnames : (members.map (·.1)).Nodup) : ofProperties room found = ofProperties room members := by
  rw [ofProperties, ofProperties, member, member, keptPattern, keptPattern,
    Json.member?_perm hperm hnames, Json.member?_perm hperm hnames]

/-! ## What is kept -/

/-- Settings as the texts that are kept. -/
def kept (settings : Settings) : List (Text × Json) :=
  settings.properties.map fun entry => (entry.1, .string entry.2)

/-- The word that is kept for a choice. -/
def keptWord (choice : Bool) : Json :=
  .string (if choice then "true" else "false").toList

/-- The usual pattern is left out, and any other one is kept. -/
theorem kept_cases (settings : Settings) :
    settings.versionPattern = defaultPattern ∧
        settings.kept = [(enabledKey, keptWord settings.versionEnabled)] ∨
      settings.kept = [(enabledKey, keptWord settings.versionEnabled),
        (patternKey, .string settings.versionPattern)] := by
  unfold kept properties
  by_cases husual : settings.hasDefaultPattern = true
  · rw [if_pos husual]
    exact .inl ⟨eq_of_beq husual, rfl⟩
  · rw [if_neg husual]
    exact .inr rfl

theorem nodup_names_kept (settings : Settings) : (settings.kept.map (·.1)).Nodup := by
  have hnames : [enabledKey, patternKey].Nodup := by decide
  obtain ⟨-, hkept⟩ | hkept := kept_cases settings
  · rw [hkept]
    exact hnames.sublist (List.sublist_append_left [enabledKey] [patternKey])
  · rw [hkept]
    exact hnames

theorem enabledKey_mem_names_kept (settings : Settings) : enabledKey ∈ settings.kept.map (·.1) := by
  obtain ⟨-, hkept⟩ | hkept := kept_cases settings <;> rw [hkept] <;> exact List.mem_cons_self

theorem nodup_names_toMembers (settings : Settings) : (settings.toMembers.map (·.1)).Nodup := by
  have hnames : fields.Nodup := by decide
  exact hnames

/-- Two settings find the same versions. -/
structure AgreesOnVersions (settings others : Settings) : Prop where
  enabled : settings.versionEnabled = others.versionEnabled
  pattern : settings.versionPattern = others.versionPattern
  effective : settings.effectivePattern = others.effectivePattern

theorem ofMembers_toMembers (h : NormalPattern settings.versionPattern) :
    ofMembers settings.toMembers = .ok settings :=
  ofMembers_eq_ok_iff.2 ⟨rfl, patternOf_of_normalPattern h, rfl, rfl⟩

/-- A choice and a pattern that are kept as texts are checked as they are. -/
theorem ofProperties_pair (room : Nat) {choice : Bool} {pattern : Text} (h : pattern ≠ []) :
    ofProperties room [(enabledKey, keptWord choice), (patternKey, .string pattern)] =
      ofMembers [(enabledField, .bool choice), (patternField, .string pattern)] := by
  obtain ⟨c, pattern, rfl⟩ := List.exists_cons_of_ne_nil h
  cases choice <;> rfl

/-- Without a pattern, the usual one is taken. -/
theorem ofProperties_single (room : Nat) (choice : Bool) :
    ofProperties room [(enabledKey, keptWord choice)] =
      ofMembers [(enabledField, .bool choice), (patternField, .string defaultPattern)] := by
  cases choice <;> rfl

/-- All but the choice about backslashes is had back from the texts that are kept. -/
theorem ofProperties_kept (room : Nat) (h : NormalPattern settings.versionPattern) :
    ofProperties room settings.kept = .ok { settings with matchBackslash := false } := by
  have hchecked : ofMembers [(enabledField, .bool settings.versionEnabled),
      (patternField, .string settings.versionPattern)] = .ok { settings with matchBackslash := false } :=
    ofMembers_eq_ok_iff.2 ⟨rfl, patternOf_of_normalPattern h, rfl, rfl⟩
  obtain ⟨husual, hkept⟩ | hkept := kept_cases settings
  · rw [hkept, ofProperties_single room, ← husual, hchecked]
  · rw [hkept, ofProperties_pair room h.ne_nil, hchecked]

/-! ## Runs of attempts -/

/-- Settings after several attempts to set one of them. -/
def run (settings : Settings) (changes : List (Text × Json)) : Settings :=
  changes.foldl (fun settings change => (settings.attempt change.1 change.2).1) settings

/-- Whatever is attempted, the pattern stays in order and trimmed. -/
theorem normalPattern_run (h : NormalPattern settings.versionPattern) (changes : List (Text × Json)) :
    NormalPattern (settings.run changes).versionPattern := by
  refine List.foldlRecOn changes _ (motive := fun settings : Settings =>
    NormalPattern settings.versionPattern) h ?_
  intro settings hnormal change _
  exact pattern_of_attempt (fun _ _ => normalPattern_of_patternOf) hnormal change.1 change.2

/-- An attempt that fails leaves all settings as they are. -/
theorem attempt_of_error {field : Text} {value : Json} {error : FieldError}
    (h : (settings.attempt field value).2 = some error) :
    (settings.attempt field value).1 = settings := by
  unfold attempt at h ⊢
  split
  · rename_i changed hchanged
    rw [hchanged] at h
    cases h
  · rfl

end Settings

/-! ## Files -/

namespace SettingsFile

variable {room : Json.Room} {files : Files} {path : FilePath} {members found : List (Text × Json)}
  {settings : Settings}

/-- A file holds named values: its bytes are a document with these values, in any order. -/
inductive Holds (room : Json.Room) (files : Files) (path : FilePath) (members : List (Text × Json)) :
    Prop
  | intro (bytes : Bytes) (document : Text) (found : List (Text × Json)) (hfile : files path = .ok bytes)
      (hdecode : Bytes.decode bytes = .ok document)
      (hread : Json.read room.reading document = .ok ((Json.object found).map Text.codes))
      (hperm : found.Perm members)

/-- A file holds the values of different names that were written to it. -/
theorem holds_of_written {document : Text} (hfile : files path = .ok (Bytes.ofText document))
    (h : Json.ObjectText found document) (hperm : found.Perm members)
    (hnames : (members.map (·.1)).Nodup) : Holds room files path members :=
  .intro _ document found hfile (Bytes.decode_ofText document)
    (Json.read_objectText h ((hperm.map _).nodup_iff.2 hnames) room.reading) hperm

/-- The settings in a file are those of the values that it holds. -/
theorem exists_load_of_holds (h : Holds room files path members) :
    ∃ found : List (Text × Json), found.Perm members ∧
      load room files path = ofMembers room.showing (found.map Json.memberCodes) := by
  obtain ⟨bytes, document, found, hfile, hdecode, hread, hperm⟩ := h
  obtain rfl := Bytes.decode_eq_ok_iff.1 hdecode
  rw [Json.map, Json.mapMembers_codes] at hread
  exact ⟨found, hperm, (load_of_text hfile).trans (ofDocument_of_object hread)⟩

/-- A file with texts that were kept is recognized as one. -/
theorem load_of_holds_kept (hnormal : Settings.NormalPattern settings.versionPattern)
    (h : Holds room files path settings.kept) :
    load room files path = .ok { settings with matchBackslash := false } := by
  obtain ⟨found, hperm, hload⟩ := exists_load_of_holds h
  have hkept : isKept (found.map Json.memberCodes) = true := by
    rw [isKept, (hperm.map Json.memberCodes).any_eq]
    obtain ⟨entry, hentry, hkey⟩ := List.mem_map.1 settings.enabledKey_mem_names_kept
    refine List.any_eq_true.2 ⟨_, List.mem_map.2 ⟨entry, hentry, rfl⟩, ?_⟩
    simp [Json.memberCodes, hkey]
  rw [hload, ofMembers, if_pos hkept, checked_codes keptError?_codes,
    Settings.ofProperties_perm _ hperm settings.nodup_names_kept,
    Settings.ofProperties_kept _ hnormal]
  rfl

theorem load_of_holds_toMembers (hnormal : Settings.NormalPattern settings.versionPattern)
    (h : Holds room files path settings.toMembers) : load room files path = .ok settings := by
  obtain ⟨found, hperm, hload⟩ := exists_load_of_holds h
  have hnamed : isKept (found.map Json.memberCodes) = false := by
    rw [isKept, (hperm.map Json.memberCodes).any_eq]
    rfl
  rw [hload, ofMembers, hnamed, checked_codes fieldError?_codes,
    Settings.ofMembers_perm hperm settings.nodup_names_toMembers
      (Settings.ofMembers_toMembers hnormal)]
  rfl

end SettingsFile

/-! ## Settings that are had back -/

namespace Settings

/-- **Settings that are kept.** Settings that have passed the checks, and were set anew in any number of
attempts, have a pattern that is in order, not empty and trimmed, and an attempt that fails changes none of
them. The texts that are kept of them, and every file that holds these, give settings that find the same
versions. Every file that holds them under their own names gives just these settings. In whichever way and
order these texts and values are written to a file in UTF-8, it holds them. -/
theorem kept_of_run (room : Json.Room) {members : List (Text × Json)} {start : Settings}
    (h : ofMembers members = .ok start) (changes : List (Text × Json)) :
    let settings := start.run changes
    NormalPattern settings.versionPattern ∧
      (∀ field value error, (settings.attempt field value).2 = some error →
        (settings.attempt field value).1 = settings) ∧
      (∃ restored, ofProperties room.showing settings.kept = .ok restored ∧
        restored.AgreesOnVersions settings) ∧
      ∀ files path,
        (SettingsFile.Holds room files path settings.kept →
          ∃ restored, SettingsFile.load room files path = .ok restored ∧
            restored.AgreesOnVersions settings) ∧
        (SettingsFile.Holds room files path settings.toMembers →
          SettingsFile.load room files path = .ok settings) ∧
        ∀ written document, Json.ObjectText written document → files path = .ok (Bytes.ofText document) →
          (written.Perm settings.kept → SettingsFile.Holds room files path settings.kept) ∧
          (written.Perm settings.toMembers → SettingsFile.Holds room files path settings.toMembers) := by
  intro settings
  have hnormal : NormalPattern settings.versionPattern :=
    normalPattern_run (pattern_of_ofMembers normalPattern_default
      (fun _ _ => normalPattern_of_patternOf) h) changes
  refine ⟨hnormal, fun _ _ _ => attempt_of_error, ⟨_, ofProperties_kept _ hnormal, ⟨rfl, rfl, rfl⟩⟩, ?_⟩
  intro files path
  refine ⟨?_, SettingsFile.load_of_holds_toMembers hnormal, ?_⟩
  · intro hholds
    exact ⟨_, SettingsFile.load_of_holds_kept hnormal hholds, ⟨rfl, rfl, rfl⟩⟩
  · intro written document hwritten hfile
    exact ⟨fun hperm => SettingsFile.holds_of_written hfile hwritten hperm settings.nodup_names_kept,
      fun hperm =>
        SettingsFile.holds_of_written hfile hwritten hperm settings.nodup_names_toMembers⟩

/-- Settings with a pattern in blanks, one attempt that fails and one that does not. They are written over
several lines, and had back. -/
theorem kept_of_run_written :
    let pattern : Text × Json := (patternField, .string " _v\\d+\t".toList)
    let changes : List (Text × Json) :=
      [(patternField, .string "(".toList), (backslashField, .string "ON".toList)]
    let settings : Settings := ⟨true, "_v\\d+".toList, true⟩
    let files : Files := fun _ => .ok (Bytes.ofText (Json.pretty (.object settings.toMembers)))
    let room : Json.Room := ⟨0, 0⟩
    ∃ start, ofMembers [pattern, (enabledField, .int 1)] = .ok start ∧ start.run changes = settings ∧
      (start.attempt patternField (.string "(".toList)).2 ≠ none ∧
      SettingsFile.load room files (FilePath.ofText "settings.json".toList) = .ok settings := by
  intro pattern changes settings files room
  have hstart : ofMembers [pattern, (enabledField, .int 1)] = .ok ⟨true, "_v\\d+".toList, false⟩ := rfl
  have hrun : (⟨true, "_v\\d+".toList, false⟩ : Settings).run changes = settings := rfl
  have hplain : ∀ entry ∈ settings.toMembers, entry.2.IsPlain := by
    simp [toMembers, Json.isPlain_bool, Json.isPlain_string]
  obtain ⟨-, -, -, hfiles⟩ := kept_of_run room hstart changes
  rw [hrun] at hfiles
  obtain ⟨-, hload, hwritten⟩ := hfiles files (FilePath.ofText "settings.json".toList)
  have htext : Json.ObjectText settings.toMembers (Json.pretty (.object settings.toMembers)) :=
    Json.objectText_render Json.Layout.hasGaps_lines 0 (List.cons_ne_nil _ _) hplain
  exact ⟨_, hstart, hrun, by decide, hload ((hwritten _ _ htext rfl).2 (.refl _))⟩

end Settings
end BuildLog
