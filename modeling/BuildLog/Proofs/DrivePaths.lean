import BuildLog.Proofs.ResolvedPaths

/-!
# Paths seen from a directory on a drive

A drive is a component like any other, so a path that leads far enough up leads out of it.

* `Path.drive`: the component that names a drive;
* `Path.resolve_of_drive`: below a drive, a relative path leads where the drive, the components behind it
  and its own lead;
* `Path.resolve_isAbsolute_iff`: so what comes out is absolute, and on the same drive, exactly if the way
  stays below the drive, or leads to one again. `not_isAbsolute_above_drive` is a way out.
-/

namespace BuildLog.Path

variable {directory path rest : Text} {letter : Char} {names parts : List Text} {ups : Nat}

/-! ## Drives -/

/-- The component that names a drive. -/
def drive (letter : Char) : Text := [letter, ':']

theorem ne_slash_of_isAlpha (h : letter.isAlpha = true) : letter ≠ '/' := by
  rintro rfl
  cases h

theorem isName_drive (h : letter.isAlpha = true) : IsName (drive letter) where
  ne_nil := by simp [drive]
  ne_here := by simp [drive]
  noSlash := by simp [drive, (ne_slash_of_isAlpha h).symm]
  ne_above := by simp [drive, above]

theorem not_isAbsolute_drive (letter : Char) (h : letter.isAlpha = true) :
    isAbsolute (drive letter) = false := by
  have hslash := ne_slash_of_isAlpha h
  unfold isAbsolute drive
  split <;> simp_all

theorem isAbsolute_drive_append (h : letter.isAlpha = true) (text : Text) :
    isAbsolute (drive letter ++ '/' :: text) = true := by
  have hslash := ne_slash_of_isAlpha h
  simp [drive, isAbsolute, h]

/-- Names behind a drive make an absolute path, but the drive alone does not. -/
theorem isAbsolute_joined_drive_iff (h : letter.isAlpha = true) :
    isAbsolute (Text.joined ['/'] (drive letter :: names)) = true ↔ names ≠ [] := by
  cases names with
  | nil => simp [Text.joined, not_isAbsolute_drive letter h]
  | cons name names =>
    rw [Text.joined, List.intercalate_cons_cons, List.append_assoc]
    simpa using isAbsolute_drive_append h (List.intercalate ['/'] (name :: names))

theorem drive_isPrefix_joined (letter : Char) (names : List Text) :
    drive letter <+: Text.joined ['/'] (drive letter :: names) := by
  cases names with
  | nil => simp [Text.joined]
  | cons name names =>
    rw [Text.joined, List.intercalate_cons_cons, List.append_assoc]
    exact List.prefix_append ..

/-- A way up makes neither an absolute path nor one on a drive. -/
theorem joined_above_cons (parts : List Text) :
    isAbsolute (Text.joined ['/'] (above :: parts)) = false ∧
      ∀ letter, letter.isAlpha = true → ¬ drive letter <+: Text.joined ['/'] (above :: parts) := by
  obtain ⟨rest, hrest⟩ : ∃ rest, Text.joined ['/'] (above :: parts) = '.' :: '.' :: rest := by
    cases parts with
    | nil => exact ⟨[], rfl⟩
    | cons part parts => exact ⟨_, rfl⟩
  rw [hrest]
  refine ⟨rfl, fun letter hletter hstarts => ?_⟩
  obtain ⟨more, hmore⟩ := hstarts
  cases hmore

/-! ## Below a drive -/

/-- The text of a path; the path that leads nowhere is `.`. -/
def orHere (text : Text) : Text :=
  if text.isEmpty then here else text

/-- The path that leads nowhere is neither absolute nor on a drive. -/
theorem isAbsolute_orHere (text : Text) : isAbsolute (orHere text) = isAbsolute text := by
  cases text <;> rfl

theorem drive_isPrefix_orHere_iff (text : Text) :
    drive letter <+: orHere text ↔ drive letter <+: text := by
  cases text with
  | nil => simp [orHere, drive, here]
  | cons c text => rfl

theorem orHere_joined_drive (letter : Char) (names : List Text) :
    orHere (Text.joined ['/'] (drive letter :: names)) = Text.joined ['/'] (drive letter :: names) := by
  obtain ⟨rest, hrest⟩ := drive_isPrefix_joined letter names
  rw [← hrest]
  rfl

/-- A path without a root leads where its components lead. -/
theorem normalize_of_root_eq_nil (h : root path = []) :
    normalize path =
      orHere (Text.joined ['/'] (simplify false (FilePath.componentsOf path))) := by
  simp [normalize, orHere, h, simplify_components]

theorem componentsOf_drive (h : letter.isAlpha = true) (rest : Text) :
    FilePath.componentsOf (drive letter ++ '/' :: rest) =
      drive letter :: FilePath.componentsOf rest := by
  have hdrive : FilePath.componentsOf (drive letter) = [drive letter] := by
    have hjoined : FilePath.componentsOf (Text.joined ['/'] [drive letter]) = [drive letter] :=
      FilePath.componentsOf_joined (by simpa using (isName_drive h).toIsStep)
    simpa [Text.joined] using hjoined
  rw [componentsOf_append, hdrive]
  rfl

theorem hasDrive_drive (h : letter.isAlpha = true) (text : Text) :
    hasDrive (drive letter ++ text) = true := h

theorem root_drive (h : letter.isAlpha = true) (text : Text) : root (drive letter ++ text) = [] := by
  rw [root_eq]
  simp [drive, ne_slash_of_isAlpha h]

theorem resolve_of_hasDrive (hdrive : hasDrive directory = true) (hpath : path ≠ [])
    (hrelative : isAbsolute path = false) :
    resolve directory path = normalize (below directory (withSlashes path)) := by
  simp [resolve, hpath, hrelative, hdrive]

/-- Below a drive, a backslash at the start of a path leads to the root. -/
theorem head?_resolve_of_backslash (hdrive : hasDrive directory = true)
    (hrelative : isAbsolute path = false) (hbackslash : path.head? = some '\\') :
    (resolve directory path).head? = some '/' := by
  obtain ⟨rest, rfl⟩ := List.head?_eq_some_iff.1 hbackslash
  have hhead : (withSlashes ('\\' :: rest)).head? = some '/' := rfl
  have hbelow : below directory (withSlashes ('\\' :: rest)) = withSlashes ('\\' :: rest) := by
    simp [below, hhead]
  obtain ⟨slashes, hslashes⟩ := exists_root_eq_cons hhead
  rw [resolve_of_hasDrive hdrive (List.cons_ne_nil _ _) hrelative, hbelow,
    normalize_of_rooted (by simp [hslashes]), hslashes]
  rfl

theorem head?_withSlashes (hrelative : isAbsolute path = false) (hbackslash : path.head? ≠ some '\\') :
    (withSlashes path).head? ≠ some '/' := by
  have hhead := head?_of_not_isAbsolute hrelative
  cases path with
  | nil => simp [withSlashes]
  | cons c path => simp_all [withSlashes]

/-- Below a drive, another relative path leads where the drive, the components behind it and its own
lead. -/
theorem resolve_of_drive (rest : Text) (hletter : letter.isAlpha = true) (hpath : path ≠ [])
    (hrelative : isAbsolute path = false) (hbackslash : path.head? ≠ some '\\') :
    resolve (drive letter ++ '/' :: rest) path =
      orHere (Text.joined ['/'] (simplify false (drive letter ::
        (FilePath.componentsOf rest ++ FilePath.componentsOf (withSlashes path))))) := by
  have hhead := head?_withSlashes hrelative hbackslash
  have hne : drive letter ++ '/' :: rest ≠ [] := List.cons_ne_nil _ _
  have hroot := root_below hne hhead
  rw [root_drive hletter] at hroot
  rw [resolve_of_hasDrive (hasDrive_drive hletter _) hpath hrelative, normalize_of_root_eq_nil hroot,
    componentsOf_below hne hhead, componentsOf_drive hletter, List.cons_append]

/-- The components behind a drive lead to names below the drive, or they lead out of it. -/
theorem simplify_drive_cons (hletter : letter.isAlpha = true) (h : Leads false parts ups names) :
    simplify false (drive letter :: parts) =
      if ups = 0 then drive letter :: names else List.replicate (ups - 1) above ++ names := by
  rcases h.cons (isName_drive hletter) with ⟨rfl, hleads⟩ | ⟨more, rfl, hleads⟩
  · exact hleads.simplify_eq
  · exact hleads.simplify_eq

/-- Names behind a drive are on it; what leads out of the drive by one step may name a drive again, and
what leads further up does not. -/
theorem joined_drive_cons (hletter : letter.isAlpha = true) (h : Leads false parts ups names) :
    let text := Text.joined ['/'] (simplify false (drive letter :: parts))
    (isAbsolute text = true ↔
      ups = 0 ∧ names ≠ [] ∨ ups = 1 ∧ isAbsolute (Text.joined ['/'] names) = true) ∧
    (drive letter <+: text ↔
      ups = 0 ∨ ups = 1 ∧ drive letter <+: Text.joined ['/'] names) := by
  intro text
  have htext : text = Text.joined ['/'] (simplify false (drive letter :: parts)) := rfl
  rw [simplify_drive_cons hletter h] at htext
  match ups with
  | 0 =>
    rw [if_pos rfl] at htext
    rw [htext, isAbsolute_joined_drive_iff hletter]
    simp [drive_isPrefix_joined]
  | 1 =>
    rw [if_neg (by decide)] at htext
    simp [htext]
  | more + 2 =>
    rw [if_neg (by omega)] at htext
    have habove : text = Text.joined ['/'] (above :: (List.replicate more above ++ names)) := htext
    obtain ⟨habsolute, hstarts⟩ := joined_above_cons (List.replicate more above ++ names)
    rw [habove, habsolute]
    simp [hstarts letter hletter]

/-- **Which paths are absolute.** Below a directory that starts with a slash, every path is resolved to an
absolute one. Below a drive, let the components behind the drive and those of a relative path lead some
directories up and then down along names. What comes out is on the drive if they lead no directory up, and
it is absolute if there are names then. If they lead just one directory up, which is out of the drive, it
is what the names say. Otherwise it is neither. A path that starts with a backslash leads to the root, and
not to the drive. -/
theorem resolve_isAbsolute_iff (directory path : Text) (hpath : path ≠ []) :
    (directory.head? = some '/' ∨ isAbsolute path = true →
      isAbsolute (resolve directory path) = true) ∧
    ∀ letter rest, letter.isAlpha = true → directory = drive letter ++ '/' :: rest →
      isAbsolute path = false →
      (path.head? = some '\\' → (resolve directory path).head? = some '/') ∧
      (path.head? ≠ some '\\' → ∃ ups names,
        Leads false (FilePath.componentsOf rest ++ FilePath.componentsOf (withSlashes path)) ups names ∧
        (ups = 0 →
          resolve directory path = Text.joined ['/'] (drive letter :: names)) ∧
        (isAbsolute (resolve directory path) = true ↔
          ups = 0 ∧ names ≠ [] ∨ ups = 1 ∧ isAbsolute (Text.joined ['/'] names) = true) ∧
        (drive letter <+: resolve directory path ↔
          ups = 0 ∨ ups = 1 ∧ drive letter <+: Text.joined ['/'] names)) := by
  constructor
  · intro habsolute
    by_cases hrelative : isAbsolute path = true
    · rwa [resolve_of_isAbsolute hrelative]
    · rw [Bool.not_eq_true] at hrelative
      have hdirectory := habsolute.resolve_right (by simp [hrelative])
      exact isAbsolute_of_rooted (head?_resolve hdirectory hpath hrelative)
  rintro letter rest hletter rfl hrelative
  constructor
  · exact head?_resolve_of_backslash (hasDrive_drive hletter _) hrelative
  · intro hbackslash
    obtain ⟨ups, names, hleads⟩ := exists_leads_componentsOf false rest (withSlashes path)
    obtain ⟨habsolute, hstarts⟩ := joined_drive_cons hletter hleads
    have hresolved := resolve_of_drive rest hletter hpath hrelative hbackslash
    refine ⟨ups, names, hleads, ?_, ?_, ?_⟩
    · rintro rfl
      rw [hresolved, simplify_drive_cons hletter hleads, if_pos rfl, orHere_joined_drive]
    · rw [← isAbsolute_orHere, ← hresolved] at habsolute
      exact habsolute
    · rw [← drive_isPrefix_orHere_iff, ← hresolved] at hstarts
      exact hstarts

/-- Two steps up and down again, a path may lead to another drive. -/
theorem resolve_isAbsolute_iff_other_drive :
    let directory := "C:/build".toList
    let path := "..\\..\\D:\\inc".toList
    path ≠ [] ∧ resolve directory path = "D:/inc".toList ∧
      ∃ names, Leads false (FilePath.componentsOf "build".toList ++
          FilePath.componentsOf (withSlashes path)) 1 names ∧
        isAbsolute (Text.joined ['/'] names) = true := by
  intro directory path
  have hpath : path ≠ [] := by decide
  have hrelative : isAbsolute path = false := by decide
  have hresolved : resolve directory path = "D:/inc".toList := by decide
  obtain ⟨-, hdrive⟩ := resolve_isAbsolute_iff directory path hpath
  obtain ⟨-, hleads⟩ := hdrive 'C' "build".toList (by decide) (by decide) hrelative
  obtain ⟨ups, names, hleads, -, habsolute, hstarts⟩ := hleads (by decide)
  have hother : ¬ drive 'C' <+: resolve directory path := by decide
  have hsome : isAbsolute (resolve directory path) = true := by decide
  rw [hstarts, not_or] at hother
  obtain ⟨rfl, hnames⟩ := (habsolute.1 hsome).resolve_left fun h => hother.1 h.1
  exact ⟨hpath, hresolved, names, hleads, hnames⟩

/-- A path that leads out of its drive is neither absolute nor on the drive any more. -/
theorem not_isAbsolute_above_drive :
    let directory := "C:/build".toList
    let path := "..\\..\\inc".toList
    isAbsolute directory = true ∧ path ≠ [] ∧ isAbsolute path = false ∧ hasDrive path = false ∧
      resolve directory path = "inc".toList ∧ isAbsolute (resolve directory path) = false ∧
      ¬ drive 'C' <+: resolve directory path := by
  decide

end BuildLog.Path
