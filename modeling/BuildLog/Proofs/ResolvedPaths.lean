import BuildLog.Proofs.Detours

/-!
# Paths seen from a directory with a root

Below a directory that starts with a slash, a path is resolved component by component, and never leads out
of the root.

* `Path.root_below`, `Path.componentsOf_below`: what a path below a directory has of both;
* `Path.resolve_of_rooted`: a relative path leads where the components of the directory and its own lead;
* `Path.resolve_rooted`: so what comes out has no detours, it is resolved already, and a longer path is
  resolved one part after the other.
-/

namespace BuildLog.Path

variable {directory path further : Text} {names : List Text}

/-! ## Roots -/

theorem takeWhile_slash_of_head? {text : Text} (h : text.head? ≠ some '/') :
    text.takeWhile (· == '/') = [] := by
  cases text with
  | nil => rfl
  | cons c text =>
    have hc : c ≠ '/' := by simpa using h
    simp [hc]

/-- The number of slashes at the start decides about the root: two are kept, and any other number counts
as one. -/
theorem root_eq (path : Text) : root path =
    if (path.takeWhile (· == '/')).length = 0 then []
    else if (path.takeWhile (· == '/')).length = 2 then ['/', '/']
    else ['/'] := by
  have hnone {text : Text} (h : ∀ rest, text = '/' :: rest → False) :
      text.takeWhile (· == '/') = [] := by
    refine takeWhile_slash_of_head? fun hhead => ?_
    obtain ⟨rest, hrest⟩ := List.head?_eq_some_iff.1 hhead
    exact h rest hrest
  fun_cases root path with
  | case1 rest => simp
  | case2 rest hrest => simp [hnone hrest]
  | case3 rest _ hrest => simp [hnone hrest]
  | case4 _ _ _ hpath => simp [hnone hpath]

/-- Two slashes at the start are kept, and any other number becomes one. -/
theorem root_of_rooted (h : path.head? = some '/') :
    root path = if (path.takeWhile (· == '/')).length = 2 then ['/', '/'] else ['/'] := by
  obtain ⟨rest, rfl⟩ := List.head?_eq_some_iff.1 h
  rw [root_eq, if_neg (by simp)]

theorem exists_root_eq_cons (h : path.head? = some '/') :
    ∃ slashes, root path = '/' :: slashes := by
  rw [root_of_rooted h]
  split
  · exact ⟨['/'], rfl⟩
  · exact ⟨[], rfl⟩

/-- What comes behind the slashes at the start does not change the root. -/
theorem root_append {first second : Text}
    (h : second.head? ≠ some '/' ∨ ∃ c ∈ first, c ≠ '/') : root (first ++ second) = root first := by
  have hslashes : ((first ++ second).takeWhile (· == '/')).length =
      (first.takeWhile (· == '/')).length := by
    rw [List.takeWhile_append]
    split
    · rename_i hlength
      have hall : ∀ c ∈ first, c = '/' := by
        have hwhole := (List.takeWhile_prefix (· == '/')).eq_of_length hlength
        intro c hmem
        rw [← hwhole] at hmem
        simpa using List.all_eq_true.1 List.all_takeWhile c hmem
      have hsecond : second.head? ≠ some '/' :=
        h.resolve_right fun ⟨c, hmem, hc⟩ => hc (hall c hmem)
      rw [takeWhile_slash_of_head? hsecond, List.append_nil, hlength]
    · rfl
  rw [root_eq, root_eq, hslashes]

theorem root_root (path : Text) : root (root path) = root path := by
  fun_cases root path <;> rfl

theorem componentsOf_root_append (path text : Text) :
    FilePath.componentsOf (root path ++ text) = FilePath.componentsOf text := by
  fun_cases root path <;> rfl

/-! ## Below a directory -/

theorem head?_of_not_isAbsolute (h : isAbsolute path = false) : path.head? ≠ some '/' := by
  intro hhead
  obtain ⟨rest, rfl⟩ := List.head?_eq_some_iff.1 hhead
  cases h

/-- The two ways in which a path stands below a directory: behind the slash that ends the directory, or
behind one more. -/
theorem below_cases (hdirectory : directory ≠ []) (hpath : path.head? ≠ some '/') :
    (∃ front, directory = front ++ ['/'] ∧ below directory path = front ++ '/' :: path) ∨
      (∃ c ∈ directory, c ≠ '/') ∧ below directory path = directory ++ '/' :: path := by
  unfold below
  rw [if_neg (by simpa [hdirectory] using hpath)]
  obtain ⟨front, last, rfl⟩ := (List.eq_nil_or_concat directory).resolve_left hdirectory
  by_cases hlast : last = '/'
  · subst hlast
    exact .inl ⟨front, List.concat_eq_append, by simp⟩
  · exact .inr ⟨⟨last, by simp, hlast⟩, by simp [hlast]⟩

/-- A path below a directory has the root of the directory. -/
theorem root_below (hdirectory : directory ≠ []) (hpath : path.head? ≠ some '/') :
    root (below directory path) = root directory := by
  rcases below_cases hdirectory hpath with ⟨front, hfront, hbelow⟩ | ⟨hother, hbelow⟩
  · rw [hbelow, List.append_cons, ← hfront]
    exact root_append (.inl hpath)
  · rw [hbelow]
    exact root_append (.inr hother)

/-- A path below a directory has the components of both. -/
theorem componentsOf_below (hdirectory : directory ≠ []) (hpath : path.head? ≠ some '/') :
    FilePath.componentsOf (below directory path) =
      FilePath.componentsOf directory ++ FilePath.componentsOf path := by
  rcases below_cases hdirectory hpath with ⟨front, hfront, hbelow⟩ | ⟨-, hbelow⟩
  · have hslash : FilePath.componentsOf directory = FilePath.componentsOf front := by
      rw [hfront, componentsOf_append]
      exact List.append_nil _
    rw [hbelow, componentsOf_append, hslash]
  · rw [hbelow, componentsOf_append]

/-! ## Resolving -/

/-- A path with a root keeps it, and leads where its components lead. -/
theorem normalize_of_rooted (h : root path ≠ []) :
    normalize path =
      root path ++ Text.joined ['/'] (simplify true (FilePath.componentsOf path)) := by
  have hstart : (root path).isEmpty = false := List.isEmpty_eq_false_iff.2 h
  simp [normalize, hstart, simplify_components, h]

theorem hasDrive_of_rooted (h : directory.head? = some '/') : hasDrive directory = false := by
  obtain ⟨rest, rfl⟩ := List.head?_eq_some_iff.1 h
  cases rest with
  | nil => rfl
  | cons c rest => by_cases hc : c = ':' <;> simp_all [hasDrive]

/-- Below a directory with a root, a relative path leads where the components of the directory and its own
lead. -/
theorem resolve_of_rooted (hdirectory : directory.head? = some '/') (hpath : path ≠ [])
    (hrelative : isAbsolute path = false) :
    resolve directory path = root directory ++ Text.joined ['/']
      (simplify true (FilePath.componentsOf directory ++ FilePath.componentsOf path)) := by
  have hne : directory ≠ [] := by
    rintro rfl
    cases hdirectory
  have hhead := head?_of_not_isAbsolute hrelative
  have hroot := root_below hne hhead
  obtain ⟨slashes, hslashes⟩ := exists_root_eq_cons hdirectory
  rw [resolve, if_neg (by simp [hpath, hrelative]), hasDrive_of_rooted hdirectory,
    if_neg (by decide), normalize_of_rooted (by simp [hroot, hslashes]), hroot,
    componentsOf_below hne hhead]

theorem isAbsolute_of_rooted (h : path.head? = some '/') : isAbsolute path = true := by
  obtain ⟨rest, rfl⟩ := List.head?_eq_some_iff.1 h
  rfl

/-- Below a directory with a root, a relative path leads along names. -/
theorem exists_names_of_rooted (directory path : Text) :
    ∃ names, Leads true (FilePath.componentsOf directory ++ FilePath.componentsOf path) 0 names := by
  obtain ⟨ups, names, hleads⟩ := exists_leads_componentsOf true directory path
  obtain rfl := hleads.stays rfl
  exact ⟨names, hleads⟩

/-! ## Roots with names -/

theorem head?_joined (h : ∀ name ∈ names, FilePath.IsStep name) :
    (Text.joined ['/'] names).head? ≠ some '/' := by
  intro hhead
  obtain ⟨rest, hrest⟩ := List.head?_eq_some_iff.1 hhead
  have hslashes := FilePath.takeWhile_joined h
  simp [hrest] at hslashes

/-- No slash stands at the end of names, or there would be an empty one behind it. -/
theorem getLast?_joined (h : ∀ name ∈ names, FilePath.IsStep name) :
    (Text.joined ['/'] names).getLast? ≠ some '/' := by
  intro hlast
  obtain ⟨front, hfront⟩ := List.getLast?_eq_some_iff.1 hlast
  have hne : names ≠ [] := by
    rintro rfl
    simp [Text.joined] at hlast
  have hnames := components_joined hne fun name hmem => (h name hmem).noSlash
  rw [hfront, components_append] at hnames
  exact (h [] (hnames ▸ List.mem_append_right _ (by simp [components]))).ne_nil rfl

theorem root_root_append (path : Text) (h : ∀ name ∈ names, FilePath.IsStep name) :
    root (root path ++ Text.joined ['/'] names) = root path := by
  rw [root_append (.inl (head?_joined h)), root_root]

theorem componentsOf_root_append_joined (path : Text) (h : ∀ name ∈ names, FilePath.IsStep name) :
    FilePath.componentsOf (root path ++ Text.joined ['/'] names) = names := by
  rw [componentsOf_root_append, FilePath.componentsOf_joined h]

/-! ## Resolved paths -/

/-- Below a directory with a root, a relative path is resolved to that root and the names to which the
components lead. -/
theorem resolve_eq_of_leads (hdirectory : directory.head? = some '/') (hpath : path ≠ [])
    (hrelative : isAbsolute path = false)
    (h : Leads true (FilePath.componentsOf directory ++ FilePath.componentsOf path) 0 names) :
    resolve directory path = root directory ++ Text.joined ['/'] names := by
  rw [resolve_of_rooted hdirectory hpath hrelative, h.simplify_eq]
  rfl

theorem head?_resolve (hdirectory : directory.head? = some '/') (hpath : path ≠ [])
    (hrelative : isAbsolute path = false) : (resolve directory path).head? = some '/' := by
  obtain ⟨slashes, hslashes⟩ := exists_root_eq_cons hdirectory
  rw [resolve_of_rooted hdirectory hpath hrelative, hslashes]
  rfl

/-- A longer path is resolved one part after the other. -/
theorem resolve_append_of_rooted (hdirectory : directory.head? = some '/') (hpath : path ≠ [])
    (hrelative : isAbsolute path = false) (hfurther : further ≠ [])
    (hrelativefurther : isAbsolute further = false)
    (hrelativeboth : isAbsolute (path ++ '/' :: further) = false) :
    resolve directory (path ++ '/' :: further) = resolve (resolve directory path) further := by
  obtain ⟨names, hleads⟩ := exists_names_of_rooted directory path
  have hhead := head?_resolve hdirectory hpath hrelative
  rw [resolve_of_rooted hhead hfurther hrelativefurther,
    resolve_eq_of_leads hdirectory hpath hrelative hleads, root_root_append directory hleads.isStep,
    componentsOf_root_append_joined directory hleads.isStep,
    resolve_of_rooted hdirectory (by simp) hrelativeboth, componentsOf_append, ← List.append_assoc,
    hleads.simplify_append]
  rfl

/-- **Relative paths are resolved component by component.** Below a directory that starts with a slash,
what comes out is a root of one slash, or of two if the directory starts with just two of them, and names
with single slashes between them. These are where the components of the directory and of the path lead, if
each way up takes back the name in front of it and none leads out of the root, in whichever order. What
comes out stays as it is, and a longer path is resolved one part after the other. -/
theorem resolve_rooted (directory path : Text) (hdirectory : directory.head? = some '/')
    (hpath : path ≠ []) (hrelative : isAbsolute path = false) :
    let resolved := resolve directory path
    let slashes : Text :=
      if (directory.takeWhile (· == '/')).length = 2 then ['/', '/'] else ['/']
    (∃ names, resolved = slashes ++ Text.joined ['/'] names ∧ (∀ name ∈ names, IsName name) ∧
      ∀ others, Leads true (FilePath.componentsOf directory ++ FilePath.componentsOf path) 0 others ↔
        others = names) ∧
    resolved.head? = some '/' ∧
    (resolved.getLast? = some '/' → resolved = slashes) ∧
    resolve directory resolved = resolved ∧
    ∀ further, further ≠ [] → isAbsolute further = false →
      isAbsolute (path ++ '/' :: further) = false →
        resolve directory (path ++ '/' :: further) = resolve resolved further := by
  intro resolved slashes
  obtain ⟨names, hleads⟩ := exists_names_of_rooted directory path
  have hslashes : root directory = slashes := root_of_rooted hdirectory
  have hresolved : resolved = slashes ++ Text.joined ['/'] names := by
    rw [← hslashes]
    exact resolve_eq_of_leads hdirectory hpath hrelative hleads
  have hhead : resolved.head? = some '/' := head?_resolve hdirectory hpath hrelative
  refine ⟨⟨names, hresolved, hleads.names, ?_⟩, hhead, ?_, ?_, ?_⟩
  · intro others
    constructor
    · exact fun hothers => (hothers.unique hleads).2
    · rintro rfl
      exact hleads
  · intro hlast
    cases hend : (Text.joined ['/'] names).getLast? with
    | none => rw [hresolved, List.getLast?_eq_none_iff.1 hend, List.append_nil]
    | some c =>
      rw [hresolved, List.getLast?_append, hend] at hlast
      exact absurd (hend.trans hlast) (getLast?_joined hleads.isStep)
  · exact resolve_of_isAbsolute (isAbsolute_of_rooted hhead) directory
  · intro further hfurther hrelativefurther hrelativeboth
    exact resolve_append_of_rooted hdirectory hpath hrelative hfurther hrelativefurther hrelativeboth

/-- The ways up lead through the root of two slashes, which stays, and a backslash is part of a name. -/
theorem resolve_rooted_through_root :
    let directory := "//srv/./build/".toList
    let path := "..//../../a\\..\\b/.".toList
    let further := "../../lib/".toList
    directory.head? = some '/' ∧ path ≠ [] ∧ isAbsolute path = false ∧
      resolve directory path = "//a\\..\\b".toList ∧
      resolve directory (path ++ '/' :: further) = resolve (resolve directory path) further ∧
      resolve directory (path ++ '/' :: further) = "//lib".toList := by
  intro directory path further
  have hdirectory : directory.head? = some '/' := by decide
  have hpath : path ≠ [] := by decide
  have hrelative : isAbsolute path = false := by decide
  obtain ⟨-, -, -, -, hfurther⟩ := resolve_rooted directory path hdirectory hpath hrelative
  exact ⟨hdirectory, hpath, hrelative, by decide,
    hfurther further (by decide) (by decide) (by decide), by decide⟩

end BuildLog.Path
