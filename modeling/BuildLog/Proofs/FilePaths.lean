import BuildLog.FilePath

/-!
# Paths of files as texts

A path that was made from a text may be written in another way than that text, but what is written makes
the same path again.

* `Path.components_joined`: components with slashes between them are cut at these slashes;
* `FilePath.IsNormal`: the paths that texts make (`FilePath.isNormal_ofText`);
* `FilePath.ofText_text`: the text of such a path makes just this path.
-/

namespace BuildLog

/-! ## Components -/

namespace Path

variable {part text : Text}

theorem components_ne_nil (text : Text) : components text ≠ [] := by
  fun_cases components text <;> simp

/-- A character that is no slash belongs to the first component. -/
theorem exists_components_cons {c : Char} (h : c ≠ '/') (text : Text) :
    ∃ first others, components text = first :: others ∧
      components (c :: text) = (c :: first) :: others := by
  obtain ⟨first, others, hrest⟩ := List.exists_cons_of_ne_nil (components_ne_nil text)
  refine ⟨first, others, hrest, ?_⟩
  rw [components.eq_3 c text h, hrest]

theorem components_append_slash (h : '/' ∉ part) (text : Text) :
    components (part ++ '/' :: text) = part :: components text := by
  induction part with
  | nil => rfl
  | cons c part ih =>
    rw [List.mem_cons, not_or] at h
    obtain ⟨first, others, hrest, hcons⟩ :=
      exists_components_cons (Ne.symm h.1) (part ++ '/' :: text)
    obtain ⟨rfl, rfl⟩ := List.cons.inj (hrest.symm.trans (ih h.2))
    exact hcons

theorem components_of_not_mem (h : '/' ∉ part) : components part = [part] := by
  induction part with
  | nil => rfl
  | cons c part ih =>
    rw [List.mem_cons, not_or] at h
    obtain ⟨first, others, hrest, hcons⟩ := exists_components_cons (Ne.symm h.1) part
    obtain ⟨rfl, rfl⟩ := List.cons.inj (hrest.symm.trans (ih h.2))
    exact hcons

theorem slash_not_mem_of_mem_components (h : part ∈ components text) : '/' ∉ part := by
  induction text generalizing part with
  | nil => simp_all [components]
  | cons c text ih =>
    by_cases hslash : c = '/'
    · subst hslash
      rcases List.mem_cons.1 h with rfl | hmem
      · exact List.not_mem_nil
      · exact ih hmem
    · obtain ⟨first, others, hrest, hcons⟩ := exists_components_cons hslash text
      rw [hcons] at h
      rw [hrest] at ih
      rcases List.mem_cons.1 h with rfl | hmem
      · rw [List.mem_cons, not_or]
        exact ⟨Ne.symm hslash, ih List.mem_cons_self⟩
      · exact ih (List.mem_cons_of_mem _ hmem)

/-- Components with slashes between them are cut at these slashes. -/
theorem components_joined {parts : List Text} (hne : parts ≠ []) (h : ∀ part ∈ parts, '/' ∉ part) :
    components (Text.joined ['/'] parts) = parts := by
  induction parts with
  | nil => exact absurd rfl hne
  | cons part parts ih =>
    obtain ⟨hpart, hparts⟩ := List.forall_mem_cons.1 h
    cases parts with
    | nil => simpa [Text.joined] using components_of_not_mem hpart
    | cons next parts =>
      rw [Text.joined, List.intercalate_cons_cons, List.append_assoc, List.singleton_append,
        components_append_slash hpart]
      exact congrArg (part :: ·) (ih (List.cons_ne_nil _ _) hparts)

end Path

namespace FilePath

variable {part : Text} {path : FilePath}

/-! ## Paths made from texts -/

/-- A component that leads somewhere. -/
structure IsStep (part : Text) : Prop where
  ne_nil : part ≠ []
  ne_here : part ≠ ['.']
  noSlash : '/' ∉ part

/-- A path as texts make them: one of the three roots, and components that lead somewhere. -/
structure IsNormal (path : FilePath) : Prop where
  root : path.root = [] ∨ path.root = ['/'] ∨ path.root = ['/', '/']
  steps : ∀ part ∈ path.components, IsStep part

theorem isNormal_ofText (text : Text) : (ofText text).IsNormal := by
  constructor
  · simp only [ofText]
    split
    · exact .inr (.inr rfl)
    · split
      · exact .inl rfl
      · exact .inr (.inl rfl)
  · intro part hpart
    obtain ⟨hmem, hkept⟩ := List.mem_filter.1 hpart
    rw [Bool.and_eq_true, Bool.not_eq_true', List.isEmpty_eq_false_iff, bne_iff_ne] at hkept
    exact ⟨hkept.1, hkept.2, Path.slash_not_mem_of_mem_components hmem⟩

/-! ## And back -/

theorem componentsOf_slash (text : Text) : componentsOf ('/' :: text) = componentsOf text := rfl

theorem componentsOf_joined {parts : List Text} (h : ∀ part ∈ parts, IsStep part) :
    componentsOf (Text.joined ['/'] parts) = parts := by
  cases parts with
  | nil => rfl
  | cons part others =>
    rw [componentsOf, Path.components_joined (List.cons_ne_nil _ _) fun part hpart =>
      (h part hpart).noSlash]
    refine List.filter_eq_self.2 fun part hpart => ?_
    simp [(h part hpart).ne_nil, (h part hpart).ne_here]

/-- No slash stands in front of components that lead somewhere. -/
theorem takeWhile_joined {parts : List Text} (h : ∀ part ∈ parts, IsStep part) :
    (Text.joined ['/'] parts).takeWhile (· == '/') = [] := by
  cases parts with
  | nil => rfl
  | cons part others =>
    obtain ⟨hpart, -⟩ := List.forall_mem_cons.1 h
    cases part with
    | nil => exact absurd rfl hpart.ne_nil
    | cons c part =>
      have hc : c ≠ '/' := fun hc => hpart.noSlash (hc ▸ List.mem_cons_self)
      cases others with
      | nil => simp [Text.joined, hc]
      | cons next others => simp [Text.joined, List.intercalate_cons_cons, hc]

/-- The text of a path makes just this path. -/
theorem ofText_text (h : path.IsNormal) : ofText path.text = path := by
  obtain ⟨root, parts⟩ := path
  obtain ⟨hroot, hsteps⟩ := h
  dsimp only at hroot hsteps
  rw [text]
  split
  · rename_i hempty
    simp only [Bool.and_eq_true, List.isEmpty_iff] at hempty
    rw [hempty.1, hempty.2]
    rfl
  · have hparts : componentsOf (Text.joined ['/'] parts) = parts := componentsOf_joined hsteps
    have hstart : (Text.joined ['/'] parts).takeWhile (· == '/') = [] := takeWhile_joined hsteps
    rcases hroot with rfl | rfl | rfl <;> simp [ofText, componentsOf_slash, hparts, hstart]

/-- A path is the same if its text is made to a path once more. -/
theorem ofText_text_ofText (text : Text) : ofText (ofText text).text = ofText text :=
  ofText_text (isNormal_ofText text)

end FilePath
end BuildLog
