import BuildLog.Path.Resolve
import Mathlib.Data.List.Basic

/-!
# Components of paths in either style

A path is cut at every separator of its style. What is cut out can be told from the path itself: a component
has no separator, and on either side of it there is a separator or the path ends.

* `Path.componentsIn`: the components of a path, the empty ones included; between slashes they are those that
  paths are resolved by (`Path.componentsIn_posix`);
* `Path.Stands`: a component in its place in a path;
* `Path.mem_componentsIn_iff`, `Path.getLast?_componentsIn_iff`: the components are what stands in the path,
  and the last one is what stands at its end.
-/

namespace BuildLog.Path

/-- The components of a path, cut at every separator of a style. -/
def componentsIn (style : PathStyle) (path : Text) : List Text :=
  path.splitOnP style.isSeparator

/-- A component stands between the rest of a path: it has no separator, and on either side of it there is a
separator or nothing. -/
structure Stands (style : PathStyle) (path front component rest : Text) : Prop where
  path_eq : path = front ++ component ++ rest
  inside : ∀ c ∈ component, style.isSeparator c = false
  behind : ∀ c ∈ front.getLast?, style.isSeparator c = true
  ahead : ∀ c ∈ rest.head?, style.isSeparator c = true

variable {style : PathStyle} {path front component rest : Text}

/-! ## Cutting a path -/

theorem componentsIn_posix (path : Text) : componentsIn .posix path = components path := by
  fun_induction components path with
  | case1 => rfl
  | case2 path ih =>
    have hslash : PathStyle.posix.isSeparator '/' = true := rfl
    rw [componentsIn, List.splitOnP_cons_eq_if_modifyHead, if_pos hslash]
    exact congrArg (List.cons []) ih
  | case3 c path hc hnone ih =>
    rw [← ih] at hnone
    exact absurd hnone (List.splitOnP_ne_nil _ path)
  | case4 c path hc first others hsome ih =>
    have hinside : PathStyle.posix.isSeparator c = false := by simpa [PathStyle.isSeparator] using hc
    rw [← ih] at hsome
    rw [componentsIn, List.splitOnP_cons_eq_if_modifyHead, hinside, if_neg Bool.false_ne_true]
    exact congrArg (List.modifyHead (List.cons c)) hsome

/-- A path is one component, or it is cut at its first separator. -/
theorem componentsIn_cases (style : PathStyle) (path : Text) :
    (∀ c ∈ path, style.isSeparator c = false) ∧ componentsIn style path = [path] ∨
      ∃ first c more, path = first ++ c :: more ∧ (∀ d ∈ first, style.isSeparator d = false) ∧
        style.isSeparator c = true ∧ componentsIn style path = first :: componentsIn style more := by
  cases hfind : path.find? style.isSeparator with
  | none =>
    have hinside : ∀ c ∈ path, style.isSeparator c = false := by
      simpa [List.find?_eq_none] using hfind
    exact .inl ⟨hinside, List.splitOnP_eq_singleton hinside⟩
  | some c =>
    obtain ⟨hc, first, more, rfl, hfirst⟩ := List.find?_eq_some_iff_append.1 hfind
    simp only [Bool.not_eq_true'] at hfirst
    have hcut := List.splitOnP_append_cons_of_forall_mem hfirst c hc more
    exact .inr ⟨first, c, more, rfl, hfirst, hc, hcut⟩

/-- What stands in a path is cut out of it, and it comes last if nothing is behind it. -/
theorem Stands.exists_componentsIn_eq (h : Stands style path front component rest) :
    ∃ earlier later, componentsIn style path = earlier ++ component :: later ∧
      (rest = [] → later = []) := by
  obtain ⟨rfl, hinside, hbehind, hahead⟩ := h
  have hback : ∃ later, componentsIn style (component ++ rest) = component :: later ∧
      (rest = [] → later = []) := by
    cases rest with
    | nil =>
      rw [List.append_nil]
      exact ⟨[], List.splitOnP_eq_singleton hinside, fun _ => rfl⟩
    | cons c rest =>
      have hcut := List.splitOnP_append_cons_of_forall_mem hinside c (hahead c rfl) rest
      exact ⟨componentsIn style rest, hcut, nofun⟩
  obtain ⟨later, hback, hlast⟩ := hback
  rw [List.append_assoc]
  rcases List.eq_nil_or_concat' front with rfl | ⟨front, c, rfl⟩
  · exact ⟨[], later, hback, hlast⟩
  · refine ⟨componentsIn style front, later, ?_, hlast⟩
    have hc : style.isSeparator c = true := hbehind c List.getLast?_concat
    rw [← hback, List.append_assoc, List.singleton_append]
    exact List.splitOnP_append_cons _ _ hc

/-- What is cut out of a path stands in it, and nothing is behind it if it comes last. -/
theorem exists_stands_of_componentsIn_eq {earlier later : List Text}
    (h : componentsIn style path = earlier ++ component :: later) :
    ∃ front rest, Stands style path front component rest ∧ (later = [] → rest = []) := by
  induction earlier generalizing path with
  | nil =>
    rcases componentsIn_cases style path with ⟨hinside, hcut⟩ | ⟨first, c, more, rfl, hfirst, hc, hcut⟩
    · obtain ⟨rfl, -⟩ := List.cons_eq_cons.1 (hcut.symm.trans h)
      exact ⟨[], [], ⟨(List.append_nil _).symm, hinside, nofun, nofun⟩, fun _ => rfl⟩
    · obtain ⟨rfl, rfl⟩ := List.cons_eq_cons.1 (hcut.symm.trans h)
      refine ⟨[], c :: more, ⟨rfl, hfirst, nofun, ?_⟩, ?_⟩
      · rintro d ⟨⟩
        exact hc
      · intro hnone
        exact absurd hnone (List.splitOnP_ne_nil _ more)
  | cons head earlier ih =>
    rcases componentsIn_cases style path with ⟨-, hcut⟩ | ⟨first, c, more, rfl, -, hc, hcut⟩
    · have hlength := congrArg List.length (hcut.symm.trans h)
      simp at hlength
    · obtain ⟨-, hmore⟩ := List.cons_eq_cons.1 (hcut.symm.trans h)
      obtain ⟨front, rest, hstands, hlast⟩ := ih hmore
      refine ⟨first ++ c :: front, rest, ⟨?_, hstands.inside, ?_, hstands.ahead⟩, hlast⟩
      · rw [hstands.path_eq]
        simp
      · intro d hd
        rw [List.getLast?_append_cons] at hd
        cases front with
        | nil =>
          obtain rfl : c = d := by simpa using hd
          exact hc
        | cons e front =>
          rw [List.getLast?_cons_cons] at hd
          exact hstands.behind d hd

/-! ## Components -/

theorem mem_componentsIn_iff :
    component ∈ componentsIn style path ↔ ∃ front rest, Stands style path front component rest := by
  constructor
  · intro hmem
    obtain ⟨earlier, later, hcut⟩ := List.append_of_mem hmem
    obtain ⟨front, rest, hstands, -⟩ := exists_stands_of_componentsIn_eq hcut
    exact ⟨front, rest, hstands⟩
  · rintro ⟨front, rest, hstands⟩
    obtain ⟨earlier, later, hcut, -⟩ := hstands.exists_componentsIn_eq
    rw [hcut]
    exact List.mem_append_right _ List.mem_cons_self

theorem getLast?_componentsIn_iff :
    (componentsIn style path).getLast? = some component ↔
      ∃ front, Stands style path front component [] := by
  rw [List.getLast?_eq_some_iff]
  constructor
  · rintro ⟨earlier, hcut⟩
    obtain ⟨front, rest, hstands, hlast⟩ := exists_stands_of_componentsIn_eq hcut
    obtain rfl := hlast rfl
    exact ⟨front, hstands⟩
  · rintro ⟨front, hstands⟩
    obtain ⟨earlier, later, hcut, hlast⟩ := hstands.exists_componentsIn_eq
    rw [hlast rfl] at hcut
    exact ⟨earlier, hcut⟩

end BuildLog.Path
