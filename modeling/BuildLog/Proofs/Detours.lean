import BuildLog.Proofs.FilePaths
import Mathlib.Data.List.Induction
import Mathlib.Logic.Relation

/-!
# Paths without detours

A path may go down and up again. What is left of it without such detours does not depend on the order in
which they are taken out.

* `Path.IsName`: a component that leads one directory down;
* `Path.Shortcut`: a detour taken out of a row of components;
* `Path.Leads`: where a row of components leads: some directories up, and then down along names.
  `exists_leads`: each row leads somewhere, and `Leads.unique`: only to one place;
* `Path.Leads.simplify_eq`: this is the row that `simplify` leaves.
-/

namespace BuildLog.Path

variable {rooted : Bool} {part name text : Text} {parts shorter names stack : List Text} {ups : Nat}

/-! ## Components -/

/-- Texts with a slash between them have the components of both. -/
theorem components_append (first second : Text) :
    components (first ++ '/' :: second) = components first ++ components second := by
  induction first with
  | nil => rfl
  | cons c first ih =>
    by_cases hslash : c = '/'
    · subst hslash
      exact congrArg ([] :: ·) ih
    · obtain ⟨head, others, hfirst, hcons⟩ := exists_components_cons hslash first
      obtain ⟨next, rest, hboth, hconsboth⟩ :=
        exists_components_cons hslash (first ++ '/' :: second)
      rw [ih, hfirst] at hboth
      obtain ⟨rfl, rfl⟩ := List.cons.inj hboth
      rw [hcons]
      exact hconsboth

theorem componentsOf_append (first second : Text) :
    FilePath.componentsOf (first ++ '/' :: second) =
      FilePath.componentsOf first ++ FilePath.componentsOf second := by
  rw [FilePath.componentsOf, components_append, List.filter_append]
  rfl

theorem isStep_of_mem_componentsOf (h : part ∈ FilePath.componentsOf text) : FilePath.IsStep part :=
  (FilePath.isNormal_ofText text).steps part h

/-- A component that leads one directory down. -/
structure IsName (part : Text) : Prop extends FilePath.IsStep part where
  ne_above : part ≠ above

/-! ## Steps of the stack -/

theorem push_name (h : IsName name) (rooted : Bool) (stack : List Text) :
    push rooted stack name = name :: stack := by
  simp [push, here, h.ne_nil, h.ne_here, h.ne_above]

/-- The way up takes a name back. -/
theorem push_above_of_isName (h : IsName name) (rooted : Bool) (stack : List Text) :
    push rooted (name :: stack) above = stack := by
  simp [push, here, above, show name ≠ ['.', '.'] from h.ne_above]

/-- Above the root is the root. -/
theorem push_above_of_root : push true [] above = [] := rfl

/-- Elsewhere, ways up pile up. -/
theorem foldl_push_ups (ups more : Nat) :
    (List.replicate more above).foldl (push false) (List.replicate ups above) =
      List.replicate (ups + more) above := by
  induction more generalizing ups with
  | zero => rfl
  | succ more ih =>
    have hpush : push false (List.replicate ups above) above = List.replicate (ups + 1) above := by
      cases ups <;> rfl
    rw [List.replicate_succ, List.foldl_cons, hpush, ih]
    congr 1
    omega

theorem foldl_push_names (h : ∀ name ∈ names, IsName name) (stack : List Text) :
    names.foldl (push rooted) stack = names.reverse ++ stack := by
  induction names generalizing stack with
  | nil => rfl
  | cons name names ih =>
    obtain ⟨hname, hnames⟩ := List.forall_mem_cons.1 h
    rw [List.foldl_cons, push_name hname, ih hnames, List.reverse_cons, List.append_assoc]
    rfl

/-- Components that lead nowhere leave no trace. -/
theorem simplify_components (rooted : Bool) (text : Text) :
    simplify rooted (components text) = simplify rooted (FilePath.componentsOf text) := by
  unfold simplify FilePath.componentsOf
  congr 1
  rw [List.foldl_filter]
  congr
  funext stack part
  by_cases hnil : part = [] <;> by_cases hhere : part = here <;> simp_all [push, here]

/-! ## Shortcuts -/

/-- A detour taken out of a row of components. -/
inductive Shortcut (rooted : Bool) : List Text → List Text → Prop where
  /-- The way up takes back the name in front of it. -/
  | back (before after : List Text) {name : Text} (h : IsName name) :
      Shortcut rooted (before ++ name :: above :: after) (before ++ after)
  /-- Above the root is the root. -/
  | stay (after : List Text) (h : rooted = true) : Shortcut rooted (above :: after) after

theorem Shortcut.append (h : Shortcut rooted parts shorter) (after : List Text) :
    Shortcut rooted (parts ++ after) (shorter ++ after) := by
  cases h with
  | back before rest hname =>
    have hback : Shortcut rooted (before ++ _ :: above :: (rest ++ after)) (before ++ (rest ++ after)) :=
      .back before (rest ++ after) hname
    simpa using hback
  | stay _ hrooted => exact .stay (shorter ++ after) hrooted

theorem Shortcut.cons (h : Shortcut false parts shorter) (first : Text) :
    Shortcut false (first :: parts) (first :: shorter) := by
  cases h with
  | back before after hname => exact .back (first :: before) after hname
  | stay _ hrooted => cases hrooted

/-- A shortcut does not change where a row of components leads. -/
theorem simplify_eq_of_shortcut (h : Shortcut rooted parts shorter) :
    simplify rooted parts = simplify rooted shorter := by
  unfold simplify
  cases h with
  | back before after hname =>
    rw [List.foldl_append, List.foldl_append, List.foldl_cons, List.foldl_cons, push_name hname,
      push_above_of_isName hname]
  | stay after hrooted =>
    subst hrooted
    rw [List.foldl_cons, push_above_of_root]

theorem simplify_eq_of_shortcuts (h : Relation.ReflTransGen (Shortcut rooted) parts shorter) :
    simplify rooted parts = simplify rooted shorter := by
  induction h with
  | refl => rfl
  | tail _ hlast ih => exact ih.trans (simplify_eq_of_shortcut hlast)

/-! ## Destinations -/

/-- Where a row of components leads: some directories up, and then down along names. No way leads up from
the root. -/
structure Leads (rooted : Bool) (parts : List Text) (ups : Nat) (names : List Text) : Prop where
  shortens : Relation.ReflTransGen (Shortcut rooted) parts (List.replicate ups above ++ names)
  names : ∀ name ∈ names, IsName name
  stays : rooted = true → ups = 0

theorem Leads.isStep (h : Leads rooted parts ups names) : ∀ name ∈ names, FilePath.IsStep name :=
  fun name hmem => (h.names name hmem).toIsStep

/-- A row without detours is left as it is. -/
theorem simplify_of_names (hnames : ∀ name ∈ names, IsName name) (hstays : rooted = true → ups = 0) :
    simplify rooted (List.replicate ups above ++ names) = List.replicate ups above ++ names := by
  have hups : (List.replicate ups above).foldl (push rooted) [] = List.replicate ups above := by
    cases rooted with
    | true =>
      rw [hstays rfl]
      rfl
    | false => simpa using foldl_push_ups 0 ups
  rw [simplify, List.foldl_append, hups, foldl_push_names hnames, List.reverse_append,
    List.reverse_reverse, List.reverse_replicate]

/-- The row that `simplify` leaves tells where the components lead. -/
theorem Leads.simplify_eq (h : Leads rooted parts ups names) :
    simplify rooted parts = List.replicate ups above ++ names := by
  rw [simplify_eq_of_shortcuts h.shortens, simplify_of_names h.names h.stays]

/-- Whatever follows is seen from the place where a row leads. -/
theorem Leads.simplify_append (h : Leads rooted parts ups names) (more : List Text) :
    simplify rooted (parts ++ more) = simplify rooted (List.replicate ups above ++ names ++ more) :=
  simplify_eq_of_shortcuts (h.shortens.lift (· ++ more) fun _ _ hstep => hstep.append more)

/-- Names are no ways up, so a row says how far it leads up. -/
theorem eq_of_ups_append_names {others : List Text} {more : Nat} (hnames : ∀ name ∈ names, IsName name)
    (hothers : ∀ name ∈ others, IsName name)
    (h : List.replicate ups above ++ names = List.replicate more above ++ others) :
    ups = more ∧ names = others := by
  have hcount (number : Nat) {row : List Text} (hrow : ∀ name ∈ row, IsName name) :
      (List.replicate number above ++ row).count above = number := by
    have hnone : above ∉ row := fun hmem => (hrow above hmem).ne_above rfl
    rw [List.count_append, List.count_replicate_self, List.count_eq_zero_of_not_mem hnone, Nat.add_zero]
  have hups : ups = more := by rw [← hcount ups hnames, h, hcount more hothers]
  subst hups
  exact ⟨rfl, List.append_cancel_left h⟩

/-- Whichever shortcuts are taken first, a row leads to one place. -/
theorem Leads.unique {others : List Text} {more : Nat} (h : Leads rooted parts ups names)
    (hother : Leads rooted parts more others) : ups = more ∧ names = others :=
  eq_of_ups_append_names h.names hother.names (h.simplify_eq.symm.trans hother.simplify_eq)

theorem Leads.concat_name (h : Leads rooted parts ups names) (hname : IsName name) :
    Leads rooted (parts ++ [name]) ups (names ++ [name]) := by
  refine ⟨?_, ?_, h.stays⟩
  · rw [← List.append_assoc]
    exact h.shortens.lift (· ++ [name]) fun _ _ hstep => hstep.append [name]
  · intro other hother
    rcases List.mem_append.1 hother with hmem | hmem
    · exact h.names other hmem
    · rw [List.mem_singleton.1 hmem]
      exact hname

/-- One more way up: it takes back the last name, or it stays at the root, or it leads one directory
further up. -/
theorem Leads.concat_above (h : Leads rooted parts ups names) :
    ∃ more others, Leads rooted (parts ++ [above]) more others := by
  have hshortens : Relation.ReflTransGen (Shortcut rooted) (parts ++ [above])
      (List.replicate ups above ++ names ++ [above]) :=
    h.shortens.lift (· ++ [above]) fun _ _ hstep => hstep.append [above]
  rcases List.eq_nil_or_concat names with rfl | ⟨init, last, rfl⟩
  · cases rooted with
    | true =>
      obtain rfl := h.stays rfl
      exact ⟨0, [], hshortens.tail (.stay [] rfl), nofun, fun _ => rfl⟩
    | false =>
      refine ⟨ups + 1, [], ?_, nofun, nofun⟩
      rw [List.replicate_succ', List.append_nil]
      rwa [List.append_nil] at hshortens
  · have hlast : IsName last := h.names last (by simp)
    have hback : Shortcut rooted (List.replicate ups above ++ init ++ last :: above :: [])
        (List.replicate ups above ++ init ++ []) := .back _ [] hlast
    refine ⟨ups, init, hshortens.tail ?_, fun name hname => h.names name (by simp [hname]), h.stays⟩
    simpa using hback

/-- Each row of components leads somewhere. -/
theorem exists_leads (rooted : Bool) (h : ∀ part ∈ parts, FilePath.IsStep part) :
    ∃ ups names, Leads rooted parts ups names := by
  induction parts using List.reverseRecOn with
  | nil => exact ⟨0, [], .refl, nofun, fun _ => rfl⟩
  | append_singleton parts part ih =>
    obtain ⟨ups, names, hleads⟩ := ih fun other hother => h other (List.mem_append_left _ hother)
    by_cases habove : part = above
    · rw [habove]
      exact hleads.concat_above
    · exact ⟨ups, names ++ [part], hleads.concat_name ⟨h part (by simp), habove⟩⟩

theorem exists_leads_componentsOf (rooted : Bool) (first second : Text) :
    ∃ ups names,
      Leads rooted (FilePath.componentsOf first ++ FilePath.componentsOf second) ups names := by
  refine exists_leads rooted fun part hpart => ?_
  rcases List.mem_append.1 hpart with hmem | hmem <;> exact isStep_of_mem_componentsOf hmem

/-- Behind a name, a row leads to a place below that name, or it takes the name back. -/
theorem Leads.cons (h : Leads false parts ups names) (hname : IsName name) :
    ups = 0 ∧ Leads false (name :: parts) 0 (name :: names) ∨
      ∃ more, ups = more + 1 ∧ Leads false (name :: parts) more names := by
  have hshortens : Relation.ReflTransGen (Shortcut false) (name :: parts)
      (name :: (List.replicate ups above ++ names)) :=
    h.shortens.lift (name :: ·) fun _ _ hstep => hstep.cons name
  cases ups with
  | zero => exact .inl ⟨rfl, hshortens, List.forall_mem_cons.2 ⟨hname, h.names⟩, nofun⟩
  | succ more =>
    exact .inr ⟨more, rfl, hshortens.tail (.back [] (List.replicate more above ++ names) hname),
      h.names, nofun⟩

end BuildLog.Path
