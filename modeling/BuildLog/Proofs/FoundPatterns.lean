import BuildLog.Proofs.RegularPatterns

/-!
# Patterns that are found in a text

A pattern need not match a whole text to be found in it: it may match at any place, and what it takes there
may end anywhere.

* `Pattern.isFoundIn`: whether a pattern matches at some place of a text;
* `Pattern.isSome_anchor_iff`, `Pattern.isSome_look_iff`: when a search gets past a condition on its place;
* `Pattern.isSome_search_iff`: a regular pattern reaches a goal that looks at nothing but what follows exactly
  behind the texts of the pattern.
-/

namespace BuildLog.Pattern

variable {pattern : Pattern} {mode : Mode} {goal : Goal} {place : Place} {text : Text}

/-! ## Places of a text -/

/-- The place between two parts of a text. -/
def Place.between (front rest : Text) : Place :=
  ⟨front.length, front.reverse, rest, []⟩

/-- Whether a pattern matches at some place of a text. -/
def isFoundIn (pattern : Pattern) (text : Text) : Bool :=
  (List.range (text.length + 1)).any fun offset =>
    (pattern.search .plain some (.between (text.take offset) (text.drop offset))).isSome

theorem isFoundIn_iff :
    pattern.isFoundIn text = true ↔ ∃ front rest, text = front ++ rest ∧
      (pattern.search .plain some (.between front rest)).isSome = true := by
  rw [isFoundIn, List.any_eq_true]
  constructor
  · rintro ⟨offset, -, hfound⟩
    exact ⟨text.take offset, text.drop offset, (List.take_append_drop offset text).symm, hfound⟩
  · rintro ⟨front, rest, rfl, hfound⟩
    refine ⟨front.length, ?_, ?_⟩
    · rw [List.mem_range, List.length_append]
      omega
    · rwa [List.take_left, List.drop_left]

/-! ## Steps of a search -/

theorem isSome_advance_iff {accepts : Char → Bool} :
    ((place.advance? accepts).bind goal).isSome = true ↔
      ∃ c rest, place.after = c :: rest ∧ accepts c = true ∧
        (goal ⟨place.offset + 1, c :: place.before, rest, place.kept⟩).isSome = true := by
  rw [Place.advance?]
  cases place.after with
  | nil => simp
  | cons c rest => cases haccepts : accepts c <;> simp [haccepts]

theorem isSome_anchor_iff {kind : Anchor} :
    ((anchor kind).search mode goal place).isSome = true ↔
      place.isAt mode kind = true ∧ (goal place).isSome = true := by
  rw [search]
  split <;> simp_all

theorem isSome_look_iff :
    ((look .ahead true pattern).search mode some place).isSome = true ↔
      (pattern.search mode some place).isSome = true := by
  have hlook : (look .ahead true pattern).search mode some place =
      (pattern.search mode some place).bind fun found => some (place.keeping found) := rfl
  rw [hlook]
  cases pattern.search mode some place <;> rfl

theorem search_seq_empty (pattern : Pattern) (mode : Mode) (goal : Goal) :
    (seq pattern .empty).search mode goal = pattern.search mode goal := rfl

/-- A goal looks at what follows a place and at nothing else. -/
def LooksAhead (goal : Goal) (accepts : Text → Bool) : Prop :=
  ∀ place, (goal place).isSome = accepts place.after

/-- A regular pattern whose quantifiers give back what they took reaches a goal that looks ahead exactly
if one of its texts stands there and the goal accepts what follows that text. -/
theorem isSome_search_iff (hregular : pattern.isRegular = true) (hgives : pattern.hasPossessive = false)
    {accepts : Text → Bool} (hgoal : LooksAhead goal accepts) :
    (pattern.search mode goal place).isSome = true ↔ ∃ text rest, place.after = text ++ rest ∧
      Spells mode pattern text ∧ accepts rest = true := by
  constructor
  · intro hsome
    obtain ⟨found, hfound⟩ := Option.isSome_iff_exists.1 hsome
    obtain ⟨text, there, htext, hafter, hthere⟩ := takes_search pattern mode goal place found hfound
    refine ⟨text, there.after, hafter, htext, ?_⟩
    rw [← hgoal, hthere]
    rfl
  · rintro ⟨text, rest, hafter, htext, hrest⟩
    apply covers_search pattern hregular hgives mode goal place text rest htext hafter
    intro there _ hthere
    rw [hgoal, hthere, hrest]

end BuildLog.Pattern
