import BuildLog.Proofs.PatternTexts

/-!
# Regular patterns

A pattern of characters, sets, sequences, alternatives, groups and repetitions asks nothing of the places
around a text. If none of its quantifiers keeps what it took, a search tries all ways there are.

* `Pattern.isRegular`, `Pattern.hasPossessive`: these two conditions;
* `Pattern.Covers`: a step of a search takes every text of a kind. `Covers.repeated` says so of
  repetitions, where those that go nowhere are left out;
* `Pattern.matchesIn_iff_spells`: such a pattern matches exactly its texts.
-/

namespace BuildLog.Pattern

/-! ## Kinds of patterns -/

/-- Whether a pattern is made of characters, sets, sequences, alternatives, groups and repetitions. -/
def isRegular : Pattern → Bool
  | empty | char _ | anyChar | set .. => true
  | seq first second | alt first second => first.isRegular && second.isRegular
  | group _ body | flagged _ _ body | iterate _ _ _ body => body.isRegular
  | anchor _ | backref .. | ifKept .. | look .. | atomic _ => false

/-- Whether some quantifier in a pattern gives nothing back of what it took. -/
def hasPossessive : Pattern → Bool
  | seq first second | alt first second | ifKept _ first second =>
    first.hasPossessive || second.hasPossessive
  | group _ body | look _ _ body | atomic body | flagged _ _ body => body.hasPossessive
  | iterate greed _ _ body => greed == .possessive || body.hasPossessive
  | _ => false

/-- A pattern matches exactly its texts. -/
def IsDecided (pattern : Pattern) : Prop :=
  ∀ text, pattern.matchesAll false text = true ↔ Spells .plain pattern text

/-! ## Steps -/

/-- A goal is reached from every place with the given offset and the given text behind it, whatever is in
front of it and whatever groups have kept. -/
def Reaches (goal : Goal) (offset : Nat) (rest : Text) : Prop :=
  ∀ there : Place, there.offset = offset → there.after = rest → (goal there).isSome = true

/-- A step takes every text of a kind: where there is such a text, the step leads to a goal that is reached
from its end. -/
def Covers (step : Step) (kind : Text → Prop) : Prop :=
  ∀ goal (place : Place) text rest, kind text → place.after = text ++ rest →
    Reaches goal (place.offset + text.length) rest → (step goal place).isSome = true

/-- A step over one character takes every character that it accepts. -/
theorem covers_advance {step : Step} {accepts : Char → Bool}
    (h : ∀ goal place, step goal place = (place.advance? accepts).bind goal) :
    Covers step fun text => ∃ c, text = [c] ∧ accepts c = true := by
  rintro goal place _ rest ⟨c, rfl, haccepts⟩ hafter hgoal
  have hnext : place.advance? accepts =
      some ⟨place.offset + 1, c :: place.before, rest, place.kept⟩ := by
    rw [Place.advance?, hafter]
    exact if_pos haccepts
  rw [h, hnext]
  exact hgoal _ rfl rfl

variable {step : Step} {kind : Text → Prop}

/-! ## Repetitions -/

theorem Covers.exactly (h : Covers step kind) (goal : Goal) (parts : List Text) (rest : Text)
    (hparts : ∀ part ∈ parts, kind part) {place : Place} (hafter : place.after = parts.flatten ++ rest)
    (hgoal : Reaches goal (place.offset + parts.flatten.length) rest) :
    (exactly step goal parts.length place).isSome = true := by
  induction parts generalizing place with
  | nil => exact hgoal place rfl hafter
  | cons part parts ih =>
    obtain ⟨hpart, hparts⟩ := List.forall_mem_cons.1 hparts
    rw [List.flatten_cons, List.append_assoc] at hafter
    rw [List.flatten_cons, List.length_append] at hgoal
    apply h _ place part _ hpart hafter
    intro there hoffset hthere
    apply ih hparts hthere
    rw [hoffset, Nat.add_assoc]
    exact hgoal

/-- Further repetitions take some more texts. None of these may be empty, since a repetition that goes
nowhere is the last one. -/
theorem Covers.further (h : Covers step kind) (lazily : Bool) {goal : Goal} {parts : List Text}
    {rest : Text} (hparts : ∀ part ∈ parts, kind part ∧ part ≠ []) {bound : Nat}
    (hbound : parts.length < bound) {most last : Option Nat}
    (hmost : ∀ limit ∈ most, parts.length ≤ limit) {place : Place} (hlast : last ≠ some place.offset)
    (hafter : place.after = parts.flatten ++ rest)
    (hgoal : Reaches goal (place.offset + parts.flatten.length) rest) :
    (further step lazily goal bound most last place).isSome = true := by
  induction parts generalizing bound most last place with
  | nil =>
    have hdone : (goal place).isSome = true := hgoal place rfl hafter
    obtain ⟨bound, rfl⟩ := Nat.exists_eq_succ_of_ne_zero (Nat.ne_of_gt hbound)
    rw [Pattern.further]
    split
    · exact hdone
    · split <;> simp [Option.orElse_eq_or, hdone]
  | cons part parts ih =>
    obtain ⟨⟨hpart, hne⟩, hparts⟩ := List.forall_mem_cons.1 hparts
    obtain ⟨bound, rfl⟩ := Nat.exists_eq_succ_of_ne_zero (Nat.ne_of_gt (Nat.zero_lt_of_lt hbound))
    rw [List.flatten_cons, List.append_assoc] at hafter
    rw [List.flatten_cons, List.length_append] at hgoal
    rw [List.length_cons] at hbound hmost
    have hgoes : (most == some 0 || last == some place.offset) = false := by
      have hzero : most ≠ some 0 := by
        rintro rfl
        exact absurd (hmost 0 rfl) (Nat.not_succ_le_zero _)
      simp [hzero, hlast]
    have hagain : (step (Pattern.further step lazily goal bound (most.map (· - 1))
        (some place.offset)) place).isSome = true := by
      apply h _ place part _ hpart hafter
      intro there hoffset hthere
      apply ih hparts (by omega) ?_ ?_ hthere ?_
      · intro limit hlimit
        obtain ⟨limit', hsome, rfl⟩ := Option.map_eq_some_iff.1 hlimit
        have := hmost limit' hsome
        omega
      · -- the repetition has gone on
        have hpos : 0 < part.length := List.length_pos_iff.2 hne
        rw [hoffset, ne_eq, Option.some.injEq]
        omega
      · rw [hoffset, Nat.add_assoc]
        exact hgoal
    rw [Pattern.further, hgoes, if_neg Bool.false_ne_true]
    split <;> simp [Option.orElse_eq_or, hagain]

theorem length_le_length_flatten {parts : List Text} (h : ∀ part ∈ parts, part ≠ []) :
    parts.length ≤ parts.flatten.length := by
  induction parts with
  | nil => exact Nat.zero_le _
  | cons part parts ih =>
    obtain ⟨hpart, hparts⟩ := List.forall_mem_cons.1 h
    have hpos : 0 < part.length := List.length_pos_iff.2 hpart
    have hle := ih hparts
    rw [List.length_cons, List.flatten_cons, List.length_append]
    omega

theorem Covers.rounds (h : Covers step kind) (lazily : Bool) (least : Nat) (most : Option Nat) :
    Covers (rounds step lazily least most) (Row kind least most) := by
  rintro goal place _ rest ⟨parts, rfl, hparts, hleast, hmost⟩ hafter hgoal
  -- the parts behind the least number, as far as they are not empty
  let more := (parts.drop least).filter (· ≠ [])
  have hmore : ∀ part ∈ more, kind part ∧ part ≠ [] := by
    intro part hpart
    obtain ⟨hmem, hne⟩ := List.mem_filter.1 hpart
    exact ⟨hparts part (List.mem_of_mem_drop hmem), by simpa using hne⟩
  have hcount : more.length ≤ parts.length - least := by
    rw [← List.length_drop]
    exact List.length_filter_le ..
  have hflatten : (parts.take least).flatten ++ more.flatten = parts.flatten := by
    rw [List.flatten_filter_ne_nil, ← List.flatten_append, List.take_append_drop]
  have htake : (parts.take least).length = least := List.length_take_of_le hleast
  rw [← hflatten] at hafter hgoal
  rw [List.append_assoc] at hafter
  rw [List.length_append, ← Nat.add_assoc] at hgoal
  have hexactly := h.exactly
    (fun place =>
      Pattern.further step lazily goal (place.after.length + 2) (most.map (· - least)) none place)
    (parts.take least) (more.flatten ++ rest)
    (fun part hpart => hparts part (List.mem_of_mem_take hpart)) hafter ?_
  · rwa [htake] at hexactly
  · intro there hoffset hthere
    show (Pattern.further step lazily goal (there.after.length + 2) (most.map (· - least)) none
      there).isSome = true
    have hfirst : none ≠ some there.offset := by simp
    apply h.further lazily hmore ?_ ?_ hfirst hthere ?_
    · have hle := length_le_length_flatten fun part hpart => (hmore part hpart).2
      rw [hthere, List.length_append]
      omega
    · intro limit hlimit
      obtain ⟨bound, hbound, rfl⟩ := Option.map_eq_some_iff.1 hlimit
      have := hmost bound hbound
      omega
    · rw [hoffset]
      exact hgoal

theorem Covers.repeated (h : Covers step kind) {greed : Greed} (hgreed : greed ≠ .possessive)
    (least : Nat) (most : Option Nat) :
    Covers (repeated greed least most step) (Row kind least most) := by
  cases greed with
  | greedy => exact h.rounds false least most
  | lazy => exact h.rounds true least most
  | possessive => exact absurd rfl hgreed

/-! ## Patterns -/

/-- Alternatives reach a goal if one of them does. -/
theorem isSome_alt_iff {first second : Pattern} {mode : Mode} {goal : Goal} {place : Place} :
    (search (alt first second) mode goal place).isSome = true ↔
      (search first mode goal place).isSome = true ∨
        (search second mode goal place).isSome = true := by
  rw [search, Option.orElse_eq_or, Option.isSome_or, Bool.or_eq_true]

/-- A search takes every text of a regular pattern whose quantifiers give back what they took. -/
theorem covers_search (pattern : Pattern) (hregular : pattern.isRegular = true)
    (hgives : pattern.hasPossessive = false) :
    ∀ mode, Covers (search pattern mode) (Spells mode pattern) := by
  induction pattern with
  | empty =>
    rintro mode goal place _ rest rfl hafter hgoal
    exact hgoal place rfl hafter
  | char c => exact fun mode => covers_advance fun _ _ => rfl
  | anyChar => exact fun mode => covers_advance fun _ _ => rfl
  | set complement members => exact fun mode => covers_advance fun _ _ => rfl
  | anchor kind => cases hregular
  | backref number width => cases hregular
  | ifKept number yes no ihyes ihno => cases hregular
  | look direction positive body ih => cases hregular
  | atomic body ih => cases hregular
  | seq first second ihfirst ihsecond =>
    obtain ⟨hfirst, hsecond⟩ := Bool.and_eq_true_iff.1 hregular
    obtain ⟨hgives, hgives'⟩ := Bool.or_eq_false_iff.1 hgives
    rintro mode goal place _ rest ⟨front, back, rfl, hfront, hback⟩ hafter hgoal
    rw [List.append_assoc] at hafter
    rw [List.length_append, ← Nat.add_assoc] at hgoal
    apply ihfirst hfirst hgives mode _ place front _ hfront hafter
    intro there hoffset hthere
    apply ihsecond hsecond hgives' mode _ there back _ hback hthere
    rwa [hoffset]
  | alt first second ihfirst ihsecond =>
    obtain ⟨hfirst, hsecond⟩ := Bool.and_eq_true_iff.1 hregular
    obtain ⟨hgives, hgives'⟩ := Bool.or_eq_false_iff.1 hgives
    intro mode goal place text rest htext hafter hgoal
    rw [isSome_alt_iff]
    rcases htext with htext | htext
    · exact .inl (ihfirst hfirst hgives mode goal place text rest htext hafter hgoal)
    · exact .inr (ihsecond hsecond hgives' mode goal place text rest htext hafter hgoal)
  | group number body ih =>
    intro mode goal place text rest htext hafter hgoal
    have hbody := ih hregular hgives mode
    cases number with
    | none => exact hbody goal place text rest htext hafter hgoal
    | some number =>
      apply hbody _ (place.reopen number) text rest htext hafter
      intro there hoffset hthere
      exact hgoal (there.keep number place) hoffset hthere
  | flagged on off body ih =>
    intro mode
    exact ih hregular hgives (mode.flagged on off)
  | iterate greed least most body ih =>
    obtain ⟨hgreed, hgives⟩ := Bool.or_eq_false_iff.1 hgives
    intro mode
    exact (ih hregular hgives mode).repeated (by simpa using hgreed) least most

/-- **A regular pattern matches exactly its texts**, if its quantifiers give back what they took. -/
theorem matchesIn_iff_spells {pattern : Pattern} (hregular : pattern.isRegular = true)
    (hgives : pattern.hasPossessive = false) (mode : Mode) (text : Text) :
    pattern.matchesIn mode text = true ↔ Spells mode pattern text := by
  constructor
  · exact spells_of_matchesIn
  · intro htext
    apply covers_search pattern hregular hgives mode _ _ text [] htext (by simp [Place.start])
    intro there _ hthere
    simp [Place.atEnd, hthere]

end BuildLog.Pattern
