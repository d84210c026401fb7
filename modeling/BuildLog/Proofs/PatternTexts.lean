import BuildLog.Pattern.Match
import Mathlib.Data.List.Basic

/-!
# The texts of a pattern

A search through a text goes forwards and backwards, but what it takes in the end can be told from the
parts of the pattern.

* `Pattern.Spells`: the texts that a pattern may take, part by part;
* `Pattern.row_char_iff`, `Pattern.row_optional_iff`: the texts of a repeated character and of an optional
  part;
* `Pattern.Takes`: a step of a search takes only texts of a kind. `takes_search` says so of every
  pattern and its texts, with one lemma for each way to repeat;
* `Pattern.spells_of_matchesIn`: a text that is matched from its start to its end is one of the texts
  of the pattern.
-/

namespace BuildLog.Pattern

/-! ## Texts -/

/-- Some texts of a kind in a row, not fewer than the least number and, beyond that, not more than the
greatest. -/
def Row (kind : Text → Prop) (least : Nat) (most : Option Nat) (text : Text) : Prop :=
  ∃ parts : List Text, text = parts.flatten ∧ (∀ part ∈ parts, kind part) ∧
    least ≤ parts.length ∧ ∀ bound ∈ most, parts.length ≤ max least bound

/-- The texts that a pattern may take in a mode. What is required of places, of what stands around them or
of what groups have kept is left aside, and a reference may stand for any text: a match has to meet these
conditions as well. -/
def Spells : Mode → Pattern → Text → Prop
  | _, empty, text => text = []
  | mode, char c, text => ∃ d, text = [d] ∧ sameChar mode c d = true
  | mode, anyChar, text => ∃ d, text = [d] ∧ isAnyChar mode d = true
  | mode, set complement members, text => ∃ d, text = [d] ∧ inSet mode complement members d = true
  | _, anchor _, text => text = []
  | mode, seq first second, text =>
    ∃ front back, text = front ++ back ∧ Spells mode first front ∧ Spells mode second back
  | mode, alt first second, text => Spells mode first text ∨ Spells mode second text
  | mode, group _ body, text => Spells mode body text
  | _, backref _ _, _ => True
  | mode, ifKept _ yes no, text => Spells mode yes text ∨ Spells mode no text
  | _, look .., text => text = []
  | mode, atomic body, text => Spells mode body text
  | mode, flagged on off body, text => Spells (mode.flagged on off) body text
  | mode, iterate _ least most body, text => Row (Spells mode body) least most text

@[simp] theorem sameChar_plain (c d : Char) : sameChar .plain c d = (c == d) := rfl

@[simp] theorem inSet_plain (complement : Bool) (members : List BuildLog.SetMember) (c : Char) :
    inSet .plain complement members c = (members.any (SetMember.holds false c) != complement) := rfl

theorem holds_single (ascii : Bool) (c d : Char) :
    SetMember.holds ascii c (.single d.toNat) = (c == d) := by
  rw [SetMember.holds, Bool.eq_iff_iff, beq_iff_eq, beq_iff_eq, Char.toNat_inj]

/-! ## Rows -/

/-- A row of characters of a kind is a text of such characters. -/
theorem row_char_iff {accepts : Char → Bool} {least : Nat} {most : Option Nat} {text : Text} :
    Row (fun part => ∃ c, part = [c] ∧ accepts c = true) least most text ↔
      least ≤ text.length ∧ (∀ bound ∈ most, text.length ≤ max least bound) ∧
        ∀ c ∈ text, accepts c = true := by
  constructor
  · rintro ⟨parts, rfl, hparts, hleast, hmost⟩
    have hones : parts.map List.length = List.replicate parts.length 1 := by
      rw [List.map_eq_replicate_iff]
      intro part hpart
      obtain ⟨c, rfl, -⟩ := hparts part hpart
      rfl
    have hlength : parts.flatten.length = parts.length := by
      rw [List.length_flatten, hones, List.sum_replicate_nat, Nat.mul_one]
    rw [hlength]
    refine ⟨hleast, hmost, ?_⟩
    intro c hc
    obtain ⟨part, hpart, hmem⟩ := List.mem_flatten.1 hc
    obtain ⟨d, rfl, haccepts⟩ := hparts part hpart
    rwa [List.mem_singleton.1 hmem]
  · rintro ⟨hleast, hmost, haccepts⟩
    refine ⟨text.map fun c => [c], ?_, ?_, ?_, ?_⟩
    · simp [← List.flatMap_def]
    · intro part hpart
      obtain ⟨c, hc, rfl⟩ := List.mem_map.1 hpart
      exact ⟨c, rfl, haccepts c hc⟩
    · rwa [List.length_map]
    · rwa [List.length_map]

/-- What may stand once or not at all. -/
theorem row_optional_iff {kind : Text → Prop} {text : Text} :
    Row kind 0 (some 1) text ↔ text = [] ∨ kind text := by
  constructor
  · rintro ⟨parts, rfl, hparts, -, hmost⟩
    match parts, hmost 1 rfl with
    | [], _ => exact .inl rfl
    | [part], _ =>
      refine .inr ?_
      rw [List.flatten_singleton]
      exact hparts part (List.mem_singleton_self part)
  · rintro (rfl | htext)
    · exact ⟨[], rfl, by simp, Nat.zero_le _, by simp⟩
    · exact ⟨[text], by simp, by simpa using htext, Nat.zero_le _, by simp⟩

/-! ## Steps -/

/-- A step takes only texts of a kind: it reaches its goal from a place behind such a text. -/
def Takes (step : Step) (kind : Text → Prop) : Prop :=
  ∀ goal place found, step goal place = some found →
    ∃ text there, kind text ∧ place.after = text ++ there.after ∧ goal there = some found

@[simp] theorem Place.keep_after (place : Place) (number : Nat) (since : Place) :
    (place.keep number since).after = place.after := rfl

@[simp] theorem Place.reopen_after (place : Place) (number : Nat) :
    (place.reopen number).after = place.after := rfl

@[simp] theorem Place.keeping_after (place other : Place) :
    (place.keeping other).after = place.after := rfl

/-- One character further on. -/
theorem Place.after_of_advance? {place next : Place} {accepts : Char → Bool}
    (h : place.advance? accepts = some next) :
    ∃ c, place.after = [c] ++ next.after ∧ accepts c = true := by
  unfold Place.advance? at h
  split at h
  · cases h
  · rename_i c rest hafter
    split at h
    · rename_i haccepts
      cases h
      exact ⟨c, hafter, haccepts⟩
    · cases h

/-- A step over one character takes a text of that character. -/
theorem takes_advance {step : Step} {accepts : Char → Bool}
    (h : ∀ goal place, step goal place = (place.advance? accepts).bind goal) :
    Takes step fun text => ∃ c, text = [c] ∧ accepts c = true := by
  intro goal place found hstep
  rw [h, Option.bind_eq_some_iff] at hstep
  obtain ⟨there, hthere, hgoal⟩ := hstep
  obtain ⟨c, hafter, haccepts⟩ := Place.after_of_advance? hthere
  exact ⟨[c], there, ⟨c, rfl, haccepts⟩, hafter, hgoal⟩

variable {step : Step} {kind : Text → Prop}

theorem Takes.settled (h : Takes step kind) : Takes (settled step) kind := by
  intro goal place found hstep
  unfold Pattern.settled at hstep
  split at hstep
  · rename_i there hthere
    obtain ⟨text, reached, htext, hafter, hsame⟩ := h some place there hthere
    cases hsame
    exact ⟨text, there, htext, hafter, hstep⟩
  · cases hstep

/-- What is found in one of two ways is found in the first or in the second. -/
theorem eq_some_of_orElse {first : Option Place} {second : Unit → Option Place} {found : Place}
    (h : first.orElse second = some found) : first = some found ∨ second () = some found := by
  cases first with
  | none => exact .inr h
  | some place => exact .inl h

/-! ## Repetitions -/

/-- A fixed number of repetitions takes that many texts. -/
theorem Takes.exactly (h : Takes step kind) (goal : Goal) (count : Nat) (place found : Place)
    (hstep : exactly step goal count place = some found) :
    ∃ parts : List Text, ∃ there : Place, parts.length = count ∧ (∀ part ∈ parts, kind part) ∧
      place.after = parts.flatten ++ there.after ∧ goal there = some found := by
  induction count generalizing place with
  | zero => exact ⟨[], place, rfl, by simp, rfl, hstep⟩
  | succ count ih =>
    obtain ⟨text, next, htext, hafter, hrest⟩ := h _ place found hstep
    obtain ⟨parts, there, hlength, hparts, hbehind, hgoal⟩ := ih next hrest
    refine ⟨text :: parts, there, by simp [hlength], ?_, ?_, hgoal⟩
    · exact List.forall_mem_cons.2 ⟨htext, hparts⟩
    · rw [hafter, hbehind, List.flatten_cons, List.append_assoc]

/-- Further repetitions take some more texts, as far as that is allowed. -/
theorem Takes.further (h : Takes step kind) (lazily : Bool) (goal : Goal) (bound : Nat)
    (most last : Option Nat) (place found : Place)
    (hstep : further step lazily goal bound most last place = some found) :
    ∃ parts : List Text, ∃ there : Place, (∀ limit ∈ most, parts.length ≤ limit) ∧
      (∀ part ∈ parts, kind part) ∧ place.after = parts.flatten ++ there.after ∧
      goal there = some found := by
  induction bound generalizing most last place with
  | zero => exact ⟨[], place, by simp, by simp, rfl, hstep⟩
  | succ bound ih =>
    rw [Pattern.further] at hstep
    split at hstep
    · exact ⟨[], place, by simp, by simp, rfl, hstep⟩
    · rename_i hgoes
      -- either one more repetition leads to the goal, or there is none
      have hcases : step (Pattern.further step lazily goal bound (most.map (· - 1))
          (some place.offset)) place = some found ∨ goal place = some found := by
        split at hstep
        · exact (eq_some_of_orElse hstep).symm
        · exact eq_some_of_orElse hstep
      rcases hcases with hagain | hdone
      · obtain ⟨text, next, htext, hafter, hrest⟩ := h _ place found hagain
        obtain ⟨parts, there, hlength, hparts, hbehind, hgoal⟩ := ih _ _ next hrest
        refine ⟨text :: parts, there, ?_, List.forall_mem_cons.2 ⟨htext, hparts⟩, ?_, hgoal⟩
        · intro limit hlimit
          have hsome : most = some limit := hlimit
          subst hsome
          have hleft := hlength (limit - 1) rfl
          have hpositive : limit ≠ 0 := by
            rintro rfl
            simp at hgoes
          rw [List.length_cons]
          omega
        · rw [hafter, hbehind, List.flatten_cons, List.append_assoc]
      · exact ⟨[], place, by simp, by simp, rfl, hdone⟩

theorem Takes.rounds (h : Takes step kind) (lazily : Bool) (least : Nat) (most : Option Nat) :
    Takes (rounds step lazily least most) (Row kind least most) := by
  intro goal place found hstep
  obtain ⟨parts, middle, hlength, hparts, hafter, hrest⟩ := h.exactly _ least place found hstep
  obtain ⟨more, there, hmost, hmore, hbehind, hgoal⟩ := h.further lazily goal _ _ _ middle found hrest
  refine ⟨(parts ++ more).flatten, there, ⟨parts ++ more, rfl, ?_, ?_, ?_⟩, ?_, hgoal⟩
  · intro part hpart
    rcases List.mem_append.1 hpart with hpart | hpart
    · exact hparts part hpart
    · exact hmore part hpart
  · rw [List.length_append]
    omega
  · intro bound hbound
    have hsome : most = some bound := hbound
    subst hsome
    have hleft := hmost (bound - least) rfl
    rw [List.length_append]
    omega
  · rw [hafter, hbehind, List.flatten_append, List.append_assoc]

theorem Takes.repeated (h : Takes step kind) (greed : Greed) (least : Nat) (most : Option Nat) :
    Takes (repeated greed least most step) (Row kind least most) := by
  cases greed with
  | greedy => exact h.rounds false least most
  | lazy => exact h.rounds true least most
  | possessive => exact (h.settled.rounds false least most).settled

/-! ## Patterns -/

/-- A search for a given text takes some text. -/
theorem after_of_searchText {mode : Mode} {goal : Goal} {found : Place} (kept : Text)
    (place : Place) (h : searchText mode goal kept place = some found) :
    ∃ text there, place.after = text ++ there.after ∧ goal there = some found := by
  induction kept generalizing place with
  | nil => exact ⟨[], place, rfl, h⟩
  | cons c kept ih =>
    obtain ⟨next, hnext, hrest⟩ := Option.bind_eq_some_iff.1 h
    obtain ⟨d, hafter, -⟩ := Place.after_of_advance? hnext
    obtain ⟨text, there, hbehind, hgoal⟩ := ih next hrest
    refine ⟨d :: text, there, ?_, hgoal⟩
    rw [hafter, hbehind]
    rfl

/-- What is only looked for is not taken. -/
theorem takes_looking (step : Step) (direction : Direction) (positive : Bool) :
    Takes (looking step direction positive) (· = []) := by
  intro goal place found h
  unfold looking at h
  dsimp only at h
  cases positive with
  | true =>
    obtain ⟨there, -, hgoal⟩ := Option.bind_eq_some_iff.1 h
    exact ⟨[], place.keeping there, rfl, rfl, hgoal⟩
  | false =>
    rw [if_neg Bool.false_ne_true] at h
    split at h
    · cases h
    · exact ⟨[], place, rfl, rfl, h⟩

/-- A search takes only texts of its pattern. -/
theorem takes_search (pattern : Pattern) :
    ∀ mode, Takes (search pattern mode) (Spells mode pattern) := by
  induction pattern with
  | empty =>
    intro mode goal place found h
    exact ⟨[], place, rfl, rfl, h⟩
  | char c => exact fun mode => takes_advance fun _ _ => rfl
  | anyChar => exact fun mode => takes_advance fun _ _ => rfl
  | set complement members => exact fun mode => takes_advance fun _ _ => rfl
  | anchor kind =>
    intro mode goal place found h
    rw [search] at h
    split at h
    · exact ⟨[], place, rfl, rfl, h⟩
    · cases h
  | seq first second ihfirst ihsecond =>
    intro mode goal place found h
    obtain ⟨front, middle, hfront, hafter, hrest⟩ := ihfirst mode _ place found h
    obtain ⟨back, there, hback, hbehind, hgoal⟩ := ihsecond mode goal middle found hrest
    refine ⟨front ++ back, there, ⟨front, back, rfl, hfront, hback⟩, ?_, hgoal⟩
    rw [hafter, hbehind, List.append_assoc]
  | alt first second ihfirst ihsecond =>
    intro mode goal place found h
    rcases eq_some_of_orElse h with hfirst | hsecond
    · obtain ⟨text, there, htext, hplaces⟩ := ihfirst mode goal place found hfirst
      exact ⟨text, there, .inl htext, hplaces⟩
    · obtain ⟨text, there, htext, hplaces⟩ := ihsecond mode goal place found hsecond
      exact ⟨text, there, .inr htext, hplaces⟩
  | group number body ih =>
    intro mode goal place found h
    cases number with
    | none => exact ih mode goal place found h
    | some number =>
      obtain ⟨text, there, htext, hafter, hgoal⟩ := ih mode _ (place.reopen number) found h
      exact ⟨text, there.keep number place, htext, hafter, hgoal⟩
  | backref number width =>
    intro mode goal place found h
    obtain ⟨kept, -, hsearch⟩ := Option.bind_eq_some_iff.1 h
    obtain ⟨text, there, hafter, hgoal⟩ := after_of_searchText kept place hsearch
    exact ⟨text, there, trivial, hafter, hgoal⟩
  | ifKept number yes no ihyes ihno =>
    intro mode goal place found h
    rw [search] at h
    split at h
    · obtain ⟨text, there, htext, hplaces⟩ := ihyes mode goal place found h
      exact ⟨text, there, .inl htext, hplaces⟩
    · obtain ⟨text, there, htext, hplaces⟩ := ihno mode goal place found h
      exact ⟨text, there, .inr htext, hplaces⟩
  | look direction positive body ih => exact fun mode => takes_looking (search body mode) direction positive
  | atomic body ih => exact fun mode => (ih mode).settled
  | flagged on off body ih => exact fun mode => ih (mode.flagged on off)
  | iterate greed least most body ih => exact fun mode => (ih mode).repeated greed least most

/-- A text that is matched from its start to its end is one of the texts of the pattern. -/
theorem spells_of_matchesIn {pattern : Pattern} {mode : Mode} {text : Text}
    (h : pattern.matchesIn mode text = true) : Spells mode pattern text := by
  obtain ⟨found, hfound⟩ := Option.isSome_iff_exists.1 h
  obtain ⟨taken, there, htaken, hafter, hend⟩ := takes_search pattern mode _ _ _ hfound
  split at hend
  · rename_i hatEnd
    have hnothing : there.after = [] := List.isEmpty_iff.1 hatEnd
    rw [hnothing, List.append_nil] at hafter
    have htext : text = taken := hafter
    rwa [htext]
  · cases hend

end BuildLog.Pattern
