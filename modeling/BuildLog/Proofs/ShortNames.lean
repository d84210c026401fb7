import BuildLog.Path.ShortName
import BuildLog.Proofs.FoundPatterns
import BuildLog.Proofs.NameParts
import BuildLog.Proofs.PathComponents
import Mathlib.Data.List.TakeWhile

/-!
# Short names by component

Whether a path has short names is told by one pattern that is searched for in the whole path. The answer can
be read off the components of the path.

* `Path.IsShortName`: what a short name is made of;
* `Path.startsShortName_iff_name`: a short name is recognised at the start of a text, up to the end of the
  component;
* `ShortName.pattern`: the pattern of short names, read from its text, with `ShortName.spells_name_iff`
  for the texts that it takes and `ShortName.looksAhead_closing` for what must follow;
* `Path.short_names_by_component`: the pattern is found in a path exactly if a component is a short name.
-/

namespace BuildLog.Path

variable {path text rest : Text}

/-! ## Short names -/

/-- A short name ends with its number, or with a dot and one to three characters other than dots. -/
def IsShortEnding (ending : Text) : Prop :=
  ending = [] ∨ ∃ letters, ending = '.' :: letters ∧ letters ≠ [] ∧ letters.length ≤ 3 ∧ '.' ∉ letters

/-- The parts of a short name: one to six characters other than tildes, the digits behind the tilde, and the
ending. -/
structure IsShortForm (stem number ending : Text) : Prop where
  stem_ne_nil : stem ≠ []
  length_stem_le : stem.length ≤ 6
  tilde_not_mem : '~' ∉ stem
  number_ne_nil : number ≠ []
  digits : ∀ c ∈ number, Text.isDigit c = true
  ending : IsShortEnding ending

/-- A text is a short name, as `PROGRA~1` and `GCC~1.EXE` are. -/
def IsShortName (name : Text) : Prop :=
  ∃ stem number ending, name = stem ++ '~' :: number ++ ending ∧ IsShortForm stem number ending

/-! ## Ends of components -/

theorem endsComponent_iff :
    endsComponent rest = true ↔
      rest = ['\n'] ∨ ∀ c ∈ rest.head?, PathStyle.windows.isSeparator c = true := by
  unfold endsComponent
  split <;> simp_all

theorem isSeparator_of_isDigit {c : Char} (h : Text.isDigit c = true) :
    PathStyle.windows.isSeparator c = false := by
  rw [Bool.eq_false_iff]
  intro hc
  rw [PathStyle.isSeparator, Bool.or_eq_true, beq_iff_eq, beq_iff_eq] at hc
  rcases hc with rfl | rfl
  · exact absurd h (by decide)
  · exact absurd h (by decide)

/-- A number cannot go on where a component ends. -/
theorem not_isDigit_of_endsComponent (h : endsComponent rest = true) :
    ∀ c ∈ rest.head?, Text.isDigit c = false := by
  rcases endsComponent_iff.1 h with rfl | hahead
  · rintro c ⟨⟩
    decide
  · intro c hc
    rw [Bool.eq_false_iff]
    intro hdigit
    have hinside := isSeparator_of_isDigit hdigit
    rw [hahead c hc] at hinside
    cases hinside

/-! ## Recognising a short name -/

/-- A run of characters of a kind has at least some length if that many characters are of that kind. -/
theorem le_length_takeWhile_iff {p : Char → Bool} {count : Nat} :
    count ≤ (text.takeWhile p).length ↔ count ≤ text.length ∧ ∀ c ∈ text.take count, p c = true := by
  induction text generalizing count with
  | nil => simp
  | cons c text ih =>
    cases count with
    | zero => simp
    | succ count => by_cases hc : p c = true <;> simp [hc, ih]

theorem isShortExtension_iff :
    isShortExtension text = true ↔ ∃ letters rest, text = '.' :: letters ++ rest ∧ letters ≠ [] ∧
      letters.length ≤ 3 ∧ '.' ∉ letters ∧ (∀ c ∈ letters, PathStyle.windows.isSeparator c = false) ∧
      endsComponent rest = true := by
  constructor
  · intro h
    unfold isShortExtension at h
    split at h
    · rename_i rest
      simp only [List.any_eq_true, Bool.and_eq_true, decide_eq_true_eq, le_length_takeWhile_iff,
        Bool.not_eq_true', bne_iff_ne] at h
      obtain ⟨count, hcount, ⟨hle, hletters⟩, hends⟩ := h
      have hlength : (rest.take count).length = count := List.length_take_of_le hle
      have hbounds : 1 ≤ count ∧ count ≤ 3 := by
        simp at hcount
        omega
      refine ⟨rest.take count, rest.drop count, ?_, ?_, ?_, ?_, fun c hc => (hletters c hc).1, hends⟩
      · rw [List.cons_append, List.take_append_drop]
      · rw [← List.length_pos_iff, hlength]
        exact hbounds.1
      · rw [hlength]
        exact hbounds.2
      · exact fun hdot => (hletters '.' hdot).2 rfl
    · cases h
  · rintro ⟨letters, rest, rfl, hne, hle, hdot, hinside, hends⟩
    have hpos : 0 < letters.length := List.length_pos_iff.2 hne
    rw [List.cons_append, isShortExtension, List.any_eq_true]
    refine ⟨letters.length, ?_, ?_⟩
    · simp
      omega
    · rw [List.drop_left, hends, Bool.and_true, decide_eq_true_eq, le_length_takeWhile_iff, List.take_left]
      refine ⟨by simp, ?_⟩
      intro c hc
      have hother : c ≠ '.' := by
        rintro rfl
        exact hdot hc
      simp [hinside c hc, hother]

theorem isShortTail_iff :
    isShortTail text = true ↔ ∃ number ending rest, text = number ++ ending ++ rest ∧ number ≠ [] ∧
      (∀ c ∈ number, Text.isDigit c = true) ∧ IsShortEnding ending ∧
      (∀ c ∈ ending, PathStyle.windows.isSeparator c = false) ∧ endsComponent rest = true := by
  constructor
  · intro h
    simp only [isShortTail, Bool.and_eq_true, Bool.or_eq_true, Bool.not_eq_true',
      List.isEmpty_eq_false_iff] at h
    obtain ⟨hne, hends⟩ := h
    have htext : text = text.takeWhile Text.isDigit ++ text.dropWhile Text.isDigit :=
      List.takeWhile_append_dropWhile.symm
    have hdigits : ∀ c ∈ text.takeWhile Text.isDigit, Text.isDigit c = true := by
      intro c hc
      exact List.mem_takeWhile_imp hc
    rcases hends with hends | hextension
    · refine ⟨_, [], _, ?_, hne, hdigits, .inl rfl, nofun, hends⟩
      rwa [List.append_nil]
    · obtain ⟨letters, rest, hrest, hletters, hle, hdot, hinside, hends⟩ :=
        isShortExtension_iff.1 hextension
      refine ⟨_, '.' :: letters, rest, ?_, hne, hdigits, .inr ⟨letters, rfl, hletters, hle, hdot⟩, ?_, hends⟩
      · rwa [List.append_assoc, ← hrest]
      · exact List.forall_mem_cons.2 ⟨by decide, hinside⟩
  · rintro ⟨number, ending, rest, rfl, hne, hdigits, hending, hinside, hends⟩
    -- the number stops where the ending, or what ends the component, starts
    have hstop : ∀ c ∈ (ending ++ rest).head?, Text.isDigit c = false := by
      rcases hending with rfl | ⟨letters, rfl, -⟩
      · exact not_isDigit_of_endsComponent hends
      · rintro c ⟨⟩
        decide
    rw [List.append_assoc, isShortTail, Text.takeWhile_append_of_stop hdigits hstop,
      Text.dropWhile_append_of_stop hdigits hstop]
    have hnumber : number.isEmpty = false := by simpa using hne
    rw [hnumber, Bool.not_false, Bool.true_and, Bool.or_eq_true]
    rcases hending with rfl | ⟨letters, rfl, hletters, hle, hdot⟩
    · exact .inl hends
    · exact .inr (isShortExtension_iff.2 ⟨letters, rest, rfl, hletters, hle, hdot,
        (List.forall_mem_cons.1 hinside).2, hends⟩)

theorem startsShortName_iff :
    startsShortName text = true ↔ ∃ stem rest, text = stem ++ '~' :: rest ∧ stem ≠ [] ∧ stem.length ≤ 6 ∧
      '~' ∉ stem ∧ (∀ c ∈ stem, PathStyle.windows.isSeparator c = false) ∧ isShortTail rest = true := by
  constructor
  · intro h
    unfold startsShortName at h
    extract_lets stem at h
    split at h
    · rename_i rest hdrop
      simp only [Bool.and_eq_true, decide_eq_true_eq] at h
      obtain ⟨⟨hpos, hle⟩, htail⟩ := h
      have hstem : ∀ c ∈ stem, PathStyle.windows.isSeparator c = false ∧ c ≠ '~' := by
        intro c hc
        simpa using List.mem_takeWhile_imp hc
      have htext : stem ++ text.drop stem.length = text :=
        List.prefix_iff_eq_append.1 (List.takeWhile_prefix _)
      rw [hdrop] at htext
      exact ⟨stem, rest, htext.symm, List.length_pos_iff.1 hpos, hle, fun htilde => (hstem '~' htilde).2 rfl,
        fun c hc => (hstem c hc).1, htail⟩
    · cases h
  · rintro ⟨stem, rest, rfl, hne, hle, htilde, hinside, htail⟩
    have hstem : ∀ c ∈ stem, (!PathStyle.windows.isSeparator c && c != '~') = true := by
      intro c hc
      have hother : c ≠ '~' := by
        rintro rfl
        exact htilde hc
      simp [hinside c hc, hother]
    have hpos : 1 ≤ stem.length := List.length_pos_iff.2 hne
    rw [startsShortName, Text.takeWhile_append_of_stop hstem (by simp), List.drop_left]
    simp [hpos, hle, htail]

/-- A short name is recognised at the start of a text exactly if one stands there, up to the end of the
component. -/
theorem startsShortName_iff_name :
    startsShortName text = true ↔ ∃ name rest, text = name ++ rest ∧ IsShortName name ∧
      (∀ c ∈ name, PathStyle.windows.isSeparator c = false) ∧ endsComponent rest = true := by
  rw [startsShortName_iff]
  constructor
  · rintro ⟨stem, _, rfl, hne, hle, htilde, hstem, htail⟩
    obtain ⟨number, ending, rest, rfl, hnumber, hdigits, hending, hletters, hends⟩ := isShortTail_iff.1 htail
    refine ⟨stem ++ '~' :: number ++ ending, rest, by simp, ⟨stem, number, ending, rfl, ?_⟩, ?_, hends⟩
    · exact ⟨hne, hle, htilde, hnumber, hdigits, hending⟩
    · refine List.forall_mem_append.2 ⟨List.forall_mem_append.2 ⟨hstem, ?_⟩, hletters⟩
      exact List.forall_mem_cons.2 ⟨by decide, fun c hc => isSeparator_of_isDigit (hdigits c hc)⟩
  · rintro ⟨_, rest, rfl, ⟨stem, number, ending, rfl, hform⟩, hinside, hends⟩
    obtain ⟨hstem, hletters⟩ := List.forall_mem_append.1 hinside
    refine ⟨stem, number ++ ending ++ rest, by simp, hform.stem_ne_nil, hform.length_stem_le,
      hform.tilde_not_mem, (List.forall_mem_append.1 hstem).1, isShortTail_iff.2 ?_⟩
    exact ⟨number, ending, rest, rfl, hform.number_ne_nil, hform.digits, hform.ending, hletters, hends⟩

/-! ## Looking for short names in a path -/

theorem hasLaterShortName_iff :
    hasLaterShortName path = true ↔ ∃ front c rest, path = front ++ c :: rest ∧
      PathStyle.windows.isSeparator c = true ∧ startsShortName rest = true := by
  induction path with
  | nil => simp [hasLaterShortName]
  | cons c path ih =>
    rw [hasLaterShortName, Bool.or_eq_true, Bool.and_eq_true, ih]
    constructor
    · rintro (⟨hc, hstarts⟩ | ⟨front, d, rest, rfl, hd, hstarts⟩)
      · exact ⟨[], c, path, rfl, hc, hstarts⟩
      · exact ⟨c :: front, d, rest, rfl, hd, hstarts⟩
    · rintro ⟨front, d, rest, hpath, hd, hstarts⟩
      cases front with
      | nil =>
        obtain ⟨rfl, rfl⟩ := List.cons_eq_cons.1 hpath
        exact .inl ⟨hd, hstarts⟩
      | cons e front =>
        obtain ⟨rfl, rfl⟩ := List.cons_eq_cons.1 hpath
        exact .inr ⟨front, d, rest, rfl, hd, hstarts⟩

theorem hasShortName_iff :
    hasShortName path = true ↔ ∃ front rest, path = front ++ rest ∧
      (∀ c ∈ front.getLast?, PathStyle.windows.isSeparator c = true) ∧ startsShortName rest = true := by
  rw [hasShortName, Bool.or_eq_true, hasLaterShortName_iff]
  constructor
  · rintro (hstarts | ⟨front, c, rest, rfl, hc, hstarts⟩)
    · exact ⟨[], path, rfl, nofun, hstarts⟩
    · refine ⟨front ++ [c], rest, by simp, ?_, hstarts⟩
      intro d hd
      rw [List.getLast?_concat] at hd
      cases hd
      exact hc
  · rintro ⟨front, rest, rfl, hbehind, hstarts⟩
    rcases List.eq_nil_or_concat' front with rfl | ⟨front, c, rfl⟩
    · exact .inl hstarts
    · refine .inr ⟨front, c, rest, ?_, hbehind c List.getLast?_concat, hstarts⟩
      rw [List.append_assoc, List.singleton_append]

/-! ## The pattern of short names -/

/-- The text of the pattern of short names: the start of a component, the stem, the tilde, the number, the
extension and, without being taken, the end of the component. -/
def shortNameSource : Text :=
  "(?:^|[\\\\/])[^\\\\/~]\x7b1,6\x7d~\\d+(?:\\.[^\\\\/.]\x7b1,3\x7d)?(?=$|[\\\\/])".toList

namespace ShortName

open Pattern (Spells)

def separator : Pattern :=
  .set false [.single '\\'.toNat, .single '/'.toNat]

/-- Any character of a component but the given one. -/
def otherThan (c : Char) : Pattern :=
  .set true [.single '\\'.toNat, .single '/'.toNat, .single c.toNat]

/-- The start of a component: the start of the path, or a separator. -/
def opening : Pattern :=
  .group none (.alt (.seq (.anchor .start) .empty) (.seq separator .empty))

def stem : Pattern :=
  .iterate .greedy 1 (some 6) (otherThan '~')

def ending : Pattern :=
  .iterate .greedy 0 (some 1)
    (.group none (.seq (.char '.') (.seq (.iterate .greedy 1 (some 3) (otherThan '.')) .empty)))

/-- The end of a component, without the separator that may follow. -/
def closing : Pattern :=
  .look .ahead true (.alt (.seq (.anchor .finish) .empty) (.seq separator .empty))

def pattern : Pattern :=
  .seq opening (.seq stem (.seq (.char '~') (.seq .digits (.seq ending (.seq closing .empty)))))

theorem ofText_shortNameSource : Pattern.ofText shortNameSource = .ok pattern := rfl

/-- What the pattern takes between the ends of a component. -/
def name : Pattern :=
  .seq stem (.seq (.char '~') (.seq .digits ending))

/-- The short name itself is regular: only the ends of the component ask something of their place. -/
theorem search_pattern (place : Pattern.Place) :
    pattern.search .plain some place =
      opening.search .plain (name.search .plain (closing.search .plain some)) place := rfl

/-! ### Texts of the pattern -/

theorem inSet_separator (c : Char) :
    Pattern.inSet .plain false [.single '\\'.toNat, .single '/'.toNat] c = PathStyle.windows.isSeparator c := by
  rw [Pattern.inSet_plain, List.any_cons, List.any_cons, Pattern.holds_single, Pattern.holds_single]
  simp [PathStyle.isSeparator, Bool.or_comm]

theorem inSet_otherThan {c d : Char} :
    Pattern.inSet .plain true [.single '\\'.toNat, .single '/'.toNat, .single c.toNat] d = true ↔
      PathStyle.windows.isSeparator d = false ∧ d ≠ c := by
  rw [Pattern.inSet_plain, List.any_cons, List.any_cons, List.any_cons, Pattern.holds_single,
    Pattern.holds_single, Pattern.holds_single]
  simp [PathStyle.isSeparator, and_left_comm, and_assoc]

theorem spells_run_iff {c : Char} {most : Nat} (hmost : 1 ≤ most) :
    Spells .plain (.iterate .greedy 1 (some most) (otherThan c)) text ↔
      text ≠ [] ∧ text.length ≤ most ∧ c ∉ text ∧
        ∀ d ∈ text, PathStyle.windows.isSeparator d = false := by
  have hrow : Spells .plain (.iterate .greedy 1 (some most) (otherThan c)) text ↔ _ :=
    Pattern.row_char_iff
  have hne : 1 ≤ text.length ↔ text ≠ [] := List.length_pos_iff
  have hchars : (∀ d ∈ text, PathStyle.windows.isSeparator d = false ∧ d ≠ c) ↔
      c ∉ text ∧ ∀ d ∈ text, PathStyle.windows.isSeparator d = false := by
    constructor
    · intro h
      exact ⟨fun hc => (h c hc).2 rfl, fun d hd => (h d hd).1⟩
    · rintro ⟨hc, h⟩ d hd
      refine ⟨h d hd, ?_⟩
      rintro rfl
      exact hc hd
  rw [hrow]
  simp only [inSet_otherThan, hchars, hne, Option.mem_def, Option.some.injEq, forall_eq',
    Nat.max_eq_right hmost]

theorem spells_ending_iff :
    Spells .plain ending text ↔
      IsShortEnding text ∧ ∀ c ∈ text, PathStyle.windows.isSeparator c = false := by
  have hrow : Spells .plain ending text ↔ _ := Pattern.row_optional_iff
  rw [hrow]
  constructor
  · rintro (rfl | ⟨_, _, rfl, ⟨d, rfl, hdot⟩, letters, _, rfl, hletters, rfl⟩)
    · exact ⟨.inl rfl, nofun⟩
    · obtain rfl : '.' = d := by simpa using hdot
      obtain ⟨hne, hle, hother, hinside⟩ := (spells_run_iff (by decide)).1 hletters
      rw [List.append_nil]
      exact ⟨.inr ⟨letters, rfl, hne, hle, hother⟩, List.forall_mem_cons.2 ⟨by decide, hinside⟩⟩
  · rintro ⟨rfl | ⟨letters, rfl, hne, hle, hother⟩, hinside⟩
    · exact .inl rfl
    · have hletters := (spells_run_iff (by decide)).2
        ⟨hne, hle, hother, (List.forall_mem_cons.1 hinside).2⟩
      exact .inr ⟨['.'], letters, rfl, ⟨'.', rfl, rfl⟩, letters, [], (List.append_nil _).symm, hletters, rfl⟩

/-- Between the ends of a component, the pattern takes the short names. -/
theorem spells_name_iff :
    Spells .plain name text ↔
      IsShortName text ∧ ∀ c ∈ text, PathStyle.windows.isSeparator c = false := by
  constructor
  · rintro ⟨stem, _, rfl, hstem, _, _, rfl, ⟨d, rfl, htilde⟩, number, ending, rfl, hnumber, hending⟩
    obtain rfl : '~' = d := by simpa using htilde
    obtain ⟨hne, hle, hother, hinside⟩ := (spells_run_iff (by decide)).1 hstem
    obtain ⟨hsome, hdigits⟩ := Pattern.spells_digits_iff.1 hnumber
    obtain ⟨hform, hletters⟩ := spells_ending_iff.1 hending
    refine ⟨⟨stem, number, ending, by simp, hne, hle, hother, hsome, hdigits, hform⟩, ?_⟩
    rw [List.singleton_append]
    refine List.forall_mem_append.2 ⟨hinside, List.forall_mem_cons.2 ⟨by decide, ?_⟩⟩
    exact List.forall_mem_append.2 ⟨fun c hc => isSeparator_of_isDigit (hdigits c hc), hletters⟩
  · rintro ⟨⟨stem, number, ending, rfl, hform⟩, hinside⟩
    obtain ⟨hfront, hletters⟩ := List.forall_mem_append.1 hinside
    have hstem := (spells_run_iff (by decide)).2 ⟨hform.stem_ne_nil, hform.length_stem_le,
      hform.tilde_not_mem, (List.forall_mem_append.1 hfront).1⟩
    have hnumber := Pattern.spells_digits_iff.2 ⟨hform.number_ne_nil, hform.digits⟩
    have hending := spells_ending_iff.2 ⟨hform.ending, hletters⟩
    exact ⟨stem, '~' :: (number ++ ending), by simp, hstem, ['~'], number ++ ending, rfl, ⟨'~', rfl, rfl⟩,
      number, ending, rfl, hnumber, hending⟩

/-! ### Ends of a component -/

theorem isSome_separator_iff {goal : Pattern.Goal} {place : Pattern.Place} :
    (separator.search .plain goal place).isSome = true ↔
      ∃ c rest, place.after = c :: rest ∧ PathStyle.windows.isSeparator c = true ∧
        (goal ⟨place.offset + 1, c :: place.before, rest, place.kept⟩).isSome = true := by
  rw [separator, Pattern.search, Pattern.isSome_advance_iff]
  simp only [inSet_separator]

theorem looksAhead_closing : Pattern.LooksAhead (closing.search .plain some) endsComponent := by
  intro place
  rw [Bool.eq_iff_iff, endsComponent_iff, closing, Pattern.isSome_look_iff, Pattern.isSome_alt_iff,
    Pattern.search_seq_empty, Pattern.search_seq_empty, Pattern.isSome_anchor_iff, isSome_separator_iff]
  rcases place with ⟨offset, before, _ | ⟨c, rest⟩, kept⟩ <;> simp [Pattern.Place.isAt, Mode.plain]

theorem isSome_opening_iff {goal : Pattern.Goal} {accepts : Text → Bool}
    (hgoal : Pattern.LooksAhead goal accepts) {front rest : Text} :
    (opening.search .plain goal (.between front rest)).isSome = true ↔
      front = [] ∧ accepts rest = true ∨
        ∃ c more, rest = c :: more ∧ PathStyle.windows.isSeparator c = true ∧ accepts more = true := by
  have hstart : (Pattern.Place.between front rest).isAt .plain .start = true ↔ front = [] := by
    simp [Pattern.Place.isAt, Pattern.Place.between, Mode.plain]
  rw [opening, Pattern.search, Pattern.isSome_alt_iff, Pattern.search_seq_empty, Pattern.search_seq_empty,
    Pattern.isSome_anchor_iff, isSome_separator_iff, hstart]
  simp only [hgoal _]
  rfl

/-! ### Finding the pattern -/

/-- What the pattern asks for behind the start of a component is a short name. -/
theorem looksAhead_name :
    Pattern.LooksAhead (name.search .plain (closing.search .plain some)) startsShortName := by
  intro place
  rw [Bool.eq_iff_iff, Pattern.isSome_search_iff rfl rfl looksAhead_closing, startsShortName_iff_name]
  simp only [spells_name_iff, and_assoc]

/-- The pattern is found in a path exactly if short names are. -/
theorem isFoundIn_pattern (path : Text) : pattern.isFoundIn path = hasShortName path := by
  rw [Bool.eq_iff_iff, Pattern.isFoundIn_iff, hasShortName, Bool.or_eq_true, hasLaterShortName_iff]
  simp only [search_pattern, isSome_opening_iff looksAhead_name]
  constructor
  · rintro ⟨front, _, rfl, ⟨rfl, hstarts⟩ | ⟨c, rest, rfl, hc, hstarts⟩⟩
    · exact .inl hstarts
    · exact .inr ⟨front, c, rest, rfl, hc, hstarts⟩
  · rintro (hstarts | ⟨front, c, rest, rfl, hc, hstarts⟩)
    · exact ⟨[], path, rfl, .inl ⟨rfl, hstarts⟩⟩
    · exact ⟨front, c :: rest, rfl, .inr ⟨c, rest, rfl, hc, hstarts⟩⟩

end ShortName

/-! ## Short names by component -/

/-- **A path has short names exactly if one of its components is one.** The text of the pattern of short names
describes a pattern, and a path has short names where that pattern matches at some place. It does so exactly
if the path, cut at every slash and backslash, has a component that is a short name from its start to its
end, or if its last component is a short name with one line feed behind it. -/
theorem short_names_by_component (path : Text) :
    (∃ pattern, Pattern.ofText shortNameSource = .ok pattern ∧
      hasShortName path = pattern.isFoundIn path) ∧
    (hasShortName path = true ↔
      (∃ component ∈ componentsIn .windows path, IsShortName component) ∨
        ∃ name, (componentsIn .windows path).getLast? = some (name ++ ['\n']) ∧ IsShortName name) := by
  refine ⟨⟨ShortName.pattern, ShortName.ofText_shortNameSource, (ShortName.isFoundIn_pattern path).symm⟩, ?_⟩
  rw [hasShortName_iff]
  constructor
  · rintro ⟨front, _, rfl, hbehind, hstarts⟩
    obtain ⟨name, rest, rfl, hname, hinside, hends⟩ := startsShortName_iff_name.1 hstarts
    rcases endsComponent_iff.1 hends with rfl | hahead
    · -- the line feed is a part of the last component, but not of the short name
      refine .inr ⟨name, getLast?_componentsIn_iff.2 ⟨front, ?_, ?_, hbehind, nofun⟩, hname⟩
      · rw [List.append_nil]
      · exact List.forall_mem_append.2 ⟨hinside, List.forall_mem_singleton.2 rfl⟩
    · refine .inl ⟨name, mem_componentsIn_iff.2 ⟨front, rest, ?_, hinside, hbehind, hahead⟩, hname⟩
      rw [List.append_assoc]
  · rintro (⟨name, hmem, hname⟩ | ⟨name, hlast, hname⟩)
    · obtain ⟨front, rest, rfl, hinside, hbehind, hahead⟩ := mem_componentsIn_iff.1 hmem
      refine ⟨front, name ++ rest, List.append_assoc .., hbehind, startsShortName_iff_name.2 ?_⟩
      exact ⟨name, rest, rfl, hname, hinside, endsComponent_iff.2 (.inr hahead)⟩
    · obtain ⟨front, rfl, hinside, hbehind, -⟩ := getLast?_componentsIn_iff.1 hlast
      refine ⟨front, name ++ ['\n'], List.append_nil _, hbehind, startsShortName_iff_name.2 ?_⟩
      exact ⟨name, ['\n'], rfl, hname, (List.forall_mem_append.1 hinside).1, rfl⟩

/-- A line feed behind a short name does not count within a path. -/
example : hasShortName "C:/a~1~2\\GCC~1.EXE\n".toList = true ∧
    hasShortName "C:/a~1~2\\GCC~1.EXE\n/b".toList = false := ⟨rfl, rfl⟩

end BuildLog.Path
