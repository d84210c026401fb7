import BuildLog.Proofs.PatternTexts
import BuildLog.Registry

/-!
# The parts of a name

A compiler may be named for the machine that it compiles for, and carry a version and an extension.

* `NamedBy`: a name is made of a machine, a stem, a version and an extension. `NamedBy.unique`: it can
  be taken apart in one way only, since a stem has no hyphen and ends neither like a version nor like
  the extension;
* `Pattern.named`: the pattern of the names with a stem, where versions look as usual;
* `Pattern.namedBy_of_spells`: the texts of this pattern are such names.
-/

namespace BuildLog

/-! ## Taking a name apart -/

/-- The characters of versions. -/
def isVersionChar (c : Char) : Bool :=
  c == '-' || c == '.' || Text.isDigit c

/-- A text that may be a version: numbers, points and hyphens, with a digit at the end. -/
def IsVersion (text : Text) : Prop :=
  (∀ c ∈ text, isVersionChar c = true) ∧
    ∃ front digit, text = front ++ [digit] ∧ Text.isDigit digit = true

/-- A text that may be the stem of a name: it has no hyphen and ends neither like a version nor like
the extension of executables. -/
def isStem (text : Text) : Bool :=
  !text.contains '-' && text.getLast?.any fun c => !isVersionChar c && c != 'e'

/-- The extension of a name under a convention. -/
def extensionOf (strategy : Strategy) : Text :=
  if strategy.usesExtension then '.' :: Registry.executable else []

/-- A name with a stem: in front of it the machine and a hyphen, if it belongs to a family of tools, and
behind it what the convention asks for. -/
def NamedBy (family : Bool) (stem : Text) (strategy : Strategy) (name : Text) : Prop :=
  ∃ machine version, name = machine ++ stem ++ version ++ extensionOf strategy ∧
    (if family then ∃ front, machine = front ++ ['-'] else machine = []) ∧
    (if strategy.usesVersion then IsVersion version else version = [])

/-- A text can be cut in one way only behind its longest start of a class. -/
theorem cut_unique {p : Char → Bool} {start start' rest rest' : Text}
    (hstart : ∀ c ∈ start, p c = true) (hstart' : ∀ c ∈ start', p c = true)
    (hrest : ∀ c ∈ rest.head?, p c = false)
    (hrest' : ∀ c ∈ rest'.head?, p c = false) (h : start ++ rest = start' ++ rest') :
    start = start' ∧ rest = rest' := by
  have hsame : start = start' := by
    rw [← Text.takeWhile_append_of_stop hstart hrest, h, Text.takeWhile_append_of_stop hstart' hrest']
  subst hsame
  exact ⟨rfl, List.append_cancel_left h⟩

/-- What a stem says about the name that it ends: read backwards, the name starts with a character that
belongs neither to a version nor to the extension, and it goes on to the first hyphen. -/
theorem exists_of_isStem {stem : Text} (h : isStem stem = true) :
    (∀ c ∈ stem.reverse, (c != '-') = true) ∧
      ∃ last front, stem.reverse = last :: front ∧ isVersionChar last = false ∧ last ≠ 'e' := by
  simp only [isStem, Bool.and_eq_true] at h
  obtain ⟨hhyphen, hlast⟩ := h
  constructor
  · intro c hc
    have hmem : c ∈ stem := List.mem_reverse.1 hc
    rw [bne_iff_ne]
    rintro rfl
    simp [hmem] at hhyphen
  · cases hreverse : stem.reverse with
    | nil => simp [List.reverse_eq_nil_iff.1 hreverse] at hlast
    | cons last front =>
      rw [← List.head?_reverse, hreverse] at hlast
      refine ⟨last, front, rfl, ?_⟩
      simpa using hlast

/-- Read backwards, a version starts with a digit and holds only characters of versions. -/
theorem exists_of_isVersion {version : Text} (h : IsVersion version) :
    (∀ c ∈ version.reverse, isVersionChar c = true) ∧
      ∃ digit front, version.reverse = digit :: front ∧ Text.isDigit digit = true := by
  obtain ⟨hchars, front, digit, rfl, hdigit⟩ := h
  refine ⟨fun c hc => hchars c (List.mem_reverse.1 hc), digit, front.reverse, by simp, hdigit⟩

/-- In front of the extension, a name does not end with the last letter of the extension. -/
theorem head_ne_of_stem_version {machine stem version : Text} {strategy : Strategy}
    (hstem : isStem stem = true)
    (hversion : if strategy.usesVersion then IsVersion version else version = []) (rest : Text) :
    version.reverse ++ (stem.reverse ++ machine.reverse) ≠ 'e' :: rest := by
  intro h
  split at hversion
  · obtain ⟨-, digit, front, hreverse, hdigit⟩ := exists_of_isVersion hversion
    rw [hreverse] at h
    cases h
    exact absurd hdigit (by decide)
  · obtain ⟨-, last, front, hreverse, -, hlast⟩ := exists_of_isStem hstem
    rw [hversion, hreverse] at h
    cases h
    exact hlast rfl

/-- A version is there or not, as the convention says, so it tells whether the convention has one. -/
theorem usesVersion_of_version_eq {version : Text} {strategy strategy' : Strategy}
    (h : if strategy.usesVersion then IsVersion version else version = [])
    (h' : if strategy'.usesVersion then IsVersion version else version = []) :
    strategy.usesVersion = strategy'.usesVersion := by
  have hempty : ¬ IsVersion [] := by
    rintro ⟨-, front, digit, hnil, -⟩
    simp at hnil
  cases huses : strategy.usesVersion <;> cases huses' : strategy'.usesVersion
  · rfl
  · rw [huses, if_neg Bool.false_ne_true] at h
    rw [huses', if_pos rfl, h] at h'
    exact absurd h' hempty
  · rw [huses', if_neg Bool.false_ne_true] at h'
    rw [huses, if_pos rfl, h'] at h
    exact absurd h hempty
  · rfl

theorem Strategy.eq_of_uses {strategy strategy' : Strategy}
    (hversion : strategy.usesVersion = strategy'.usesVersion)
    (hextension : strategy.usesExtension = strategy'.usesExtension) : strategy = strategy' := by
  cases strategy <;> cases strategy' <;> simp_all [usesVersion, usesExtension]

/-- **A name can be taken apart in one way only.** -/
theorem NamedBy.unique {family family' : Bool} {stem stem' name : Text} {strategy strategy' : Strategy}
    (h : NamedBy family stem strategy name) (h' : NamedBy family' stem' strategy' name)
    (hstem : isStem stem = true) (hstem' : isStem stem' = true) :
    family = family' ∧ stem = stem' ∧ strategy = strategy' := by
  obtain ⟨machine, version, hname, hmachine, hversion⟩ := h
  obtain ⟨machine', version', hname', hmachine', hversion'⟩ := h'
  have hreverse : (extensionOf strategy).reverse ++ (version.reverse ++ (stem.reverse ++ machine.reverse)) =
      (extensionOf strategy').reverse ++ (version'.reverse ++ (stem'.reverse ++ machine'.reverse)) := by
    have hboth := congrArg List.reverse (hname.symm.trans hname')
    simpa using hboth
  -- first the extension, ...
  have hextension : strategy.usesExtension = strategy'.usesExtension := by
    cases huses : strategy.usesExtension <;> cases huses' : strategy'.usesExtension
    · rfl
    · simp only [extensionOf, huses, huses'] at hreverse
      exact absurd hreverse (head_ne_of_stem_version hstem hversion _)
    · simp only [extensionOf, huses, huses'] at hreverse
      exact absurd hreverse.symm (head_ne_of_stem_version hstem' hversion' _)
    · rfl
  have hbody : version.reverse ++ (stem.reverse ++ machine.reverse) =
      version'.reverse ++ (stem'.reverse ++ machine'.reverse) := by
    rw [extensionOf, extensionOf, hextension] at hreverse
    exact List.append_cancel_left hreverse
  -- ... then the version, ...
  have hchars : ∀ {version : Text} {strategy : Strategy},
      (if strategy.usesVersion then IsVersion version else version = []) →
        ∀ c ∈ version.reverse, isVersionChar c = true := by
    intro version strategy h
    split at h
    · exact (exists_of_isVersion h).1
    · simp [h]
  obtain ⟨hletters, last, front, hlast, hlastChar, -⟩ := exists_of_isStem hstem
  obtain ⟨hletters', last', front', hlast', hlastChar', -⟩ := exists_of_isStem hstem'
  obtain ⟨hsameVersion, hfront⟩ := cut_unique (hchars hversion) (hchars hversion')
    (by simp [hlast, hlastChar]) (by simp [hlast', hlastChar']) hbody
  -- ... and the stem, which ends in front of a hyphen
  have hhyphen : ∀ {family : Bool} {machine : Text},
      (if family then ∃ front, machine = front ++ ['-'] else machine = []) →
        ∀ c ∈ machine.reverse.head?, (c != '-') = false := by
    intro family machine h
    split at h
    · obtain ⟨front, rfl⟩ := h
      simp
    · simp [h]
  obtain ⟨hsameStem, hsameMachine⟩ := cut_unique hletters hletters' (hhyphen hmachine)
    (hhyphen hmachine') hfront
  rw [List.reverse_inj] at hsameVersion hsameStem hsameMachine
  subst hsameVersion hsameStem hsameMachine
  refine ⟨?_, rfl, Strategy.eq_of_uses (usesVersion_of_version_eq hversion hversion') hextension⟩
  cases family <;> cases family'
  · rfl
  · obtain ⟨front, hfront⟩ : ∃ front, machine = front ++ ['-'] := by simpa using hmachine'
    simp [hfront] at hmachine
  · obtain ⟨front, hfront⟩ : ∃ front, machine = front ++ ['-'] := by simpa using hmachine
    simp [hfront] at hmachine'
  · rfl

/-! ## The patterns of the known tools -/

namespace Pattern

/-- Given characters in a row, and a pattern behind them. -/
def literal (text : Text) (rest : Pattern) : Pattern :=
  text.foldr (fun c rest => .seq (.char c) rest) rest

/-- Decimal digits, one or more. -/
def digits : Pattern :=
  .iterate .greedy 1 none (.set false [.ofClass false .digit])

/-- Versions that look as usual. -/
def usualVersion : Pattern :=
  .seq (.iterate .greedy 0 (some 1) (.char '-'))
    (.seq digits
      (.seq (.iterate .greedy 0 none (.group (some 1) (.seq (.char '.') (.seq digits .empty)))) .empty))

/-- What a convention asks for behind a stem. -/
def ending (strategy : Strategy) : Pattern :=
  let extension := literal (extensionOf strategy) .empty
  if strategy.usesVersion then .seq (.group none usualVersion) extension else extension

/-- The names with a stem under a convention. -/
def named (family : Bool) (stem : Text) (strategy : Strategy) : Pattern :=
  if family then .seq (.iterate .greedy 1 none .anyChar) (literal ('-' :: stem) (ending strategy))
  else literal stem (ending strategy)

variable {text name : Text} {rest : Pattern}

theorem sameChar_of_not_ignoreCase {mode : Mode} (h : mode.ignoreCase = false) (c d : Char) :
    sameChar mode c d = (c == d) := by
  rw [sameChar, h, if_neg Bool.false_ne_true]

/-- A literal text stands in front of what a pattern takes, where the case of letters counts. -/
theorem spells_literal_iff {mode : Mode} (hcase : mode.ignoreCase = false) :
    Spells mode (literal text rest) name ↔ ∃ back, name = text ++ back ∧ Spells mode rest back := by
  induction text generalizing name with
  | nil => exact ⟨fun h => ⟨name, rfl, h⟩, fun ⟨_, hname, hback⟩ => hname ▸ hback⟩
  | cons c text ih =>
    constructor
    · rintro ⟨_, _, rfl, ⟨d, rfl, hsame⟩, hrest⟩
      obtain ⟨back, rfl, hback⟩ := ih.1 hrest
      rw [sameChar_of_not_ignoreCase hcase, beq_iff_eq] at hsame
      exact ⟨back, by rw [hsame]; rfl, hback⟩
    · rintro ⟨back, rfl, hback⟩
      refine ⟨[c], text ++ back, rfl, ⟨c, rfl, ?_⟩, ih.2 ⟨back, rfl, hback⟩⟩
      rw [sameChar_of_not_ignoreCase hcase, beq_self_eq_true]

theorem spells_literal_empty_iff {mode : Mode} (hcase : mode.ignoreCase = false) :
    Spells mode (literal text .empty) name ↔ name = text := by
  rw [spells_literal_iff hcase]
  constructor
  · rintro ⟨back, rfl, rfl⟩
    exact List.append_nil text
  · rintro rfl
    exact ⟨[], (List.append_nil name).symm, rfl⟩

theorem spells_digits_iff {text : Text} :
    Spells .plain digits text ↔ text ≠ [] ∧ ∀ c ∈ text, Text.isDigit c = true := by
  have hrow : Spells .plain digits text ↔ _ := row_char_iff
  have hne : 1 ≤ text.length ↔ text ≠ [] := List.length_pos_iff
  rw [hrow]
  simp [hne, SetMember.holds, inClass]

/-- A run of texts that end with a digit ends with a digit, if there is any. -/
theorem isVersion_flatten {parts : List Text} (hparts : ∀ part ∈ parts, IsVersion part)
    (h : parts ≠ []) : IsVersion parts.flatten := by
  constructor
  · intro c hc
    obtain ⟨part, hpart, hmem⟩ := List.mem_flatten.1 hc
    exact (hparts part hpart).1 c hmem
  · rcases List.eq_nil_or_concat parts with rfl | ⟨front, last, rfl⟩
    · exact absurd rfl h
    · obtain ⟨-, start, digit, hlast, hdigit⟩ := hparts last (by simp)
      exact ⟨front.flatten ++ start, digit, by simp [hlast], hdigit⟩

/-- Characters of versions in front of a version make no difference. -/
theorem isVersion_append {front version : Text} (hfront : ∀ c ∈ front, isVersionChar c = true)
    (h : IsVersion version) : IsVersion (front ++ version) := by
  obtain ⟨hchars, start, digit, rfl, hdigit⟩ := h
  refine ⟨?_, front ++ start, digit, (List.append_assoc ..).symm, hdigit⟩
  intro c hc
  rcases List.mem_append.1 hc with hc | hc
  · exact hfront c hc
  · exact hchars c hc

theorem isVersion_of_spells_digits {text : Text} (h : Spells .plain digits text) : IsVersion text := by
  obtain ⟨hne, hdigits⟩ := spells_digits_iff.1 h
  constructor
  · intro c hc
    simp [isVersionChar, hdigits c hc]
  · obtain ⟨front, digit, rfl⟩ := (List.eq_nil_or_concat' text).resolve_left hne
    exact ⟨front, digit, rfl, hdigits digit (by simp)⟩

theorem isVersion_of_spells {text : Text} (h : Spells .plain usualVersion text) : IsVersion text := by
  obtain ⟨hyphen, _, rfl, hhyphen, whole, _, rfl, hwhole, more, _, rfl, ⟨parts, rfl, hparts, -⟩, rfl⟩ := h
  refine isVersion_append ?_ ?_
  · rcases row_optional_iff.1 hhyphen with rfl | ⟨d, rfl, hsame⟩
    · exact nofun
    · obtain rfl : '-' = d := by simpa using hsame
      exact List.forall_mem_singleton.2 rfl
  · rw [List.append_nil]
    have hnumber := isVersion_of_spells_digits hwhole
    by_cases hnone : parts = []
    · rw [hnone]
      simpa using hnumber
    · refine isVersion_append hnumber.1 (isVersion_flatten ?_ hnone)
      intro part hpart
      obtain ⟨point, _, rfl, ⟨d, rfl, hsame⟩, number, _, rfl, hnumber', rfl⟩ := hparts part hpart
      have hd : '.' = d := by simpa using hsame
      rw [List.append_nil]
      refine isVersion_append ?_ (isVersion_of_spells_digits hnumber')
      rw [← hd]
      simp [isVersionChar]

theorem exists_of_spells_ending {strategy : Strategy} {text : Text}
    (h : Spells .plain (ending strategy) text) :
    ∃ version, text = version ++ extensionOf strategy ∧
      if strategy.usesVersion then IsVersion version else version = [] := by
  unfold ending at h
  cases huses : strategy.usesVersion
  · rw [huses, if_neg Bool.false_ne_true] at h
    obtain ⟨_, rfl, rfl⟩ := (spells_literal_iff rfl).1 h
    exact ⟨[], by simp, rfl⟩
  · rw [huses, if_pos rfl] at h
    obtain ⟨version, _, rfl, hversion, hrest⟩ := h
    obtain ⟨_, rfl, rfl⟩ := (spells_literal_iff rfl).1 hrest
    exact ⟨version, by simp, isVersion_of_spells hversion⟩

/-- The texts of such a pattern are names with that stem. -/
theorem namedBy_of_spells {family : Bool} {stem name : Text} {strategy : Strategy}
    (h : Spells .plain (named family stem strategy) name) : NamedBy family stem strategy name := by
  cases family with
  | false =>
    obtain ⟨_, rfl, hback⟩ := (spells_literal_iff rfl).1 h
    obtain ⟨version, rfl, hversion⟩ := exists_of_spells_ending hback
    exact ⟨[], version, by simp, by simp, hversion⟩
  | true =>
    obtain ⟨front, _, rfl, -, hrest⟩ := h
    obtain ⟨_, rfl, hback⟩ := (spells_literal_iff rfl).1 hrest
    obtain ⟨version, rfl, hversion⟩ := exists_of_spells_ending hback
    exact ⟨front ++ ['-'], version, by simp, by simp, hversion⟩

end Pattern

end BuildLog
