import BuildLog.Proofs.RuleOrder
import BuildLog.Proofs.ValueSpellings

/-!
# Names of definitions

A definition is only found for something that can be a name, so the names of all definitions in a line
are proper ones, up to a line feed at the end.

* `IsProperName`: a name of the preprocessor, with a list of parameters or without.
  `isDefinableName_iff`: what can be defined is a proper name, with a line feed behind it or without;
* `OptionRule.isDefinableName_of_take?`: what a rule takes for a definition can be defined;
* `Toolchain.parseFrom_of_add`: what every taken finding keeps, holds of all that is found in a line;
* `Text.eachQuoted`: a way to write any text in a line. `Toolchain.definitions_undefineToken`: so every
  name that can be defined is found in some line;
* `Toolchain.names_of_definitions`: the names of the definitions in lines.
-/

namespace BuildLog

/-! ## Proper names -/

/-- Whether a text is a name without parameters. -/
def isBareName : Text → Bool
  | [] => false
  | c :: rest => isNameStart c && rest.all isNameChar

/-- A name, with a list of parameters or without, and nothing else. -/
inductive IsProperName : Text → Prop
  | bare {name : Text} : isBareName name = true → IsProperName name
  | withParameters {name parameters : Text} : isBareName name = true → ')' ∉ parameters →
    IsProperName (name ++ '(' :: (parameters ++ [')']))

variable {name : Text}

theorem isFinished_iff {text : Text} : isFinished text = true ↔ text = [] ∨ text = ['\n'] := by
  simp [isFinished]

/-- A list of parameters goes on to the first closing bracket, and nothing but a line feed may stand
behind it. -/
theorem isParameterList_iff {text : Text} :
    isParameterList text = true ↔ ∃ parameters ending, text = '(' :: (parameters ++ ')' :: ending) ∧
      ')' ∉ parameters ∧ isFinished ending = true := by
  constructor
  · intro h
    unfold isParameterList at h
    split at h
    · rename_i rest
      split at h
      · rename_i ending hdrop
        have hrest : rest.takeWhile (· != ')') ++ ')' :: ending = rest := by
          rw [← hdrop]
          exact List.takeWhile_append_dropWhile
        refine ⟨rest.takeWhile (· != ')'), ending, by rw [hrest], ?_, h⟩
        intro hmem
        have hne := List.all_eq_true.1 List.all_takeWhile _ hmem
        simp at hne
      · cases h
    · cases h
  · rintro ⟨parameters, ending, rfl, hparameters, hending⟩
    have hinside : ∀ c ∈ parameters, (c != ')') = true := by
      intro c hc
      simpa using ne_of_mem_of_not_mem hc hparameters
    have hdrop : (parameters ++ ')' :: ending).dropWhile (· != ')') = ')' :: ending :=
      Text.dropWhile_append_of_stop hinside (by simp)
    simp only [isParameterList, hdrop]
    exact hending

/-- Behind a name that can be defined stands nothing, a line feed or a list of parameters. -/
theorem isDefinableName_append {run tail : Text} (hrun : isBareName run = true)
    (hhead : ∀ c ∈ tail.head?, isNameChar c = false)
    (htail : (isFinished tail || isParameterList tail) = true) :
    isDefinableName (run ++ tail) = true := by
  cases run with
  | nil => cases hrun
  | cons c run =>
    simp only [isBareName, Bool.and_eq_true] at hrun
    rw [List.cons_append, isDefinableName, Text.dropWhile_append_of_stop (List.all_eq_true.1 hrun.2) hhead, hrun.1]
    exact htail

/-- What can be defined is a proper name, and a line feed may stand behind it. -/
theorem isDefinableName_iff :
    isDefinableName name = true ↔
      ∃ core ending, name = core ++ ending ∧ IsProperName core ∧ isFinished ending = true := by
  constructor
  · intro h
    cases name with
    | nil => cases h
    | cons c rest =>
      simp only [isDefinableName, Bool.and_eq_true, Bool.or_eq_true] at h
      obtain ⟨hstart, hend⟩ := h
      have hbare : isBareName (c :: rest.takeWhile isNameChar) = true := by
        rw [isBareName, hstart, List.all_takeWhile]
        rfl
      have hrest : rest.takeWhile isNameChar ++ rest.dropWhile isNameChar = rest :=
        List.takeWhile_append_dropWhile
      rcases hend with hfinished | hparameters
      · exact ⟨_, rest.dropWhile isNameChar, by rw [List.cons_append, hrest], .bare hbare, hfinished⟩
      · obtain ⟨parameters, ending, htail, hnot, hfinished⟩ := isParameterList_iff.1 hparameters
        rw [htail] at hrest
        refine ⟨_, ending, ?_, .withParameters hbare hnot, hfinished⟩
        calc c :: rest
            = c :: (rest.takeWhile isNameChar ++ '(' :: (parameters ++ ')' :: ending)) := by rw [hrest]
          _ = c :: rest.takeWhile isNameChar ++ '(' :: (parameters ++ [')']) ++ ending := by simp
  · rintro ⟨core, ending, rfl, hcore, hfinished⟩
    have hbracket : isNameChar '(' = false := by decide +kernel
    have hfeed : isNameChar '\n' = false := by decide +kernel
    cases hcore with
    | bare hbare =>
      refine isDefinableName_append hbare ?_ (by rw [hfinished, Bool.true_or])
      rcases isFinished_iff.1 hfinished with rfl | rfl
      · simp
      · simpa using hfeed
    | withParameters hbare hnot =>
      rename_i run parameters
      rw [List.append_assoc]
      refine isDefinableName_append hbare (by simpa using hbracket) ?_
      have hlist : isParameterList ('(' :: (parameters ++ ')' :: ending)) = true :=
        isParameterList_iff.2 ⟨parameters, ending, rfl, hnot, hfinished⟩
      simp [hlist]

/-- A proper name does not end in a line feed. -/
theorem IsProperName.getLast?_ne (h : IsProperName name) : name.getLast? ≠ some '\n' := by
  cases h with
  | bare hbare =>
    intro hlast
    have hmem : '\n' ∈ name := List.mem_of_getLast? hlast
    cases name with
    | nil => cases hmem
    | cons c rest =>
      simp only [isBareName, Bool.and_eq_true, List.all_eq_true] at hbare
      rcases List.mem_cons.1 hmem with rfl | hmem
      · exact absurd hbare.1 (by decide)
      · exact absurd (hbare.2 _ hmem) (by decide +kernel)
  | withParameters hbare hnot =>
    rename_i run parameters
    have hlast : (run ++ '(' :: (parameters ++ [')'])).getLast? = some ')' := by
      rw [← List.cons_append, ← List.append_assoc, List.getLast?_concat]
    rw [hlast]
    decide

/-! ## Definitions -/

theorem ValueMeaning.isDefinableName_of_named {fact entry : Entry}
    (h : named fact.name fact = .ok (.entry entry)) : isDefinableName entry.name = true := by
  rw [named] at h
  split at h
  · rename_i hdefinable
    cases h
    exact hdefinable
  · cases h

/-- A definition is only made, or taken back, for what can be defined. -/
theorem ValueMeaning.isDefinableName_of_finding {meaning : ValueMeaning} {directory value written : Text}
    {entry : Entry} (h : meaning.finding directory value written = .ok (.entry entry))
    (hdefinition : entry.isDefinition = true) : isDefinableName entry.name = true := by
  cases meaning with
  | includePath system =>
    cases h
    cases hdefinition
  | define separators =>
    let fact : Entry := .define (splitDefinition separators value).1 (splitDefinition separators value).2
    have hnamed : named fact.name fact = .ok (.entry entry) := h
    exact isDefinableName_of_named hnamed
  | undefine =>
    let fact : Entry := .undefine value
    have hnamed : named fact.name fact = .ok (.entry entry) := h
    exact isDefinableName_of_named hnamed
  | includeFile =>
    cases h
    cases hdefinition
  | definitionsFile =>
    cases h
    cases hdefinition
  | builtin => cases h

/-- What a rule takes for a definition can be defined. -/
theorem OptionRule.isDefinableName_of_take? {rule : OptionRule} {directory text : Text} {entry : Entry}
    {width : Nat} (h : (rule.take? directory text).toOption.join = some (.entry entry, width))
    (hdefinition : entry.isDefinition = true) : isDefinableName entry.name = true := by
  cases rule with
  | valued form meaning =>
    rw [take?_valued] at h
    simp only [Option.bind_eq_some_iff, Option.ite_none_left_eq_some, Option.map_eq_some_iff,
      Prod.mk.injEq] at h
    obtain ⟨found, -, -, finding, hfinding, rfl, -⟩ := h
    cases hresult : meaning.finding directory found.value (text.take found.width) with
    | error error =>
      rw [hresult] at hfinding
      cases hfinding
    | ok other =>
      rw [hresult] at hfinding
      cases hfinding
      exact ValueMeaning.isDefinableName_of_finding hresult hdefinition
  | flag flags =>
    simp only [take?, Except.toOption, Option.join_some] at h
    split at h <;> cases h
  | machine =>
    simp only [take?, Except.toOption, Option.join_some, Option.map_eq_some_iff] at h
    obtain ⟨width, -, hpair⟩ := h
    cases hpair

/-! ## All that is found -/

namespace Toolchain

variable {rules : List OptionRule} {directory : Text} {motive : ParsedArguments → Prop}

/-- What every taken finding keeps, one argument keeps. -/
theorem offer_of_add
    (hadd : ∀ rule ∈ rules, ∀ text finding width parsed,
      (rule.take? directory text).toOption.join = some (finding, width) → motive parsed →
        motive (parsed.add finding))
    (text : Text) {parsed : ParsedArguments} (h : motive parsed) :
    motive (offer directory text (rules.map (·.reader)) parsed).1 := by
  induction rules generalizing parsed with
  | nil => exact h
  | cons rule rules ih =>
    have hrules : ∀ {parsed}, motive parsed →
        motive (offer directory text (rules.map (·.reader)) parsed).1 :=
      ih fun rule hmem => hadd rule (List.mem_cons_of_mem _ hmem)
    rw [List.map_cons, offer_cons]
    cases htake : (rule.take? directory text).toOption.join with
    | none => exact hrules h
    | some taken =>
      have hone := hadd rule (List.mem_cons_self ..) text taken.1 taken.2 parsed htake h
      dsimp only
      split
      · exact hone
      · exact hrules hone

theorem step_of_add
    (hadd : ∀ rule ∈ rules, ∀ text finding width parsed,
      (rule.take? directory text).toOption.join = some (finding, width) → motive parsed →
        motive (parsed.add finding))
    (text : Text) {parsed : ParsedArguments} (h : motive parsed) :
    motive (step (rules.map (·.reader)) directory text parsed).1 := by
  have hoffer := offer_of_add hadd text h
  rw [step]
  split
  · rename_i hzero
    rwa [hzero] at hoffer
  · exact hoffer

/-- What every taken finding keeps, holds of all that is found in a line. -/
theorem parseFrom_of_add
    (hadd : ∀ rule ∈ rules, ∀ text finding width parsed,
      (rule.take? directory text).toOption.join = some (finding, width) → motive parsed →
        motive (parsed.add finding))
    (skip : Nat) (text : Text) {parsed : ParsedArguments} (h : motive parsed) :
    motive (parseFrom (rules.map (·.reader)) directory skip text parsed) := by
  fun_induction parseFrom (rules.map (·.reader)) directory skip text parsed with
  | case1 => exact h
  | case2 skip _ rest parsed ih => exact ih h
  | case3 c rest parsed hblank ih => exact ih h
  | case4 c rest parsed hblank taken ih => exact ih (step_of_add hadd (c :: rest) h)

/-- Every definition that is found has a name that can be defined. -/
theorem isDefinableName_of_mem_definitions (language : String) (kind : BuiltinsKind)
    (rules : List OptionRule) (directory text : Text) {entry : Entry}
    (hmem : entry ∈ ((ofRules language kind rules).parse directory text).definitions) :
    isDefinableName entry.name = true := by
  have hdefinable : ∀ entry ∈ ((ofRules language kind rules).parse directory text).entries,
      entry.isDefinition = true → isDefinableName entry.name = true := by
    refine parseFrom_of_add
      (motive := fun parsed => ∀ entry ∈ parsed.entries, entry.isDefinition = true →
        isDefinableName entry.name = true) ?_ 0 text nofun
    intro rule _ text finding width parsed htake hparsed entry hmem hdefinition
    cases finding with
    | builtin argument => exact hparsed entry hmem hdefinition
    | entry fact =>
      rcases List.mem_append.1 hmem with hmem | hmem
      · exact hparsed entry hmem hdefinition
      · cases List.mem_singleton.1 hmem
        exact OptionRule.isDefinableName_of_take? htake hdefinition
  obtain ⟨hentry, hdefinition⟩ := List.mem_filter.1 hmem
  exact hdefinable entry hentry hdefinition

end Toolchain

/-! ## Names in a line -/

/-- A quote that a character does not close. -/
def quoteFor (c : Char) : Char :=
  if c == '"' then '\'' else '"'

/-- A text with each of its characters in quotes. -/
def Text.eachQuoted (text : Text) : Text :=
  text.flatMap fun c => [quoteFor c, c, quoteFor c]

/-- Every text can be written so that it is the value of a token. -/
theorem Token.read_eachQuoted (text : Text) {rest : Text} (hrest : Text.startsBlank rest = true) :
    read (Text.eachQuoted text ++ rest) = ⟨Text.eachQuoted text, text⟩ := by
  induction text with
  | nil => exact read_of_startsBlank hrest
  | cons c text ih =>
    have hquote : isQuote (quoteFor c) = true := by
      rw [quoteFor]
      split <;> decide
    have hother : quoteFor c ∉ [c] := by
      rw [quoteFor, List.mem_singleton]
      split
      · rename_i hc
        rw [beq_iff_eq.1 hc]
        decide
      · rename_i hc
        rintro rfl
        exact hc rfl
    have hopen : read (quoteFor c :: ([c] ++ quoteFor c :: (Text.eachQuoted text ++ rest))) =
        silent (quoteFor c)
          (readWithin (some (quoteFor c)) ([c] ++ quoteFor c :: (Text.eachQuoted text ++ rest))) :=
      readWithin_quote hquote
    have hwritten : Text.eachQuoted (c :: text) ++ rest =
        quoteFor c :: ([c] ++ quoteFor c :: (Text.eachQuoted text ++ rest)) := by
      simp [Text.eachQuoted]
    rw [hwritten, hopen, readWithin_group hother, ih]
    simp [Text.eachQuoted, silent, behind]

/-- An option that takes a definition back, as a token. -/
def undefineToken (name : Text) : Token :=
  ⟨"-U".toList ++ Text.eachQuoted name, "-U".toList ++ name⟩

theorem before_undefineToken (name : Text) : (undefineToken name).Before [] := by
  have hplain : List.all "-U".toList Token.isPlainChar = true := by decide
  have hread := Token.read_append_of_plain hplain (Text.eachQuoted name ++ [])
  rw [Token.read_eachQuoted name rfl, ← List.append_assoc] at hread
  exact ⟨hread, (by decide : Text.isBlank '-' = false)⟩

/-- Each known family has a rule for it. -/
theorem OptionRule.exists_undefine {rules : List OptionRule}
    (hrules : rules ∈ [gnuRules, cudaRules, visualRules]) :
    ∃ names, short names .undefine ∈ rules ∧ (names = ["-U"] ∨ names = ["/U", "-U"]) := by
  simp only [List.mem_cons, List.not_mem_nil, or_false] at hrules
  rcases hrules with rfl | rfl | rfl
  · exact ⟨["-U"], by decide, .inl rfl⟩
  · exact ⟨["-U"], by decide, .inl rfl⟩
  · exact ⟨["/U", "-U"], by decide, .inr rfl⟩

variable {rules : List OptionRule}

/-- It takes every name back that can be defined. -/
theorem claimOf_undefineToken (hrules : rules ∈ [gnuRules, cudaRules, visualRules]) (directory : Text)
    (hname : isDefinableName name = true) :
    claimOf rules directory (undefineToken name) none = some ⟨.entry (.undefine name), false⟩ := by
  obtain ⟨hapart, hplain⟩ := openApart_of_mem hrules
  obtain ⟨names, hmem, hnames⟩ := OptionRule.exists_undefine hrules
  have hne : name ≠ [] := by
    rintro rfl
    cases hname
  have hquoted : Text.eachQuoted name ≠ [] := by
    cases name with
    | nil => exact absurd rfl hne
    | cons c name => simp [Text.eachQuoted]
  have hsense : ValueMeaning.undefine.sense? directory name = some (.entry (.undefine name)) := by
    simp [ValueMeaning.sense?, ValueMeaning.finding, ValueMeaning.named, hname]
  let form : OptionForm := { names := names.map (·.toList) }
  have hvalue : form.valueIn? "-U".toList ⟨Text.eachQuoted name, name⟩ none =
      .ok (some ⟨name, false⟩) := by
    simp [form, OptionForm.valueIn?, hquoted]
  have hmatch : form.matchTokens? (undefineToken name) none = .ok (some ⟨name, false⟩) := by
    refine OptionForm.matchTokens?_of_mem ?_ (by decide) ?_ hvalue
    · rcases hnames with rfl | rfl <;> decide
    · rcases hnames with rfl | rfl <;> simp [form, List.cons_prefix_cons]
  exact (hapart.claimOf_eq_some_iff hplain).2
    ⟨_, hmem, OptionRule.claim?_of_matchTokens? hmatch hne hsense⟩

namespace Toolchain

/-- Every name that can be defined is the name of a definition in some line. -/
theorem definitions_undefineToken (language : String) (kind : BuiltinsKind)
    (hrules : rules ∈ [gnuRules, cudaRules, visualRules]) (directory : Text)
    (hname : isDefinableName name = true) :
    ((ofRules language kind rules).parse directory (undefineToken name).raw).definitions =
      [.undefine name] := by
  obtain ⟨-, hplain⟩ := openApart_of_mem hrules
  rw [parse_raw language kind hplain directory (before_undefineToken name),
    claimOf_undefineToken hrules directory hname]
  rfl

/-- **The names of definitions are proper names**, up to one line feed at the end: without it they are
proper, and with it, what stands in front of it is. All such names occur. -/
theorem names_of_definitions (language : String) (kind : BuiltinsKind) (rules : List OptionRule)
    (hrules : rules ∈ [gnuRules, cudaRules, visualRules]) (directory : Text) :
    let definitions := fun text => ((ofRules language kind rules).parse directory text).definitions
    (∀ text, ∀ entry ∈ definitions text,
      (IsProperName entry.name ↔ entry.name.getLast? ≠ some '\n') ∧
      ∃ core, IsProperName core ∧ (entry.name = core ∨ entry.name = core ++ ['\n'])) ∧
    ∀ core, IsProperName core → ∀ ending ∈ [[], ['\n']],
      ∃ text, definitions text = [.undefine (core ++ ending)] := by
  intro definitions
  constructor
  · intro text entry hmem
    obtain ⟨core, ending, hname, hcore, hfinished⟩ :=
      isDefinableName_iff.1 (isDefinableName_of_mem_definitions language kind rules directory text hmem)
    rcases isFinished_iff.1 hfinished with rfl | rfl
    · rw [List.append_nil] at hname
      refine ⟨?_, core, hcore, .inl hname⟩
      rw [hname]
      exact iff_of_true hcore hcore.getLast?_ne
    · refine ⟨?_, core, hcore, .inr hname⟩
      have hlast : entry.name.getLast? = some '\n' := by simp [hname]
      exact iff_of_false (fun hproper => hproper.getLast?_ne hlast) (not_not_intro hlast)
  · intro core hcore ending hending
    have hfinished : isFinished ending = true := isFinished_iff.2 (by simpa using hending)
    exact ⟨(undefineToken (core ++ ending)).raw, definitions_undefineToken language kind hrules directory
      (isDefinableName_iff.2 ⟨core, ending, rfl, hcore, hfinished⟩)⟩

/-- Among the names are one with parameters, one with letters of another script, and one with a line feed
at its end. -/
theorem names_of_definitions_mixed :
    let text := "-D'F(a b)=x' \"-Uµ_1\" -D\"_A\n=1\" -D_µ -U\"$\n\" -D\"B\n\n\"".toList
    let definitions := (gnuC.parse "/b".toList text).definitions
    let entry := Entry.define "_A\n".toList ['1']
    let core := "F('\")".toList
    gnuRules ∈ [gnuRules, cudaRules, visualRules] ∧
    definitions = [.define "F(a b)".toList ['x'], entry, .define "_µ".toList ['1'],
      .undefine "$\n".toList] ∧
    entry ∈ definitions ∧
    ((IsProperName entry.name ↔ entry.name.getLast? ≠ some '\n') ∧
      ∃ core, IsProperName core ∧ (entry.name = core ∨ entry.name = core ++ ['\n'])) ∧
    IsProperName core ∧ ['\n'] ∈ [[], ['\n']] ∧
    ∃ text, (gnuC.parse "/b".toList text).definitions = [.undefine (core ++ ['\n'])] := by
  intro text definitions entry core
  have hrules : gnuRules ∈ [gnuRules, cudaRules, visualRules] := List.mem_cons_self ..
  have hdefinitions : definitions = [.define "F(a b)".toList ['x'], entry,
      .define "_µ".toList ['1'], .undefine "$\n".toList] := by decide +kernel
  have hmem : entry ∈ definitions := by
    rw [hdefinitions]
    simp
  have hcore : IsProperName (['F'] ++ '(' :: (['\'', '"'] ++ [')'])) :=
    .withParameters (by decide) (by decide)
  have hending : ['\n'] ∈ [[], ['\n']] := by decide
  obtain ⟨hnames, hoccur⟩ := names_of_definitions "c" .gcc gnuRules hrules "/b".toList
  exact ⟨hrules, hdefinitions, hmem, hnames text entry hmem, hcore, hending,
    hoccur core hcore ['\n'] hending⟩

/-- A line feed in front of the equals sign becomes part of the name, which is no proper one then. -/
theorem exists_definition_not_isProperName :
    ∃ entry ∈ (gnuC.parse "/b".toList "-D\"A\n=1\"".toList).definitions,
      ¬ IsProperName entry.name := by
  have hparse : gnuC.parse "/b".toList "-D\"A\n=1\"".toList =
      ⟨[.define "A\n".toList ['1']], []⟩ := by decide +kernel
  refine ⟨.define "A\n".toList ['1'], ?_, ?_⟩
  · rw [hparse]
    exact List.mem_singleton_self _
  · intro h
    exact h.getLast?_ne rfl

end Toolchain

end BuildLog
