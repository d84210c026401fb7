import BuildLog.Proofs.RuleOrder
import BuildLog.Proofs.ValueSpellings

/-!
# Arguments in quotes

An argument that needs no quotes can still be written in quotes. An option with a value says the same
then, but an option without one is not seen any more.

* `Text.IsBare`: the arguments that need no quotes;
* `OptionForm.matchTokens?_enclosed`: a value is found in the quoted argument if it is found in the bare
  one;
* `OptionRule.isFlag`: the options without a value. `OptionRule.claim?_enclosed`: what a rule says about
  a quoted argument;
* `Toolchain.parse_enclosed_iff`: what is found in an argument, quoted or not.
-/

namespace BuildLog

/-- Whether a text is an argument as it stands, without any quotes. -/
structure Text.IsBare (text : Text) : Prop where
  ne_nil : text ≠ []
  no_blank : text.any isBlank = false
  no_quote : ∀ c ∈ text, Token.isQuote c = false

variable {rules : List OptionRule} {directory text name : Text} {names : List Text} {q : Char}
  {next : Option Token}

/-! ## Lines of one argument -/

namespace Text.IsBare

instance (text : Text) : Decidable text.IsBare :=
  decidable_of_iff (text ≠ [] ∧ text.any isBlank = false ∧ text.any Token.isQuote = false)
    ⟨fun h => ⟨h.1, h.2.1, by simpa using h.2.2⟩,
      fun h => ⟨h.ne_nil, h.no_blank, by simpa using h.no_quote⟩⟩

theorem not_blank (h : text.IsBare) : startsBlank text = false := by
  cases text with
  | nil => exact absurd rfl h.ne_nil
  | cons c text =>
    have hblank := h.no_blank
    rw [List.any_cons, Bool.or_eq_false_iff] at hblank
    exact hblank.1

theorem not_isQuote_head? (h : text.IsBare) : text.head?.any Token.isQuote = false := by
  cases text with
  | nil => rfl
  | cons c text => exact h.no_quote c (List.mem_cons_self ..)

/-- In quotes or not, such a text is one token. -/
theorem before_enclosed (h : text.IsBare) {quote : Option Char} (hstand : CanStand quote text) :
    (⟨enclosed quote text, text⟩ : Token).Before [] :=
  Token.before_enclosed h.no_quote hstand h.not_blank rfl

theorem values_enclosed (h : text.IsBare) {quote : Option Char} (hstand : CanStand quote text) :
    Token.values (enclosed quote text) = [text] := by
  have hvalues := (h.before_enclosed hstand).values_eq
  rwa [List.append_nil] at hvalues

end Text.IsBare

/-- What is said is the same if the option is written in another way, apart from its quotes. -/
theorem ParsedArguments.ofFindings_of_same_values {first second : Text}
    (h : Token.values first = Token.values second) (claim : Option Claim) :
    let found := fun written => ofFindings (claim.map fun claim => claim.sense.finding written).toList
    (found first).entries = (found second).entries ∧
      (found first).builtinArguments.map Token.values =
        (found second).builtinArguments.map Token.values := by
  refine ofFindings_of_same_tokenized ?_
  cases claim with
  | none => rfl
  | some claim => cases hsense : claim.sense <;> simp [hsense, Sense.finding, Finding.tokenized, h]

/-! ## Values -/

namespace OptionForm

variable {form : OptionForm}

/-- A name alone has no value that follows at once. -/
theorem firstMatch?_name (hseparate : form.separate = false)
    (h : ∀ other ∈ names, other <+: name → other = name) :
    form.firstMatch? true name names = .ok none := by
  induction names with
  | nil => rfl
  | cons first names ih =>
    have hnames := ih fun other hmem => h other (List.mem_cons_of_mem _ hmem)
    rw [firstMatch?]
    by_cases hfirst : first <+: name
    · have hsame : first = name := h first (List.mem_cons_self ..) hfirst
      have hstart : name.isPrefixOf? name = some [] := by simp
      have hafter : form.valueAfter? true name [] = .ok none := by
        simp [valueAfter?, Text.startsBlank, hseparate]
      rw [hsame, hstart]
      simp only [hafter]
      exact hnames
    · rw [isPrefixOf?_eq_none hfirst]
      exact hnames

/-- A value that follows at once is the same, with the quotes of the argument removed or without any. -/
theorem valueIn?_bare (form : OptionForm) (name : Text) {rest : Text}
    (hrest : Text.startsBlank rest = false) (next : Option Token) :
    form.valueIn? name ⟨rest, rest⟩ next =
      (({ form with separate := false } : OptionForm).valueAfter? true name rest).map
        (Option.map fun found => ⟨found.value, false⟩) := by
  have hne : rest.isEmpty = false := by
    cases rest with
    | nil => cases hrest
    | cons c rest => rfl
  unfold valueIn? valueAfter?
  simp only [hne, hrest, Bool.not_false, if_true]
  split
  · rfl
  · cases form.joined <;> rfl

/-- A value that is found in a bare argument is the one that is found in the unquoted text. -/
theorem join_firstIn?_bare (form : OptionForm) (hblank : text.any Text.isBlank = false)
    (h : ∀ first ∈ names, ∀ second ∈ names, first <+: second → first = second) :
    (form.firstIn? ⟨text, text⟩ none names).toOption.join =
      (({ form with separate := false } : OptionForm).firstMatch? true text names).toOption.join.map
        fun found => ⟨found.value, false⟩ := by
  induction names with
  | nil => rfl
  | cons name names ih =>
    have hnames := ih fun first hfirst second hsecond =>
      h first (List.mem_cons_of_mem _ hfirst) second (List.mem_cons_of_mem _ hsecond)
    rw [firstIn?, firstMatch?]
    by_cases hname : name <+: text
    · obtain ⟨rest, rfl⟩ := hname
      have hstart : name.isPrefixOf? (name ++ rest) = some rest := by simp
      simp only [hstart, List.drop_left]
      cases hrest : Text.startsBlank rest with
      | false =>
        rw [valueIn?_bare form name hrest]
        cases ({ form with separate := false } : OptionForm).valueAfter? true name rest with
        | error error => rfl
        | ok found =>
          cases found with
          | none => exact hnames
          | some found => rfl
      | true =>
        -- the argument is the name alone: its value would be the next token, and there is none
        have hnil : rest = [] := by
          cases rest with
          | nil => rfl
          | cons c rest =>
            have hc : Text.isBlank c = true := hrest
            simp [hc] at hblank
        subst hnil
        have hafter : ({ form with separate := false } : OptionForm).valueAfter? true name [] =
            .ok none := by
          simp [valueAfter?, Text.startsBlank]
        have hnone : ({ form with separate := false } : OptionForm).firstMatch? true (name ++ []) names =
            .ok none := by
          rw [List.append_nil]
          exact firstMatch?_name rfl fun other hother hstarts =>
            h other (List.mem_cons_of_mem _ hother) name (List.mem_cons_self ..) hstarts
        rw [hafter]
        cases hseparate : form.separate with
        | false =>
          have hin : form.valueIn? name ⟨[], []⟩ none = .ok none := by simp [valueIn?, hseparate]
          rw [hin]
          exact hnames
        | true =>
          have hin : form.valueIn? name ⟨[], []⟩ none = .error (.missingValue name) := by
            simp [valueIn?, hseparate]
          rw [hin, hnone]
          rfl
    · rw [isPrefixOf?_eq_none hname]
      exact hnames

/-- A value is found in an argument in quotes if it is found in the bare one. -/
theorem matchTokens?_enclosed (h : text.IsBare) (hq : Token.isQuote q = true)
    (hnames : ∀ first ∈ form.names, ∀ second ∈ form.names, first <+: second → first = second) :
    (form.matchTokens? ⟨Text.enclosed (some q) text, text⟩ none).toOption.join =
      (form.matchTokens? ⟨text, text⟩ none).toOption.join := by
  have hbare : ¬ text.head?.any Token.isQuote = true := by simp [h.not_isQuote_head?]
  rw [matchTokens?, matchTokens?, if_pos (by simp [Text.enclosed, hq]), if_neg hbare,
    join_firstIn?_bare form h.no_blank hnames]
  cases ({ form with separate := false } : OptionForm).firstMatch? true text form.names <;> rfl

end OptionForm

/-! ## Options without a value -/

namespace OptionRule

variable {rule : OptionRule} {token : Token}

/-- Whether no name of an option with a value starts with another one. -/
def hasApartNames : OptionRule → Bool
  | valued form _ => decide (∀ first ∈ form.names, ∀ second ∈ form.names,
      first <+: second → first = second)
  | _ => true

/-- Whether a text is an option of a rule that takes no values. -/
def isFlag (text : Text) : OptionRule → Bool
  | valued _ _ => false
  | flag flags => flags.contains text
  | machine => (machineOptionWidth? text).isSome

theorem claim?_of_isFlag (h : rule.isFlag token.raw = true) (directory : Text)
    (next : Option Token) : rule.claim? directory token next = some ⟨.verbatim, false⟩ := by
  cases rule with
  | valued form meaning => cases h
  | flag flags => exact if_pos h
  | machine =>
    obtain ⟨width, hwidth⟩ := Option.isSome_iff_exists.1 h
    rw [claim?, hwidth]
    rfl

/-- About an argument in quotes, a rule says what it says about the bare one, unless that is an option
without a value. -/
theorem claim?_enclosed (hplain : rule.hasPlainNames = true) (hapart : rule.hasApartNames = true)
    (h : text.IsBare) (hq : Token.isQuote q = true) (directory : Text) :
    rule.claim? directory ⟨Text.enclosed (some q) text, text⟩ none =
      if rule.isFlag text then none else rule.claim? directory ⟨text, text⟩ none := by
  cases rule with
  | valued form meaning =>
    have hmatch := OptionForm.matchTokens?_enclosed h hq (of_decide_eq_true hapart)
    simp only [isFlag, claim?, hmatch, Bool.false_eq_true, if_false]
  | flag flags =>
    have hquoted : flags.contains (Text.enclosed (some q) text) = false := by
      rw [Bool.eq_false_iff]
      intro hmem
      have hname := List.all_eq_true.1 hplain _ (List.contains_iff_mem.1 hmem)
      obtain ⟨c, rest, hraw, -, hquote⟩ := exists_cons_of_isPlainName hname
      obtain ⟨rfl, -⟩ := List.cons.inj hraw
      rw [hq] at hquote
      cases hquote
    simp only [isFlag, claim?, hquoted, Bool.false_eq_true, if_false]
    split <;> rfl
  | machine =>
    have hquoted : machineOptionWidth? (Text.enclosed (some q) text) = none := by
      rw [Option.eq_none_iff_forall_ne_some]
      intro width hwidth
      obtain ⟨run, tail, hraw, -⟩ := machineOptionWidth?_eq_some_iff.1 hwidth
      obtain ⟨rfl, -⟩ := List.cons.inj hraw
      exact absurd hq (by decide)
    rw [claim?, hquoted, Option.map_none]
    split
    · rfl
    · rename_i hflag
      have hbare : machineOptionWidth? text = none := Option.not_isSome_iff_eq_none.1 hflag
      rw [claim?, hbare, Option.map_none]

end OptionRule

/-! ## What is found in quotes -/

/-- Rules that read options apart: each option belongs to one rule, and to one of its names. -/
structure ReadApart (rules : List OptionRule) : Prop where
  open_apart : OpenApart rules
  plain : ∀ rule ∈ rules, rule.hasPlainNames = true
  names_apart : ∀ rule ∈ rules, rule.hasApartNames = true

namespace ReadApart

theorem claimOf_of_isFlag (hrules : ReadApart rules) {rule : OptionRule} (hmem : rule ∈ rules)
    (hflag : rule.isFlag text = true) :
    claimOf rules directory ⟨text, text⟩ none = some ⟨.verbatim, false⟩ :=
  (hrules.open_apart.claimOf_eq_some_iff hrules.plain).2
    ⟨rule, hmem, OptionRule.claim?_of_isFlag hflag directory none⟩

/-- An option without a value is not seen in quotes. -/
theorem claimOf_enclosed_of_isFlag (hrules : ReadApart rules) (h : text.IsBare)
    (hq : Token.isQuote q = true) {rule : OptionRule} (hmem : rule ∈ rules)
    (hflag : rule.isFlag text = true) :
    claimOf rules directory ⟨Text.enclosed (some q) text, text⟩ none = none := by
  refine List.findSome?_eq_none_iff.2 fun other hother => ?_
  rw [OptionRule.claim?_enclosed (hrules.plain other hother) (hrules.names_apart other hother) h hq]
  split
  · rfl
  · rename_i hvalue
    cases hclaim : other.claim? directory ⟨text, text⟩ none with
    | none => rfl
    | some claim =>
      have hspoken : rule.claim? directory ⟨text, text⟩ none = some ⟨.verbatim, false⟩ :=
        OptionRule.claim?_of_isFlag hflag directory none
      have hsame : other = rule := hrules.open_apart.eq_of_mem hrules.plain hother hmem
        (by rw [hclaim]; rfl) (by rw [hspoken]; rfl)
      rw [hsame] at hvalue
      exact absurd hflag hvalue

/-- All other arguments say the same in quotes. -/
theorem claimOf_enclosed (hrules : ReadApart rules) (h : text.IsBare) (hq : Token.isQuote q = true)
    (hflag : ∀ rule ∈ rules, rule.isFlag text = false) :
    claimOf rules directory ⟨Text.enclosed (some q) text, text⟩ none =
      claimOf rules directory ⟨text, text⟩ none := by
  refine Option.ext fun claim => ?_
  rw [hrules.open_apart.claimOf_eq_some_iff hrules.plain,
    hrules.open_apart.claimOf_eq_some_iff hrules.plain]
  refine exists_congr fun rule => and_congr_right fun hmem => ?_
  rw [OptionRule.claim?_enclosed (hrules.plain rule hmem) (hrules.names_apart rule hmem) h hq,
    hflag rule hmem]
  rfl

end ReadApart

theorem readApart_of_mem (hrules : rules ∈ [gnuRules, cudaRules, visualRules]) : ReadApart rules := by
  have hnames : ∀ rules ∈ [gnuRules, cudaRules, visualRules],
      ∀ rule ∈ rules, rule.hasApartNames = true := by decide +kernel
  obtain ⟨hopen, hplain⟩ := openApart_of_mem hrules
  exact ⟨hopen, hplain, hnames rules hrules⟩

namespace Toolchain

/-- **Quotes around an argument** that needs none change no entries, and they change the arguments that
are kept if, and only if, the argument is an option without a value. It is kept as it is then, and in
quotes it is skipped. -/
theorem parse_enclosed_iff (language : String) (kind : BuiltinsKind) (rules : List OptionRule)
    (hrules : rules ∈ [gnuRules, cudaRules, visualRules]) (directory text : Text) (h : text.IsBare)
    (q : Char) (hq : Token.isQuote q = true) :
    let parse := (ofRules language kind rules).parse directory
    let quoted := q :: (text ++ [q])
    (parse quoted).entries = (parse text).entries ∧
    ((parse quoted).builtinArguments.map Token.values =
        (parse text).builtinArguments.map Token.values ↔
      ∀ rule ∈ rules, rule.isFlag text = false) ∧
    ∀ rule ∈ rules, rule.isFlag text = true → parse text = ⟨[], [text]⟩ ∧ parse quoted = .none := by
  intro parse quoted
  have hapart := readApart_of_mem hrules
  have hinQuotes : Text.CanStand (some q) text := hq
  have hasIs : Text.CanStand none text := h.no_blank
  have hquoted : parse quoted = .ofFindings
      ((claimOf rules directory ⟨quoted, text⟩ none).map fun claim =>
        claim.sense.finding quoted).toList :=
    parse_raw language kind hapart.plain directory (h.before_enclosed hinQuotes)
  have htext : parse text = .ofFindings
      ((claimOf rules directory ⟨text, text⟩ none).map fun claim =>
        claim.sense.finding text).toList :=
    parse_raw language kind hapart.plain directory (h.before_enclosed hasIs)
  have hlost : ∀ rule ∈ rules, rule.isFlag text = true →
      parse text = ⟨[], [text]⟩ ∧ parse quoted = .none := by
    intro rule hmem hflag
    have hnone : claimOf rules directory ⟨quoted, text⟩ none = none :=
      hapart.claimOf_enclosed_of_isFlag h hq hmem hflag
    rw [htext, hapart.claimOf_of_isFlag hmem hflag, hquoted, hnone]
    exact ⟨rfl, rfl⟩
  by_cases hflag : ∀ rule ∈ rules, rule.isFlag text = false
  · have hclaim : claimOf rules directory ⟨quoted, text⟩ none =
        claimOf rules directory ⟨text, text⟩ none := hapart.claimOf_enclosed h hq hflag
    have hvalues : Token.values quoted = Token.values text := by
      have hinside : Token.values quoted = [text] := h.values_enclosed hinQuotes
      have hbare : Token.values text = [text] := h.values_enclosed hasIs
      rw [hinside, hbare]
    have hsame : (parse quoted).entries = (parse text).entries ∧
        (parse quoted).builtinArguments.map Token.values =
          (parse text).builtinArguments.map Token.values := by
      rw [hquoted, htext, hclaim]
      exact ParsedArguments.ofFindings_of_same_values hvalues _
    exact ⟨hsame.1, iff_of_true hsame.2 hflag, hlost⟩
  · obtain ⟨rule, hmem, hrule⟩ : ∃ rule ∈ rules, rule.isFlag text = true := by
      simpa using hflag
    obtain ⟨hkept, hskipped⟩ := hlost rule hmem hrule
    refine ⟨by rw [hkept, hskipped]; rfl, iff_of_false ?_ hflag, hlost⟩
    rw [hkept, hskipped]
    nofun

/-- An option with a value that holds a backslash and an equals sign, in single quotes. -/
theorem parse_enclosed_iff_sysroot :
    let text : Text := "--sysroot=C:\\x=".toList
    let quoted : Text := "'--sysroot=C:\\x='".toList
    gnuRules ∈ [gnuRules, cudaRules, visualRules] ∧ text.IsBare ∧ Token.isQuote '\'' = true ∧
    (∀ rule ∈ gnuRules, rule.isFlag text = false) ∧
    (gnuC.parse "/b".toList quoted).entries = (gnuC.parse "/b".toList text).entries ∧
    (gnuC.parse "/b".toList quoted).builtinArguments.map Token.values =
      (gnuC.parse "/b".toList text).builtinArguments.map Token.values := by
  intro text quoted
  have hrules : gnuRules ∈ [gnuRules, cudaRules, visualRules] := List.mem_cons_self ..
  have hbare : text.IsBare := by decide
  have hq : Token.isQuote '\'' = true := by decide
  have hflag : ∀ rule ∈ gnuRules, rule.isFlag text = false := by decide +kernel
  obtain ⟨hentries, harguments, -⟩ :=
    parse_enclosed_iff "c" .gcc gnuRules hrules "/b".toList text hbare '\'' hq
  exact ⟨hrules, hbare, hq, hflag, hentries, harguments.2 hflag⟩

/-- Options of the target machine and flags are not seen in quotes. -/
theorem flags_in_quotes_not_kept :
    let option : Text := "-m32".toList
    let flag : Text := "-nostdinc".toList
    (option.IsBare ∧
      (gnuC.parse "/b".toList "\"-m32\"".toList).builtinArguments.map Token.values ≠
        (gnuC.parse "/b".toList option).builtinArguments.map Token.values) ∧
    (flag.IsBare ∧
      (gnuC.parse "/b".toList "\"-nostdinc\"".toList).builtinArguments.map Token.values ≠
        (gnuC.parse "/b".toList flag).builtinArguments.map Token.values) := by
  intro option flag
  exact ⟨⟨by decide, by decide +kernel⟩, ⟨by decide, by decide +kernel⟩⟩

end Toolchain

end BuildLog
