import BuildLog.Proofs.ArgumentRun

/-!
# The order of rules

The rules of a family are tried in order, but no text is an option of two of them. So the order is of no
account, and it may be chosen for speed.

* `OptionRule.openings`: the texts that the options of a rule start with, and `Token.heading`, the part
  of a token that has to start so. `OptionRule.exists_opening_of_claim?`: it does, if a rule speaks;
* `OpenApart`: rules for which no opening of one starts with an opening of another.
  `OpenApart.eq_of_claims`: at most one of them speaks about a token;
* `claimOf_eq_some_iff`: what such rules say is what any of them says;
* `Toolchain.order_irrelevant`: the rules of the known families are of this kind, and every order of
  them finds the same.
-/

namespace BuildLog

variable {rules others : List OptionRule} {directory text : Text} {token : Token}
  {next : Option Token}

/-! ## Where options start -/

/-- The part of a token in which an option is looked for: its value if it starts with a quote, and what
is written otherwise. -/
def Token.heading (token : Token) : Text :=
  if token.raw.head?.any isQuote then token.value else token.raw

namespace OptionForm

variable {form : OptionForm} {names : List Text} {found : OptionMatch}

/-- A value that is found in a text stands behind one of the names. -/
theorem exists_of_firstMatch?_eq_some {unquoted : Bool}
    (h : form.firstMatch? unquoted text names = .ok (some found)) :
    ∃ name ∈ names, ∃ rest, name ++ rest = text ∧
      form.valueAfter? unquoted name rest = .ok (some found) := by
  induction names with
  | nil => cases h
  | cons name names ih =>
    rw [firstMatch?] at h
    split at h
    · obtain ⟨other, hmem, hother⟩ := ih h
      exact ⟨other, List.mem_cons_of_mem _ hmem, hother⟩
    · rename_i rest hstart
      split at h
      · obtain ⟨other, hmem, hother⟩ := ih h
        exact ⟨other, List.mem_cons_of_mem _ hmem, hother⟩
      · exact ⟨name, List.mem_cons_self .., rest, by simpa using hstart, h⟩

/-- An option with a value starts with one of its names. -/
theorem exists_name_of_matchTokens? {found : TokenMatch}
    (h : form.matchTokens? token next = .ok (some found)) :
    ∃ name ∈ form.names, name <+: token.heading := by
  rw [matchTokens?] at h
  by_cases hquote : token.raw.head?.any Token.isQuote = true
  · rw [if_pos hquote] at h
    rw [Token.heading, if_pos hquote]
    cases hmatch : ({ form with separate := false } : OptionForm).firstMatch? true token.value
      form.names with
    | error error =>
      rw [hmatch] at h
      cases h
    | ok result =>
      rw [hmatch] at h
      cases result with
      | none => cases h
      | some value =>
        obtain ⟨name, hmem, rest, htext, -⟩ := exists_of_firstMatch?_eq_some hmatch
        exact ⟨name, hmem, rest, htext⟩
  · rw [if_neg hquote] at h
    rw [Token.heading, if_neg hquote]
    obtain ⟨name, hmem, rest, htext, -⟩ := exists_of_firstIn?_eq_some h
    exact ⟨name, hmem, rest, htext⟩

end OptionForm

namespace OptionRule

/-- The texts that the options of a rule start with. -/
def openings : OptionRule → List Text
  | machine => ["-m".toList]
  | rule => rule.names

/-- A token of which a rule says something starts with one of its openings. -/
theorem exists_opening_of_claim? {rule : OptionRule} {claim : Claim}
    (hplain : rule.hasPlainNames = true) (h : rule.claim? directory token next = some claim) :
    ∃ opening ∈ rule.openings, opening <+: token.heading := by
  cases rule with
  | valued form meaning =>
    simp only [claim?, Option.bind_eq_some_iff] at h
    obtain ⟨found, hfound, -⟩ := h
    exact OptionForm.exists_name_of_matchTokens? (eq_ok_some_of_join hfound)
  | flag flags =>
    simp only [claim?, Option.ite_none_right_eq_some] at h
    have hmem : token.raw ∈ flags := List.contains_iff_mem.1 h.1
    obtain ⟨c, rest, hraw, -, hquote⟩ :=
      exists_cons_of_isPlainName (List.all_eq_true.1 hplain token.raw hmem)
    have hheading : token.heading = token.raw := by simp [Token.heading, hraw, hquote]
    exact ⟨token.raw, hmem, hheading ▸ List.prefix_rfl⟩
  | machine =>
    obtain ⟨width, hwidth, -⟩ := Option.map_eq_some_iff.1 h
    obtain ⟨run, tail, hraw, -⟩ := machineOptionWidth?_eq_some_iff.1 hwidth
    refine ⟨"-m".toList, List.mem_singleton_self _, run ++ tail, ?_⟩
    have hquote : Token.isQuote '-' = false := by decide
    simp [Token.heading, hraw, hquote]

end OptionRule

/-! ## Rules that start apart -/

/-- Rules that open apart: no opening of a rule starts with an opening of another one. -/
def OpenApart (rules : List OptionRule) : Prop :=
  rules.Pairwise fun rule other => ∀ first ∈ rule.openings, ∀ second ∈ other.openings,
    ¬ first <+: second ∧ ¬ second <+: first

instance (rules : List OptionRule) : Decidable (OpenApart rules) :=
  inferInstanceAs (Decidable (rules.Pairwise _))

namespace OpenApart

variable {rule other : OptionRule} {claim : Claim}

/-- Of rules that open apart, at most one says something about a token. -/
theorem eq_of_claims (h : OpenApart rules) (hplain : ∀ rule ∈ rules, rule.hasPlainNames = true)
    {i j : Nat} (hi : rules[i]? = some rule) (hj : rules[j]? = some other)
    (hrule : (rule.claim? directory token next).isSome = true)
    (hother : (other.claim? directory token next).isSome = true) : i = j := by
  obtain ⟨claim, hclaim⟩ := Option.isSome_iff_exists.1 hrule
  obtain ⟨second, hsecond⟩ := Option.isSome_iff_exists.1 hother
  obtain ⟨opening, hopening, hstart⟩ :=
    OptionRule.exists_opening_of_claim? (hplain rule (List.mem_of_getElem? hi)) hclaim
  obtain ⟨another, hanother, hagain⟩ :=
    OptionRule.exists_opening_of_claim? (hplain other (List.mem_of_getElem? hj)) hsecond
  -- two texts at the start of a third one cannot be apart
  have hmeet := List.prefix_or_prefix_of_prefix hstart hagain
  obtain ⟨hltI, rfl⟩ := List.getElem?_eq_some_iff.1 hi
  obtain ⟨hltJ, rfl⟩ := List.getElem?_eq_some_iff.1 hj
  have hapart := List.pairwise_iff_getElem.1 h
  rcases Nat.lt_trichotomy i j with hlt | heq | hlt
  · obtain ⟨hne, hne'⟩ := hapart i j hltI hltJ hlt opening hopening another hanother
    exact absurd hmeet (not_or.2 ⟨hne, hne'⟩)
  · exact heq
  · obtain ⟨hne, hne'⟩ := hapart j i hltJ hltI hlt another hanother opening hopening
    exact absurd hmeet (not_or.2 ⟨hne', hne⟩)

theorem eq_of_mem (h : OpenApart rules) (hplain : ∀ rule ∈ rules, rule.hasPlainNames = true)
    (hmem : rule ∈ rules) (hother : other ∈ rules)
    (hclaim : (rule.claim? directory token next).isSome = true)
    (hsecond : (other.claim? directory token next).isSome = true) : rule = other := by
  obtain ⟨i, hi⟩ := List.mem_iff_getElem?.1 hmem
  obtain ⟨j, hj⟩ := List.mem_iff_getElem?.1 hother
  have heq : i = j := h.eq_of_claims hplain hi hj hclaim hsecond
  rw [heq, hj] at hi
  exact (Option.some.inj hi).symm

/-- What rules that open apart say about a token is what any of them says. -/
theorem claimOf_eq_some_iff (h : OpenApart rules)
    (hplain : ∀ rule ∈ rules, rule.hasPlainNames = true) :
    claimOf rules directory token next = some claim ↔
      ∃ rule ∈ rules, rule.claim? directory token next = some claim := by
  constructor
  · intro hclaim
    exact List.exists_of_findSome?_eq_some hclaim
  · rintro ⟨rule, hmem, hrule⟩
    cases hclaim : claimOf rules directory token next with
    | none =>
      have hnone := List.findSome?_eq_none_iff.1 hclaim rule hmem
      rw [hrule] at hnone
      cases hnone
    | some first =>
      obtain ⟨other, hother, hfirst⟩ := List.exists_of_findSome?_eq_some hclaim
      have hsame : rule = other :=
        h.eq_of_mem hplain hmem hother (by rw [hrule]; rfl) (by rw [hfirst]; rfl)
      rw [hsame, hfirst] at hrule
      exact hrule

end OpenApart

/-- What rules that open apart say does not depend on their order. -/
theorem OpenApart.claimOf_eq_of_perm (h : OpenApart rules)
    (hplain : ∀ rule ∈ rules, rule.hasPlainNames = true) (hperm : others.Perm rules) :
    claimOf others directory token next = claimOf rules directory token next := by
  have hothers : OpenApart others := by
    refine hperm.pairwise_iff ?_ |>.2 h
    intro rule other hapart first hfirst second hsecond
    exact (hapart second hsecond first hfirst).symm
  have hplainOthers : ∀ rule ∈ others, rule.hasPlainNames = true := fun rule hmem =>
    hplain rule (hperm.mem_iff.1 hmem)
  refine Option.ext fun claim => ?_
  rw [hothers.claimOf_eq_some_iff hplainOthers, h.claimOf_eq_some_iff hplain]
  exact exists_congr fun rule => and_congr_left' hperm.mem_iff

/-- Rules that say the same about all tokens find the same in a row of words. -/
theorem findings_congr
    (h : ∀ token next, claimOf others directory token next = claimOf rules directory token next)
    (words : List Word) : findings others directory words = findings rules directory words := by
  induction words using findings.induct rules directory with
  | case1 => rw [findings, findings]
  | case2 word words hclaim ih =>
    rw [findings_cons_of_none hclaim, findings_cons_of_none (by rw [h, hclaim]), ih]
  | case3 word words claim hclaim ih =>
    rw [findings_cons_of_some hclaim, findings_cons_of_some (by rw [h, hclaim]), ih]

/-! ## The known families -/

/-- The rules of each known family open apart. -/
theorem openApart_of_mem (hrules : rules ∈ [gnuRules, cudaRules, visualRules]) :
    OpenApart rules ∧ ∀ rule ∈ rules, rule.hasPlainNames = true := by
  have hall : ∀ rules ∈ [gnuRules, cudaRules, visualRules],
      OpenApart rules ∧ ∀ rule ∈ rules, rule.hasPlainNames = true := by decide +kernel
  exact hall rules hrules

/-- Whether a reader takes something from the start of a text. -/
def ArgumentReader.Takes (reader : ArgumentReader) (parsed : ParsedArguments)
    (directory text : Text) : Prop :=
  ∃ width, (reader parsed directory text).2 = .ok width ∧ 0 < width

/-- A rule that takes something from a text says something about its first tokens. -/
theorem OptionRule.isSome_claim?_of_takes {rule : OptionRule} {parsed : ParsedArguments}
    (hplain : rule.hasPlainNames = true) (htext : Text.startsBlank text = false)
    (h : rule.reader.Takes parsed directory text) :
    (rule.claim? directory (Token.read text)
      (Word.next? (Word.list (text.drop (Token.read text).width)))).isSome = true := by
  have hread : (Token.read text).raw ++ text.drop (Token.read text).width = text :=
    Token.raw_append_drop none text
  have htake : (rule.take? directory ((Token.read text).raw ++
      text.drop (Token.read text).width)).toOption.join = _ :=
    OptionRule.take?_eq hplain (Token.before_drop htext)
  rw [hread] at htake
  obtain ⟨width, hwidth, hpos⟩ := h
  rw [OptionRule.reader] at hwidth
  cases hresult : rule.take? directory text with
  | error error =>
    rw [hresult] at hwidth
    cases hwidth
  | ok taken =>
    rw [hresult] at hwidth htake
    cases taken with
    | none =>
      cases hwidth
      exact absurd hpos (Int.lt_irrefl 0)
    | some taken =>
      obtain ⟨claim, hclaim, -⟩ := Option.map_eq_some_iff.1 htake.symm
      rw [hclaim]
      rfl

namespace Toolchain

/-- **The order of the rules is of no account.** In front of an argument, at most one rule of a known
family takes something, and every order of the rules finds the same in every line. -/
theorem order_irrelevant (rules : List OptionRule)
    (hrules : rules ∈ [gnuRules, cudaRules, visualRules]) :
    (∀ parsed directory text, Text.startsBlank text = false →
      ∀ (i j : Nat) (first second : OptionRule),
        rules[i]? = some first → rules[j]? = some second →
        first.reader.Takes parsed directory text → second.reader.Takes parsed directory text →
          i = j) ∧
    ∀ others, others.Perm rules → ∀ language kind directory text,
      (ofRules language kind others).parse directory text =
        (ofRules language kind rules).parse directory text := by
  obtain ⟨hapart, hplain⟩ := openApart_of_mem hrules
  constructor
  · intro parsed directory text htext i j first second hi hj hfirst hsecond
    exact hapart.eq_of_claims hplain hi hj
      (OptionRule.isSome_claim?_of_takes (hplain first (List.mem_of_getElem? hi)) htext hfirst)
      (OptionRule.isSome_claim?_of_takes (hplain second (List.mem_of_getElem? hj)) htext hsecond)
  · intro others hperm language kind directory text
    have hplainOthers : ∀ rule ∈ others, rule.hasPlainNames = true := fun rule hmem =>
      hplain rule (hperm.mem_iff.1 hmem)
    rw [parse_eq language kind hplainOthers, parse_eq language kind hplain,
      findings_congr fun token next => hapart.claimOf_eq_of_perm hplain hperm]

/-- Options with the same first letters, read by the rules in the opposite order. -/
theorem order_irrelevant_reversed :
    let text := "-isysroot /sdk \"-isystem/x y\" -include z.h -target t -m32 -I.".toList
    let sysroot := OptionRule.short ["-isysroot"] .builtin
    gnuRules ∈ [gnuRules, cudaRules, visualRules] ∧ Text.startsBlank text = false ∧
    gnuRules[9]? = some sysroot ∧ sysroot.reader.Takes .none "/b".toList text ∧
    (∀ (j : Nat) (second : OptionRule), gnuRules[j]? = some second →
      second.reader.Takes .none "/b".toList text → 9 = j) ∧
    gnuRules.reverse.Perm gnuRules ∧
    (ofRules "c" .gcc gnuRules.reverse).parse "/b".toList text = gnuC.parse "/b".toList text := by
  intro text sysroot
  have hrules : gnuRules ∈ [gnuRules, cudaRules, visualRules] := List.mem_cons_self ..
  have htext : Text.startsBlank text = false := by decide
  have hsysroot : gnuRules[9]? = some sysroot := rfl
  have htakes : sysroot.reader.Takes .none "/b".toList text := ⟨14, by decide, by decide⟩
  have hperm : gnuRules.reverse.Perm gnuRules := List.reverse_perm gnuRules
  obtain ⟨honce, hsame⟩ := order_irrelevant gnuRules hrules
  refine ⟨hrules, htext, hsysroot, htakes, ?_, hperm, hsame _ hperm "c" .gcc "/b".toList text⟩
  intro j second hj hsecond
  exact honce .none "/b".toList text htext 9 j sysroot second hsysroot hj htakes hsecond

end Toolchain

end BuildLog
