import BuildLog.Proofs.JoinedLines

/-!
# Arguments that are kept as written

The arguments that are kept for the compiler itself say the same on a line of their own, in any
directory.

* `Text.InOrder`: parts of a text that stand in it one behind the other;
* `Claim.outline`: what a claim says apart from entries. `claimOf_outline`: it does not depend on the
  directory;
* `NamesAskForValues`: rules for which a name that may stand alone says nothing without a value;
* `findings_joined_kept`: what is found in a line of kept arguments;
* `Toolchain.builtinArguments_self_contained`: the kept arguments of a line.
-/

namespace BuildLog

variable {rules : List OptionRule} {directory other rest tail : Text} {token : Token}
  {next : Option Token} {word : Word} {words : List Word}

/-! ## Parts of a text -/

/-- Parts that stand in a text one behind the other, with anything in front, in between and behind. -/
inductive Text.InOrder : List Text → Text → Prop
  | nil (text : Text) : InOrder [] text
  | cons (before part after : Text) (parts : List Text) : InOrder parts after →
    InOrder (part :: parts) (before ++ part ++ after)

theorem Text.InOrder.append_left {parts : List Text} {text : Text} (h : InOrder parts text)
    (before : Text) : InOrder parts (before ++ text) := by
  cases h with
  | nil => exact .nil _
  | cons middle part after parts h =>
    rw [← List.append_assoc, ← List.append_assoc]
    exact .cons (before ++ middle) part after parts h

/-- The kept arguments of a text stand in it in order. -/
theorem inOrder_argument? (rules : List OptionRule) (directory text : Text) :
    Text.InOrder ((findings rules directory (Word.list text)).filterMap Finding.argument?) text := by
  generalize hlist : Word.list text = words
  induction words using findings.induct rules directory generalizing text with
  | case1 =>
    rw [findings]
    exact .nil text
  | case2 word words hclaim ih =>
    obtain ⟨rest, rfl, -, -, rfl⟩ := Word.exists_of_list_eq_cons hlist
    rw [findings_cons_of_none hclaim]
    exact ((ih rest rfl).append_left _).append_left _
  | case3 word words claim hclaim ih =>
    obtain ⟨rest, rfl, -, -, rfl⟩ := Word.exists_of_list_eq_cons hlist
    obtain ⟨more, htext, hmore⟩ := Word.exists_written_append word.token rest claim.pair
    rw [findings_cons_of_some hclaim, htext, List.filterMap_cons]
    cases hsense : claim.sense with
    | entry fact =>
      simp only [Claim.finding, hsense, Sense.finding, Finding.argument?]
      exact ((ih more hmore).append_left _).append_left _
    | verbatim =>
      simp only [Claim.finding, hsense, Sense.finding, Finding.argument?]
      rw [← List.append_assoc]
      exact .cons _ _ _ _ (ih more hmore)

/-! ## Other directories -/

/-- A claim apart from the entry it gives: whether the argument is kept as written, and whether it takes
the second token with it. -/
def Claim.outline (claim : Claim) : Bool × Bool :=
  (claim.sense == .verbatim, claim.pair)

theorem ValueMeaning.sense?_outline (meaning : ValueMeaning) (directory other value : Text) :
    (meaning.sense? directory value).map (· == Sense.verbatim) =
      (meaning.sense? other value).map (· == Sense.verbatim) := by
  cases meaning <;> simp only [sense?, finding] <;> rfl

theorem OptionRule.claim?_outline (rule : OptionRule) (directory other : Text) (token : Token)
    (next : Option Token) :
    (rule.claim? directory token next).map Claim.outline =
      (rule.claim? other token next).map Claim.outline := by
  cases rule with
  | valued form meaning =>
    rw [claim?, claim?, Option.map_bind, Option.map_bind]
    congr 1
    funext found
    have hsense := meaning.sense?_outline directory other found.value
    simp only [Function.comp_apply]
    split
    · rfl
    · rw [Option.map_map, Option.map_map]
      have houtline : (fun sense => Claim.outline ⟨sense, found.separate⟩) =
          (fun kept => (kept, found.separate)) ∘ (· == Sense.verbatim) := rfl
      change Option.map (fun sense => Claim.outline ⟨sense, found.separate⟩) _ =
        Option.map (fun sense => Claim.outline ⟨sense, found.separate⟩) _
      rw [houtline, ← Option.map_map, hsense, Option.map_map]
  | flag flags => rfl
  | machine => rfl

/-- Apart from entries, what rules say does not depend on the directory. -/
theorem claimOf_outline (rules : List OptionRule) (directory other : Text) (token : Token)
    (next : Option Token) :
    (claimOf rules directory token next).map Claim.outline =
      (claimOf rules other token next).map Claim.outline := by
  induction rules with
  | nil => rfl
  | cons rule rules ih =>
    have hrule := rule.claim?_outline directory other token next
    simp only [claimOf, List.findSome?_cons] at ih ⊢
    cases hfirst : rule.claim? directory token next <;>
      cases hsecond : rule.claim? other token next <;> simp_all

theorem claimOf_eq_none_of_directory (h : claimOf rules directory token next = none) (other : Text) :
    claimOf rules other token next = none := by
  have houtline := claimOf_outline rules directory other token next
  rw [h] at houtline
  simpa using houtline.symm

/-- An argument that is kept as written is kept in every directory. -/
theorem claimOf_verbatim_of_directory {pair : Bool}
    (h : claimOf rules directory token next = some ⟨.verbatim, pair⟩) (other : Text) :
    claimOf rules other token next = some ⟨.verbatim, pair⟩ := by
  have houtline := claimOf_outline rules directory other token next
  rw [h] at houtline
  obtain ⟨claim, hclaim, hsame⟩ := Option.map_eq_some_iff.1 houtline.symm
  cases claim with
  | mk sense taken =>
    simp only [Claim.outline, Prod.mk.injEq, beq_self_eq_true, beq_iff_eq] at hsame
    rw [hclaim, hsame.1, hsame.2]

/-! ## Names without a value -/

/-- Rules for which a name behind which the value may be the next token says nothing if it stands
alone. -/
def NamesAskForValues (rules : List OptionRule) : Prop :=
  ∀ rule ∈ rules, ∀ name ∈ rule.separateNames, claimOf rules [] ⟨name, name⟩ none = none

instance (rules : List OptionRule) : Decidable (NamesAskForValues rules) :=
  inferInstanceAs (Decidable (∀ rule ∈ rules, ∀ name ∈ rule.separateNames, _))

namespace OptionForm

variable {form : OptionForm} {result : Option TokenMatch}

/-- A value that is part of the first token is found without the second one. -/
theorem valueIn?_none {name : Text} {rest : Token} (h : form.valueIn? name rest next = .ok result)
    (hresult : result.all (!·.separate) = true) : form.valueIn? name rest none = .ok result := by
  unfold valueIn? at h ⊢
  split at h
  · rename_i hequals
    rw [if_pos hequals, h]
  · rename_i hequals
    rw [if_neg hequals]
    split at h
    · rename_i hrest
      rw [if_pos hrest, h]
    · rename_i hrest
      rw [if_neg hrest]
      split at h
      · rename_i hseparate
        rw [if_pos hseparate, h]
      · cases next <;> cases h
        cases hresult

theorem firstIn?_none {names : List Text} (h : form.firstIn? token next names = .ok result)
    (hresult : result.all (!·.separate) = true) : form.firstIn? token none names = .ok result := by
  induction names with
  | nil => exact h
  | cons name names ih =>
    rw [firstIn?] at h ⊢
    split at h
    · exact ih h
    · split at h
      · rename_i hvalue
        rw [valueIn?_none hvalue rfl]
        exact ih h
      · rename_i hvalue
        rw [valueIn?_none h hresult]
        rw [h] at hvalue
        cases result with
        | none => exact absurd rfl hvalue
        | some found => rfl

theorem matchTokens?_none (h : form.matchTokens? token next = .ok result)
    (hresult : result.all (!·.separate) = true) : form.matchTokens? token none = .ok result := by
  rw [matchTokens?] at h ⊢
  split at h
  · rename_i hquote
    rw [if_pos hquote, h]
  · rename_i hquote
    rw [if_neg hquote]
    exact firstIn?_none h hresult

end OptionForm

theorem OptionRule.isPlainName_of_mem {rule : OptionRule} (hplain : rule.hasPlainNames = true)
    {name : Text} (hmem : name ∈ rule.separateNames) : isPlainName name = true := by
  cases rule with
  | valued form meaning =>
    cases hseparate : form.separate with
    | false => simp [separateNames, hseparate] at hmem
    | true =>
      simp only [separateNames, hseparate, if_true] at hmem
      exact List.all_eq_true.1 hplain name hmem
  | flag flags => cases hmem
  | machine => cases hmem

/-- What a rule says about the first token alone, it says without the second one. -/
theorem OptionRule.claim?_none {rule : OptionRule} {sense : Sense}
    (h : rule.claim? directory token next = some ⟨sense, false⟩) :
    rule.claim? directory token none = some ⟨sense, false⟩ := by
  cases rule with
  | valued form meaning =>
    simp only [claim?, Option.bind_eq_some_iff] at h ⊢
    obtain ⟨found, hfound, hclaim⟩ := h
    refine ⟨found, ?_, hclaim⟩
    have hseparate : found.separate = false := by
      simp only [Option.ite_none_left_eq_some, Option.map_eq_some_iff, Claim.mk.injEq] at hclaim
      obtain ⟨-, sense, -, -, hseparate⟩ := hclaim
      exact hseparate
    rw [OptionForm.matchTokens?_none (eq_ok_some_of_join hfound) (by simp [hseparate])]
    rfl
  | flag flags => exact h
  | machine => exact h

/-- A token about which something is said alone is no name that asks for a value. -/
theorem NamesAskForValues.not_mem {sense : Sense} (h : NamesAskForValues rules)
    (hplain : ∀ rule ∈ rules, rule.hasPlainNames = true) (hbefore : token.Before rest)
    (hclaim : claimOf rules directory token next = some ⟨sense, false⟩) :
    ∀ rule ∈ rules, token.raw ∉ rule.separateNames := by
  intro rule hrule hmem
  have hname := all_of_isPlainName (OptionRule.isPlainName_of_mem (hplain rule hrule) hmem)
  have htoken : token = ⟨token.raw, token.raw⟩ := hbefore.eq_of_plain hname hbefore.startsBlank rfl
  -- the rule that spoke about the token would also speak about the bare name
  have hnone := claimOf_eq_none_of_directory (h rule hrule token.raw hmem) directory
  rw [← htoken] at hnone
  obtain ⟨speaker, hspeaker, hsaid⟩ := List.exists_of_findSome?_eq_some hclaim
  have hsilent := List.findSome?_eq_none_iff.1 hnone speaker hspeaker
  rw [OptionRule.claim?_none hsaid] at hsilent
  cases hsilent

/-! ## Lines of kept arguments -/

/-- An argument that is kept as written is kept again in front of another text, in every directory. -/
theorem findings_written_append (h : NamesAskForValues rules)
    (hplain : ∀ rule ∈ rules, rule.hasPlainNames = true) (hspaced : Word.Spaced (word :: words))
    {pair : Bool}
    (hclaim : claimOf rules directory word.token (Word.next? words) = some ⟨.verbatim, pair⟩)
    (htail : Text.startsBlank tail = true) (hwords : tail = [] ∨ Word.behind words pair ≠ []) :
    findings rules other (Word.list (Word.written word.token words pair ++ tail)) =
      .builtin (Word.written word.token words pair) :: findings rules other (Word.list tail) := by
  have hother := claimOf_verbatim_of_directory hclaim other
  cases pair with
  | false =>
    -- another word may stand behind the token now, so it must be one that does not ask for a value
    have hbefore : word.token.Before tail := hspaced.before htail hwords
    have hagain : claimOf rules other word.token (Word.next? (Word.list tail)) =
        some ⟨.verbatim, false⟩ := by
      rw [← hother]
      exact claimOf_of_not_mem_separateNames (h.not_mem hplain hspaced.2.1 hclaim)
    exact findings_append_of_claim hbefore hagain
  | true =>
    cases words with
    | nil => cases pair_of_claimOf_none hclaim
    | cons next words =>
      have hnext : next.token.Before tail := hspaced.of_cons.before htail hwords
      have hlist : Word.list (next.gap ++ (next.token.raw ++ tail)) = next :: Word.list tail :=
        Word.list_append hspaced.of_cons.1 hnext
      have hbefore : word.token.Before (next.gap ++ (next.token.raw ++ tail)) :=
        hspaced.before_gap _
      have hwritten : Word.written word.token (next :: words) true ++ tail =
          word.token.raw ++ (next.gap ++ (next.token.raw ++ tail)) := by
        simp [Word.written, Word.spelled]
      have hagain : claimOf rules other word.token
          (Word.next? (Word.list (next.gap ++ (next.token.raw ++ tail)))) = some ⟨.verbatim, true⟩ := by
        rw [hlist]
        exact hother
      rw [hwritten, findings_append_of_claim hbefore hagain, hlist]
      rfl

/-- On a line of their own, the kept arguments of a row are kept again, and nothing else is found. -/
theorem findings_joined_kept (h : NamesAskForValues rules)
    (hplain : ∀ rule ∈ rules, rule.hasPlainNames = true) (hspaced : Word.Spaced words)
    (directory other : Text) :
    findings rules other (Word.list (Text.joined [' ']
        ((findings rules directory words).filterMap Finding.argument?))) =
      ((findings rules directory words).filterMap Finding.argument?).map .builtin := by
  induction words using findings.induct rules directory with
  | case1 =>
    have hlist : Word.list [] = [] := Word.list_of_blanks rfl
    simp [findings, Text.joined, hlist]
  | case2 word words hclaim ih =>
    rw [findings_cons_of_none hclaim]
    exact ih hspaced.of_cons
  | case3 word words claim hclaim ih =>
    have hrest := ih (hspaced.of_cons.behind claim.pair)
    rw [findings_cons_of_some hclaim]
    cases claim with
    | mk sense pair =>
      cases sense with
      | entry fact => exact hrest
      | verbatim =>
        obtain ⟨tail, hline, htail, hnil, hsame⟩ := exists_joined_cons
          (Word.written word.token words pair)
          ((findings rules directory (Word.behind words pair)).filterMap Finding.argument?)
        -- the last token of the row may be open, but then no other argument follows it
        have hwords : tail = [] ∨ Word.behind words pair ≠ [] := by
          by_cases hbehind : Word.behind words pair = []
          · refine .inl (hnil ?_)
            rw [hbehind, findings, List.filterMap_nil]
          · exact .inr hbehind
        change findings rules other (Word.list (Text.joined [' '] (_ :: _))) = _ :: List.map _ _
        rw [hline, findings_written_append h hplain hspaced hclaim htail hwords, hsame]
        exact congrArg _ hrest

namespace Toolchain

/-- The arguments that are kept as written stand in the line in order. On a line of their own, and in any
directory, they are kept again, and nothing else is found. -/
theorem builtinArguments_self_contained (language : String) (kind : BuiltinsKind)
    (rules : List OptionRule) (hrules : rules ∈ [gnuRules, cudaRules, visualRules])
    (directory other text : Text) :
    let parse := (ofRules language kind rules).parse
    let arguments := (parse directory text).builtinArguments
    Text.InOrder arguments text ∧ parse other (Text.joined [' '] arguments) = ⟨[], arguments⟩ := by
  intro parse arguments
  have hall : ∀ rules ∈ [gnuRules, cudaRules, visualRules],
      NamesAskForValues rules ∧ ∀ rule ∈ rules, rule.hasPlainNames = true := by decide +kernel
  obtain ⟨hnames, hplain⟩ := hall rules hrules
  have hkept : arguments =
      (findings rules directory (Word.list text)).filterMap Finding.argument? := by
    simp only [arguments, parse, parse_eq language kind hplain, ParsedArguments.ofFindings]
  constructor
  · rw [hkept]
    exact inOrder_argument? rules directory text
  · have hagain := findings_joined_kept hnames hplain (Word.spaced_list text) directory other
    simp only [parse, parse_eq language kind hplain]
    rw [hkept, hagain, ParsedArguments.ofFindings_map_builtin]

/-- Among the kept arguments are one with a tab in it, one in quotes, and one that is never closed. -/
theorem builtinArguments_self_contained_quoted :
    let text := "-DX -isysroot\t\"/a b\" -Iy \"-std=c++17\" -m32 z.cpp --sysroot=/x\"-D Z ".toList
    let arguments := ["-isysroot\t\"/a b\"".toList, "\"-std=c++17\"".toList, "-m32".toList,
      "--sysroot=/x\"-D Z ".toList]
    gnuRules ∈ [gnuRules, cudaRules, visualRules] ∧
    (gnuCpp.parse "/b".toList text).builtinArguments = arguments ∧ Text.InOrder arguments text ∧
    gnuCpp.parse [] (Text.joined [' '] arguments) = ⟨[], arguments⟩ := by
  intro text arguments
  have hrules : gnuRules ∈ [gnuRules, cudaRules, visualRules] := List.mem_cons_self ..
  have harguments : (gnuCpp.parse "/b".toList text).builtinArguments = arguments := by
    decide +kernel
  have hkept := builtinArguments_self_contained "c++" .gcc gnuRules hrules "/b".toList [] text
  change Text.InOrder (gnuCpp.parse "/b".toList text).builtinArguments text ∧ _ at hkept
  rw [← harguments]
  exact ⟨hrules, rfl, hkept⟩

end Toolchain

end BuildLog
