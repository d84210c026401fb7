import BuildLog.Detector
import BuildLog.Proofs.ArgumentRun
import BuildLog.Query

/-!
# The tokens of a query

A query hands tokens of the original line to the compiler: those of the arguments that were kept, in the
order of the line.

* `claimOf_value_ne_nil`: no token that is taken for an option stands for nothing;
* `Portion`: the tokens that are read in one step, and whether they are kept. `exists_portions`: the
  tokens of a line as the row of its portions;
* `Query.argv_of_portions`: the call of a query is the command, the tokens of the kept portions, the
  flags of the query and the source file.
-/

namespace BuildLog

variable {rules : List OptionRule} {directory rest : Text} {token : Token} {next : Option Token}
  {words : List Word}

/-! ## Tokens that stand for something -/

namespace OptionForm

variable {form : OptionForm} {found : TokenMatch}

/-- No option is named by nothing. -/
theorem firstMatch?_nil (form : OptionForm) (unquoted : Bool) {names : List Text}
    (hnames : names.all isPlainName = true) : form.firstMatch? unquoted [] names = .ok none := by
  induction names with
  | nil => rfl
  | cons name names ih =>
    simp only [List.all_cons, Bool.and_eq_true] at hnames
    obtain ⟨c, rest, rfl, -⟩ := exists_cons_of_isPlainName hnames.1
    exact ih hnames.2

/-- A value that is a token of its own is that token. -/
theorem eq_some_of_valueIn?_separate {name : Text} {rest : Token}
    (h : form.valueIn? name rest next = .ok (some found)) (hseparate : found.separate = true) :
    ∃ second, next = some second ∧ second.value = found.value := by
  unfold valueIn? at h
  split at h
  · cases h
    cases hseparate
  · split at h
    · split at h
      · cases h
        cases hseparate
      · cases h
    · split at h
      · cases h
      · cases next with
        | none => cases h
        | some second =>
          cases h
          exact ⟨second, rfl, rfl⟩

/-- An option with a value is named by a token that stands for something. -/
theorem value_ne_nil_of_matchTokens? (hnames : form.names.all isPlainName = true)
    (h : token.Before rest) (hmatch : form.matchTokens? token next = .ok (some found)) :
    token.value ≠ [] := by
  by_cases hquote : token.raw.head?.any Token.isQuote = true
  · intro hvalue
    rw [matchTokens?, if_pos hquote, hvalue, firstMatch?_nil _ _ hnames] at hmatch
    cases hmatch
  · rw [matchTokens?, if_neg hquote] at hmatch
    obtain ⟨name, hmem, after, hraw, -⟩ := exists_of_firstIn?_eq_some hmatch
    have hname := List.all_eq_true.1 hnames name hmem
    obtain ⟨c, tail, rfl, -⟩ := exists_cons_of_isPlainName hname
    have htext : token.raw ++ rest = (c :: tail) ++ (after ++ rest) := by
      rw [← hraw, List.append_assoc]
    rw [(h.eq_behind (all_of_isPlainName hname) htext).1]
    simp [Token.behind]

/-- A value that is a token of its own is the next token. -/
theorem exists_second_of_matchTokens? (hmatch : form.matchTokens? token next = .ok (some found))
    (hseparate : found.separate = true) :
    ∃ second, next = some second ∧ second.value = found.value := by
  by_cases hquote : token.raw.head?.any Token.isQuote = true
  · rw [separate_of_isQuote hquote hmatch] at hseparate
    cases hseparate
  · rw [matchTokens?, if_neg hquote] at hmatch
    obtain ⟨name, -, after, -, hvalue⟩ := exists_of_firstIn?_eq_some hmatch
    exact eq_some_of_valueIn?_separate hvalue hseparate

end OptionForm

/-- A plain token stands for what is written. -/
theorem Token.Before.value_of_plain (h : token.Before rest)
    (hplain : token.raw.all Token.isPlainChar = true) : token.value = token.raw := by
  have htoken := h.eq_of_plain hplain h.startsBlank rfl
  rw [htoken]

/-- No token that a rule takes for an option stands for nothing, nor does a value that is a token of its
own. -/
theorem OptionRule.value_ne_nil_of_claim? {rule : OptionRule} (hplain : rule.hasPlainNames = true)
    (h : token.Before rest) {claim : Claim} (hclaim : rule.claim? directory token next = some claim) :
    token.value ≠ [] ∧ (claim.pair = true → ∃ second, next = some second ∧ second.value ≠ []) := by
  cases rule with
  | valued form meaning =>
    simp only [claim?, Option.bind_eq_some_iff, Option.ite_none_left_eq_some,
      Option.map_eq_some_iff] at hclaim
    obtain ⟨found, hfound, hvalue, sense, -, rfl⟩ := hclaim
    have hmatch := eq_ok_some_of_join hfound
    refine ⟨OptionForm.value_ne_nil_of_matchTokens? hplain h hmatch, ?_⟩
    intro hseparate
    obtain ⟨second, hsecond, hsame⟩ := OptionForm.exists_second_of_matchTokens? hmatch hseparate
    refine ⟨second, hsecond, ?_⟩
    rw [hsame]
    simpa using hvalue
  | flag flags =>
    simp only [claim?, Option.ite_none_right_eq_some, Option.some.injEq] at hclaim
    obtain ⟨hmem, rfl⟩ := hclaim
    have hname := List.all_eq_true.1 hplain token.raw (List.contains_iff_mem.1 hmem)
    refine ⟨?_, fun hpair => absurd hpair Bool.false_ne_true⟩
    rw [h.value_of_plain (all_of_isPlainName hname)]
    obtain ⟨c, tail, hraw, -⟩ := exists_cons_of_isPlainName hname
    rw [hraw]
    exact List.cons_ne_nil c tail
  | machine =>
    obtain ⟨width, hwidth, rfl⟩ := Option.map_eq_some_iff.1 hclaim
    obtain ⟨run, tail, hraw, -, hchars, htail, -⟩ := machineOptionWidth?_eq_some_iff.1 hwidth
    refine ⟨?_, fun hpair => absurd hpair Bool.false_ne_true⟩
    have hrun : run.all Token.isPlainChar = true :=
      List.all_eq_true.2 fun c hc => isPlainChar_of_isMachineChar (hchars c hc)
    have htext : token.raw ++ rest = ('-' :: 'm' :: run) ++ (tail ++ rest) := by
      rw [hraw, List.append_assoc]
    have hsign : ('-' :: 'm' :: run).all Token.isPlainChar = true := by
      rw [List.all_cons, List.all_cons, hrun]
      decide
    rw [(h.eq_behind hsign htext).1]
    simp [Token.behind]

/-- No token that rules take for an option stands for nothing, nor does a value that is a token of its
own. -/
theorem claimOf_value_ne_nil (hplain : ∀ rule ∈ rules, rule.hasPlainNames = true)
    (h : token.Before rest) {claim : Claim} (hclaim : claimOf rules directory token next = some claim) :
    token.value ≠ [] ∧ (claim.pair = true → ∃ second, next = some second ∧ second.value ≠ []) := by
  obtain ⟨rule, hrule, hsaid⟩ := List.exists_of_findSome?_eq_some hclaim
  exact OptionRule.value_ne_nil_of_claim? (hplain rule hrule) h hsaid

/-! ## Portions -/

/-- The tokens that are read in one step, and the argument that they are kept as, if they are. -/
structure Portion where
  tokens : List Token
  kept : Option Text

namespace Portion

/-- The tokens of the portions that are kept. -/
def keptTokens (portions : List Portion) : List Token :=
  (portions.filter (·.kept.isSome)).flatMap tokens

/-- An argument that is kept is the text of its tokens, and each of them stands for something. -/
def IsSound (portion : Portion) : Prop :=
  ∀ argument, portion.kept = some argument →
    Token.IsArgument argument portion.tokens ∧ Token.list argument = portion.tokens ∧
      ∀ token ∈ portion.tokens, token.value ≠ []

theorem isSound_of_kept_eq_none {portion : Portion} (h : portion.kept = none) : portion.IsSound := by
  intro argument hargument
  rw [h] at hargument
  cases hargument

/-- The kept tokens of a row stand in it in order. -/
theorem keptTokens_sublist (portions : List Portion) :
    (keptTokens portions).Sublist (portions.flatMap tokens) := by
  induction portions with
  | nil => exact .slnil
  | cons portion portions ih =>
    cases hkept : portion.kept.isSome with
    | false => simpa [keptTokens, hkept] using ih.trans (List.sublist_append_right _ _)
    | true => simpa [keptTokens, hkept] using ih

/-- The values of kept arguments are those of the kept tokens. -/
theorem values_kept {portions : List Portion} (h : ∀ portion ∈ portions, portion.IsSound) :
    (portions.filterMap kept).flatMap Token.values = (keptTokens portions).map Token.value := by
  induction portions with
  | nil => rfl
  | cons portion portions ih =>
    obtain ⟨hportion, hportions⟩ := List.forall_mem_cons.1 h
    have hrest := ih hportions
    cases hkept : portion.kept with
    | none => simpa [keptTokens, hkept] using hrest
    | some argument =>
      have htokens := (hportion argument hkept).2.1
      simpa [keptTokens, hkept, Token.values, htokens] using hrest

theorem value_ne_nil_of_mem_keptTokens {portions : List Portion}
    (h : ∀ portion ∈ portions, portion.IsSound) :
    ∀ token ∈ keptTokens portions, token.value ≠ [] := by
  intro token htoken
  obtain ⟨portion, hportion, hmem⟩ := List.mem_flatMap.1 htoken
  obtain ⟨hin, hkept⟩ := List.mem_filter.1 hportion
  obtain ⟨argument, hargument⟩ := Option.isSome_iff_exists.1 hkept
  exact (h portion hin argument hargument).2.2 token hmem

end Portion

/-! ## The portions of a line -/

/-- The tokens of an argument: one token, or it and the one behind it. -/
def Claim.tokens (token : Token) (words : List Word) (claim : Claim) : List Token :=
  token :: if claim.pair then (words.take 1).map Word.token else []

/-- What is taken for an argument, and what stands behind it. -/
theorem Claim.tokens_append (token : Token) (words : List Word) (claim : Claim) :
    claim.tokens token words ++ (Word.behind words claim.pair).map Word.token =
      token :: words.map Word.token := by
  rw [tokens, Word.behind]
  cases claim.pair with
  | false => rfl
  | true => cases words <;> rfl

/-- The text that is taken for an argument is the text of its tokens. -/
theorem Claim.isArgument_written {word : Word} {claim : Claim} (hspaced : Word.Spaced (word :: words))
    (hclaim : claimOf rules directory word.token (Word.next? words) = some claim) :
    Token.IsArgument (Word.written word.token words claim.pair) (claim.tokens word.token words) := by
  cases hpair : claim.pair with
  | false =>
    simp only [tokens, hpair]
    exact .one word.token
  | true =>
    cases words with
    | nil =>
      rw [pair_of_claimOf_none hclaim] at hpair
      cases hpair
    | cons next words =>
      have htwo := Token.IsArgument.two word.token next.token next.gap
        hspaced.isClosed_and_gap_ne_nil.2 hspaced.of_cons.1
      simpa [tokens, hpair, Word.written, Word.spelled, List.append_assoc] using htwo

/-- What a claim says about a word and the words behind it, as a portion. -/
def Claim.portion (token : Token) (words : List Word) (claim : Claim) : Portion :=
  ⟨claim.tokens token words, (claim.finding token words).argument?⟩

theorem Claim.isSound_portion {word : Word} {claim : Claim}
    (hplain : ∀ rule ∈ rules, rule.hasPlainNames = true) (hspaced : Word.Spaced (word :: words))
    (hclaim : claimOf rules directory word.token (Word.next? words) = some claim) :
    (claim.portion word.token words).IsSound := by
  intro argument hargument
  have hwritten : argument = Word.written word.token words claim.pair := by
    simp only [portion, finding] at hargument
    cases hsense : claim.sense with
    | entry fact =>
      rw [hsense] at hargument
      cases hargument
    | verbatim =>
      rw [hsense] at hargument
      cases hargument
      rfl
  subst hwritten
  refine ⟨isArgument_written hspaced hclaim, Word.list_written hspaced claim.pair, ?_⟩
  obtain ⟨hvalue, hsecond⟩ := claimOf_value_ne_nil hplain hspaced.2.1 hclaim
  intro token htoken
  rcases List.mem_cons.1 htoken with rfl | htoken
  · exact hvalue
  · split at htoken
    · rename_i hpair
      obtain ⟨second, hnext, hne⟩ := hsecond hpair
      cases words with
      | nil => cases hnext
      | cons next words =>
        cases hnext
        simp only [List.take_succ_cons, List.take_zero, List.map_cons, List.map_nil,
          List.mem_singleton] at htoken
        rwa [htoken]
    · cases htoken

/-- The tokens of a row of words are those of its portions, and what is kept of the portions is what the
rules find. -/
theorem exists_portions (hplain : ∀ rule ∈ rules, rule.hasPlainNames = true)
    (hspaced : Word.Spaced words) (directory : Text) :
    ∃ portions : List Portion, portions.flatMap Portion.tokens = words.map Word.token ∧
      portions.filterMap Portion.kept =
        (findings rules directory words).filterMap Finding.argument? ∧
      ∀ portion ∈ portions, portion.IsSound := by
  induction words using findings.induct rules directory with
  | case1 => exact ⟨[], rfl, by simp [findings], by simp⟩
  | case2 word words hclaim ih =>
    obtain ⟨portions, htokens, hkept, hsound⟩ := ih hspaced.of_cons
    refine ⟨⟨[word.token], none⟩ :: portions, ?_, ?_, ?_⟩
    · simp [htokens]
    · rw [findings_cons_of_none hclaim, ← hkept]
      rfl
    · exact List.forall_mem_cons.2 ⟨Portion.isSound_of_kept_eq_none rfl, hsound⟩
  | case3 word words claim hclaim ih =>
    obtain ⟨portions, htokens, hkept, hsound⟩ := ih (hspaced.of_cons.behind claim.pair)
    refine ⟨claim.portion word.token words :: portions, ?_, ?_, ?_⟩
    · rw [List.flatMap_cons, htokens]
      exact claim.tokens_append word.token words
    · rw [findings_cons_of_some hclaim, List.filterMap_cons, List.filterMap_cons, hkept]
      rfl
    · exact List.forall_mem_cons.2 ⟨Claim.isSound_portion hplain hspaced hclaim, hsound⟩

namespace Query

/-- The call to a compiler that can be asked. -/
theorem argv_of_flags {query : Query} {flags : List String} (hflags : query.kind.queryFlags? = some flags)
    (source : Text) :
    query.argv source = query.command :: query.arguments.flatMap Token.values ++
      flags.map (·.toList) ++ [if source.isEmpty then query.sourceName else source] := by
  rw [argv, hflags]

/-- **A query hands on tokens of the line, in order.** The line falls into portions; those that are kept
are the arguments of the query, and the call consists of the command, the tokens of the kept portions,
the flags of the query and the source file. None of these tokens stands for nothing. -/
theorem argv_of_portions (language : String) (kind : BuiltinsKind) (flags : List String)
    (hflags : kind.queryFlags? = some flags) (rules : List OptionRule)
    (hplain : ∀ rule ∈ rules, rule.hasPlainNames = true) (outcome : Outcome)
    (htoolchain : outcome.probe.signature.toolchain = .ofRules language kind rules)
    (directory source : Text) :
    let line := outcome.invocation.arguments
    let parsed := Detector.parseArguments outcome directory
    let query := Query.ofOutcome outcome (some parsed)
    ∃ portions : List Portion,
      portions.flatMap Portion.tokens = Token.list line ∧
      portions.filterMap Portion.kept = parsed.builtinArguments ∧
      (∀ portion ∈ portions, ∀ argument, portion.kept = some argument →
        Token.IsArgument argument portion.tokens) ∧
      (Portion.keptTokens portions).Sublist (Token.list line) ∧
      (∀ token ∈ Portion.keptTokens portions, token.value ≠ []) ∧
      query.argv source =
        outcome.invocation.command :: (Portion.keptTokens portions).map Token.value ++
          flags.map (·.toList) ++ [if source.isEmpty then query.sourceName else source] := by
  intro line parsed query
  obtain ⟨portions, htokens, hkept, hsound⟩ :=
    exists_portions hplain (Word.spaced_list line) directory
  rw [← Word.token_list_eq] at htokens
  have hparsed : parsed = .ofFindings (findings rules directory (Word.list line)) := by
    rw [← Toolchain.parse_eq language kind hplain, ← htoolchain]
    rfl
  have harguments : portions.filterMap Portion.kept = parsed.builtinArguments := by
    rw [hkept, hparsed]
    rfl
  refine ⟨portions, htokens, harguments, ?_, ?_, Portion.value_ne_nil_of_mem_keptTokens hsound, ?_⟩
  · intro portion hportion argument hargument
    exact (hsound portion hportion argument hargument).1
  · rw [← htokens]
    exact Portion.keptTokens_sublist portions
  · have hquery : query.kind.queryFlags? = some flags := by
      rw [← hflags]
      exact congrArg (fun toolchain => toolchain.builtins.queryFlags?) htoolchain
    have hvalues : query.arguments.flatMap Token.values =
        (Portion.keptTokens portions).map Token.value := by
      rw [← Portion.values_kept hsound, harguments]
      rfl
    rw [argv_of_flags hquery, hvalues]
    rfl

/-- A line with an option in quotes, a value of its own in quotes that holds another quote, and a group
that is never closed. -/
theorem argv_of_portions_quoted :
    let line := " \"-std=c++17\" -DX=1 --sysroot\t'/a \"b' c.cpp -isysroot/x\"y -m32".toList
    let outcome : Outcome :=
      ⟨⟨4, Registry.portable "ppu-g++" .gnuCpp, .basename, .posix⟩, ⟨"/usr/bin/ppu-g++".toList, line⟩⟩
    let query := Query.ofOutcome outcome (some (Detector.parseArguments outcome "/b".toList))
    BuiltinsKind.gcc.queryFlags? = some ["-E", "-P", "-dM", "-Wp,-v"] ∧
    (∀ rule ∈ gnuRules, rule.hasPlainNames = true) ∧
    outcome.probe.signature.toolchain = .ofRules "c++" .gcc gnuRules ∧
    query.argv [] = ["/usr/bin/ppu-g++".toList, "-std=c++17".toList, "--sysroot".toList, "/a \"b".toList,
      "-isysroot/xy -m32".toList, "-E".toList, "-P".toList, "-dM".toList, "-Wp,-v".toList,
      "spec.cpp".toList] ∧
    ∃ portions : List Portion,
      portions.flatMap Portion.tokens = Token.list line ∧
      (Portion.keptTokens portions).Sublist (Token.list line) ∧
      query.argv [] = "/usr/bin/ppu-g++".toList :: (Portion.keptTokens portions).map Token.value ++
        ["-E".toList, "-P".toList, "-dM".toList, "-Wp,-v".toList] ++ ["spec.cpp".toList] := by
  intro line outcome query
  have hflags : BuiltinsKind.gcc.queryFlags? = some ["-E", "-P", "-dM", "-Wp,-v"] := rfl
  have hplain : ∀ rule ∈ gnuRules, rule.hasPlainNames = true := by decide
  have htoolchain : outcome.probe.signature.toolchain = .ofRules "c++" .gcc gnuRules := rfl
  obtain ⟨portions, htokens, -, -, hsublist, -, hargv⟩ :=
    argv_of_portions "c++" .gcc _ hflags gnuRules hplain outcome htoolchain "/b".toList []
  exact ⟨hflags, hplain, htoolchain, by decide +kernel, portions, htokens, hsublist, hargv⟩

end Query
end BuildLog
