import BuildLog.Proofs.RulesOnTokens
import BuildLog.Toolchain

/-!
# Reading a line of arguments

* `findings`: what rules find in a row of words, one after the other. `Toolchain.parse_eq`: that is what
  is found in a line;
* `Toolchain.Visits`: the states that the reading of a line goes through, and `Toolchain.visits_parse`:
  it ends with what is found in the line;
* `Toolchain.reads_whole_tokens`: each argument that is read is one token or two, and what is found
  depends on the tokens alone.
-/

namespace BuildLog

variable {rules : List OptionRule} {directory rest : Text} {token : Token} {words : List Word}

/-! ## One argument -/

theorem Claim.width_pos (h : token.Before rest) (words : List Word) (claim : Claim) :
    0 < claim.width token words := by
  have hraw := h.raw_length_pos
  rw [width, Word.written]
  split
  · rw [List.length_append]
    omega
  · exact hraw

namespace Toolchain

theorem offer_cons (rule : OptionRule) (readers : List ArgumentReader) (directory text : Text)
    (parsed : ParsedArguments) :
    offer directory text (rule.reader :: readers) parsed =
      match (rule.take? directory text).toOption.join with
      | none => offer directory text readers parsed
      | some (finding, width) =>
        if 0 < width then (parsed.add finding, width)
        else offer directory text readers (parsed.add finding) := by
  rw [offer, OptionRule.reader]
  cases rule.take? directory text with
  | error error => rfl
  | ok taken =>
    cases taken with
    | none => rfl
    | some taken => simp [Except.toOption]

/-- What the first token and the one behind it say is what is taken from the text. -/
theorem offer_eq (hplain : ∀ rule ∈ rules, rule.hasPlainNames = true) (h : token.Before rest)
    (parsed : ParsedArguments) :
    offer directory (token.raw ++ rest) (rules.map (·.reader)) parsed =
      match claimOf rules directory token (Word.next? (Word.list rest)) with
      | none => (parsed, 0)
      | some claim =>
        (parsed.add (claim.finding token (Word.list rest)), claim.width token (Word.list rest)) := by
  induction rules with
  | nil => rfl
  | cons rule rules ih =>
    have hrules := ih fun rule hmem => hplain rule (List.mem_cons_of_mem _ hmem)
    rw [List.map_cons, offer_cons, OptionRule.take?_eq (hplain rule (List.mem_cons_self ..)) h, hrules,
      claimOf, claimOf, List.findSome?_cons]
    cases rule.claim? directory token (Word.next? (Word.list rest)) with
    | none => rfl
    | some claim => simp [Claim.width_pos h]

/-- One step reads what is claimed, or skips the token. -/
theorem step_eq (hplain : ∀ rule ∈ rules, rule.hasPlainNames = true) (h : token.Before rest)
    (directory : Text) (parsed : ParsedArguments) :
    step (rules.map (·.reader)) directory (token.raw ++ rest) parsed =
      match claimOf rules directory token (Word.next? (Word.list rest)) with
      | none => (parsed, token.raw.length)
      | some claim =>
        (parsed.add (claim.finding token (Word.list rest)), claim.width token (Word.list rest)) := by
  rw [step, offer_eq hplain h, h.read_eq]
  cases claimOf rules directory token (Word.next? (Word.list rest)) with
  | none => rfl
  | some claim =>
    have hpos := claim.width_pos h (Word.list rest)
    dsimp only
    split
    · rename_i hzero
      have hwidth := (Prod.mk.inj hzero).2
      omega
    · rfl

/-! ## All arguments -/

theorem parseFrom_eq_drop (readers : List ArgumentReader) (directory : Text) (skip : Nat) (text : Text)
    (parsed : ParsedArguments) :
    parseFrom readers directory skip text parsed =
      parseFrom readers directory 0 (text.drop skip) parsed := by
  induction text generalizing skip with
  | nil => cases skip <;> simp [parseFrom]
  | cons c text ih =>
    cases skip with
    | zero => rfl
    | succ skip => simpa [parseFrom] using ih skip

theorem parseFrom_gap_append (readers : List ArgumentReader) (directory : Text) {gap : Text}
    (hgap : gap.all Text.isBlank = true) (text : Text) (parsed : ParsedArguments) :
    parseFrom readers directory 0 (gap ++ text) parsed = parseFrom readers directory 0 text parsed := by
  induction gap with
  | nil => rfl
  | cons c gap ih =>
    simp only [List.all_cons, Bool.and_eq_true] at hgap
    rw [← ih hgap.2, List.cons_append, parseFrom, if_pos hgap.1]

/-- Behind an argument, reading goes on with what was found. -/
theorem parseFrom_of_not_blank (readers : List ArgumentReader) (directory : Text) {text : Text}
    (h : Text.startsBlank text = false) (parsed : ParsedArguments)
    (hpos : 0 < (step readers directory text parsed).2) :
    parseFrom readers directory 0 text parsed =
      parseFrom readers directory 0 (text.drop (step readers directory text parsed).2)
        (step readers directory text parsed).1 := by
  cases text with
  | nil => cases h
  | cons c text =>
    have hc : Text.isBlank c = false := h
    obtain ⟨width, hwidth⟩ := Nat.exists_eq_succ_of_ne_zero (Nat.ne_of_gt hpos)
    rw [parseFrom, if_neg (by simp [hc]), parseFrom_eq_drop, hwidth]
    rfl

/-- What is claimed is added to what was found, and reading goes on behind it. -/
theorem parseFrom_append (hplain : ∀ rule ∈ rules, rule.hasPlainNames = true) (h : token.Before rest)
    (parsed : ParsedArguments) :
    parseFrom (rules.map (·.reader)) directory 0 (token.raw ++ rest) parsed =
      match claimOf rules directory token (Word.next? (Word.list rest)) with
      | none => parseFrom (rules.map (·.reader)) directory 0 rest parsed
      | some claim =>
        parseFrom (rules.map (·.reader)) directory 0
          ((token.raw ++ rest).drop (claim.width token (Word.list rest)))
          (parsed.add (claim.finding token (Word.list rest))) := by
  have hblank := Text.startsBlank_append h.not_blank rest
  have hstep := step_eq hplain h directory parsed
  have hgo := parseFrom_of_not_blank (rules.map (·.reader)) directory hblank parsed
  rw [hstep] at hgo
  cases hclaim : claimOf rules directory token (Word.next? (Word.list rest)) with
  | none =>
    simp only [hclaim, List.drop_left] at hgo
    exact hgo h.raw_length_pos
  | some claim =>
    simp only [hclaim] at hgo
    exact hgo (claim.width_pos h _)

end Toolchain

/-- What rules find in a row of words: at each word they take something, or the word is skipped. -/
def findings (rules : List OptionRule) (directory : Text) : List Word → List Finding
  | [] => []
  | word :: words =>
    match claimOf rules directory word.token (Word.next? words) with
    | none => findings rules directory words
    | some claim =>
      claim.finding word.token words :: findings rules directory (Word.behind words claim.pair)
termination_by words => words.length
decreasing_by
  · simp
  · have hle := (Word.behind_isSuffix words claim.pair).length_le
    simp only [List.length_cons]
    omega

theorem findings_cons_of_none {word : Word}
    (h : claimOf rules directory word.token (Word.next? words) = none) :
    findings rules directory (word :: words) = findings rules directory words := by
  rw [findings]
  simp only [h]

theorem findings_cons_of_some {word : Word} {claim : Claim}
    (h : claimOf rules directory word.token (Word.next? words) = some claim) :
    findings rules directory (word :: words) =
      claim.finding word.token words :: findings rules directory (Word.behind words claim.pair) := by
  rw [findings]
  simp only [h]

/-- What is claimed at the first token of a text is found first. -/
theorem findings_append_of_claim {claim : Claim} (h : token.Before rest)
    (hclaim : claimOf rules directory token (Word.next? (Word.list rest)) = some claim) :
    findings rules directory (Word.list (token.raw ++ rest)) =
      claim.finding token (Word.list rest) ::
        findings rules directory (Word.behind (Word.list rest) claim.pair) := by
  have hlist : Word.list ([] ++ (token.raw ++ rest)) = ⟨[], token⟩ :: Word.list rest :=
    Word.list_append rfl h
  rw [List.nil_append] at hlist
  rw [hlist]
  exact findings_cons_of_some hclaim

/-- Reading a text adds what the rules find in its words. -/
theorem Toolchain.parseFrom_eq (hplain : ∀ rule ∈ rules, rule.hasPlainNames = true) (text : Text)
    (parsed : ParsedArguments) :
    parseFrom (rules.map (·.reader)) directory 0 text parsed =
      (findings rules directory (Word.list text)).foldl ParsedArguments.add parsed := by
  -- on the words of what remains, with anything found before
  generalize hlist : Word.list text = words
  induction words using findings.induct rules directory generalizing text parsed with
  | case1 =>
    have hblank := Word.all_isBlank_of_list_eq_nil hlist
    have hgap := parseFrom_gap_append (rules.map (·.reader)) directory hblank [] parsed
    rw [List.append_nil] at hgap
    rw [hgap, findings, List.foldl_nil, parseFrom]
  | case2 word words hclaim ih =>
    obtain ⟨rest, rfl, hgap, hbefore, rfl⟩ := Word.exists_of_list_eq_cons hlist
    rw [parseFrom_gap_append _ _ hgap, parseFrom_append hplain hbefore, findings_cons_of_none hclaim]
    simp only [hclaim]
    exact ih rest parsed rfl
  | case3 word words claim hclaim ih =>
    obtain ⟨rest, rfl, hgap, hbefore, rfl⟩ := Word.exists_of_list_eq_cons hlist
    rw [parseFrom_gap_append _ _ hgap, parseFrom_append hplain hbefore, findings_cons_of_some hclaim]
    simp only [hclaim]
    exact ih _ _ (Word.list_drop_length_written ..)

/-! ## Findings -/

namespace Finding

/-- The entry of a finding. -/
def entry? : Finding → Option Entry
  | .entry fact => some fact
  | .builtin _ => none

/-- The argument that a finding keeps as it was written. -/
def argument? : Finding → Option Text
  | .entry _ => none
  | .builtin argument => some argument

/-- What a finding says, with the values of the tokens in place of a written argument. -/
def tokenized : Finding → Entry ⊕ List Text
  | .entry fact => .inl fact
  | .builtin argument => .inr (Token.values argument)

end Finding

/-- Findings in order, the entries apart from the arguments that are kept as written. -/
def ParsedArguments.ofFindings (findings : List Finding) : ParsedArguments :=
  ⟨findings.filterMap Finding.entry?, findings.filterMap Finding.argument?⟩

theorem ParsedArguments.foldl_add (findings : List Finding) (parsed : ParsedArguments) :
    findings.foldl add parsed =
      ⟨parsed.entries ++ (ofFindings findings).entries,
        parsed.builtinArguments ++ (ofFindings findings).builtinArguments⟩ := by
  induction findings generalizing parsed with
  | nil => simp [ofFindings]
  | cons finding findings ih =>
    rw [List.foldl_cons, ih]
    cases finding <;>
      simp [add, ofFindings, List.filterMap_cons, Finding.entry?, Finding.argument?]

theorem ParsedArguments.ofFindings_map_entry (entries : List Entry) :
    ofFindings (entries.map .entry) = ⟨entries, []⟩ := by
  simp [ofFindings, List.filterMap_map, Finding.entry?, Finding.argument?, Function.comp_def]

theorem ParsedArguments.ofFindings_map_builtin (arguments : List Text) :
    ofFindings (arguments.map .builtin) = ⟨[], arguments⟩ := by
  simp [ofFindings, List.filterMap_map, Finding.entry?, Finding.argument?, Function.comp_def]

/-- Findings that say the same, apart from the blanks in written arguments, make up accounts that do. -/
theorem ParsedArguments.ofFindings_of_same_tokenized {first second : List Finding}
    (h : first.map Finding.tokenized = second.map Finding.tokenized) :
    (ofFindings first).entries = (ofFindings second).entries ∧
      (ofFindings first).builtinArguments.map Token.values =
        (ofFindings second).builtinArguments.map Token.values := by
  have hentries : ∀ findings : List Finding,
      (ofFindings findings).entries = (findings.map Finding.tokenized).filterMap Sum.getLeft? := by
    intro findings
    rw [List.filterMap_map]
    exact List.filterMap_congr fun finding _ => by cases finding <;> rfl
  have harguments : ∀ findings : List Finding, (ofFindings findings).builtinArguments.map Token.values =
      (findings.map Finding.tokenized).filterMap Sum.getRight? := by
    intro findings
    change (findings.filterMap Finding.argument?).map Token.values = _
    rw [List.filterMap_map, List.map_filterMap]
    exact List.filterMap_congr fun finding _ => by cases finding <;> rfl
  rw [hentries, hentries, harguments, harguments, h]
  exact ⟨rfl, rfl⟩

/-- What is found in a line is what the rules find in its words. -/
theorem Toolchain.parse_eq (language : String) (kind : BuiltinsKind)
    (hplain : ∀ rule ∈ rules, rule.hasPlainNames = true) (directory text : Text) :
    (ofRules language kind rules).parse directory text =
      .ofFindings (findings rules directory (Word.list text)) := by
  rw [parse, ofRules, parseFrom_eq hplain, ParsedArguments.foldl_add]
  rfl

/-- In a row of one word, the rules find what they say about its token alone. -/
theorem findings_singleton (rules : List OptionRule) (directory : Text) (word : Word) :
    findings rules directory [word] =
      ((claimOf rules directory word.token none).map fun claim =>
        claim.sense.finding word.token.raw).toList := by
  cases hclaim : claimOf rules directory word.token none with
  | none =>
    rw [findings_cons_of_none hclaim, findings]
    rfl
  | some claim =>
    have hpair := pair_of_claimOf_none hclaim
    rw [findings_cons_of_some hclaim]
    simp [Claim.finding, Word.written, Word.behind, hpair, findings]

/-- What is found in a line of one token is what the rules say about it. -/
theorem Toolchain.parse_raw (language : String) (kind : BuiltinsKind)
    (hplain : ∀ rule ∈ rules, rule.hasPlainNames = true) (directory : Text) (h : token.Before []) :
    (ofRules language kind rules).parse directory token.raw =
      .ofFindings ((claimOf rules directory token none).map fun claim =>
        claim.sense.finding token.raw).toList := by
  have hlist : Word.list ([] ++ (token.raw ++ [])) = ⟨[], token⟩ :: Word.list [] :=
    Word.list_append rfl h
  have hnil : Word.list [] = [] := Word.list_of_blanks rfl
  rw [List.nil_append, List.append_nil, hnil] at hlist
  rw [parse_eq language kind hplain, hlist, findings_singleton]

/-- What a claim says depends on the tokens alone. -/
theorem Claim.tokenized_finding {word other : Word} {others : List Word} (claim : Claim)
    (hwords : Word.Spaced (word :: words)) (hothers : Word.Spaced (other :: others))
    (h : (word :: words).map Word.token = (other :: others).map Word.token) :
    (claim.finding word.token words).tokenized = (claim.finding other.token others).tokenized := by
  obtain ⟨htoken, htokens⟩ := List.cons.inj h
  cases hsense : claim.sense with
  | entry fact => simp [finding, hsense, Sense.finding, Finding.tokenized]
  | verbatim =>
    have hvalues : Token.values (Word.written word.token words claim.pair) =
        Token.values (Word.written other.token others claim.pair) := by
      rw [Token.values, Token.values, Word.list_written hwords, Word.list_written hothers, htoken,
        List.map_take, List.map_take, htokens]
    simp [finding, hsense, Sense.finding, Finding.tokenized, hvalues]

/-- What is found depends on the tokens alone. -/
theorem findings_of_same_tokens (rules : List OptionRule) (directory : Text) {others : List Word}
    (hwords : Word.Spaced words) (hothers : Word.Spaced others)
    (h : words.map Word.token = others.map Word.token) :
    (findings rules directory words).map Finding.tokenized =
      (findings rules directory others).map Finding.tokenized := by
  induction words using findings.induct rules directory generalizing others with
  | case1 =>
    cases others with
    | nil => rfl
    | cons other others => cases h
  | case2 word words hclaim ih =>
    cases others with
    | nil => cases h
    | cons other others =>
      obtain ⟨htoken, htokens⟩ := List.cons.inj h
      have hother := hclaim
      rw [htoken, Word.next?_of_same_tokens htokens] at hother
      rw [findings_cons_of_none hclaim, findings_cons_of_none hother]
      exact ih hwords.of_cons hothers.of_cons htokens
  | case3 word words claim hclaim ih =>
    cases others with
    | nil => cases h
    | cons other others =>
      obtain ⟨htoken, htokens⟩ := List.cons.inj h
      have hother := hclaim
      rw [htoken, Word.next?_of_same_tokens htokens] at hother
      have hrest := ih (hwords.of_cons.behind _) (hothers.of_cons.behind _)
        (Word.behind_of_same_tokens htokens _)
      rw [findings_cons_of_some hclaim, findings_cons_of_some hother, List.map_cons, List.map_cons,
        claim.tokenized_finding hwords hothers h, hrest]

/-! ## The states of the reading -/

/-- The text of an argument: one token, or two with blanks in between. -/
inductive Token.IsArgument : Text → List Token → Prop
  | one (token : Token) : IsArgument token.raw [token]
  | two (first second : Token) (gap : Text) : gap ≠ [] → gap.all Text.isBlank = true →
    IsArgument (first.raw ++ gap ++ second.raw) [first, second]

namespace Toolchain

/-- A state of the reading of a line: what remains of it, without leading blanks, and what was found. -/
structure Cursor where
  rest : Text
  parsed : ParsedArguments

/-- The number of characters that are read from here in one step. -/
def Cursor.width (toolchain : Toolchain) (directory : Text) (cursor : Cursor) : Nat :=
  (step toolchain.readers directory cursor.rest cursor.parsed).2

/-- The state behind the next argument and the blanks that follow. -/
def Cursor.next (toolchain : Toolchain) (directory : Text) (cursor : Cursor) : Cursor :=
  ⟨Text.trimStart (cursor.rest.drop (cursor.width toolchain directory)),
    (step toolchain.readers directory cursor.rest cursor.parsed).1⟩

/-- The states that the reading of a line goes through. -/
inductive Visits (toolchain : Toolchain) (directory text : Text) : Cursor → Prop
  | start : Visits toolchain directory text ⟨Text.trimStart text, .none⟩
  | next (cursor : Cursor) : Visits toolchain directory text cursor → cursor.rest ≠ [] →
    Visits toolchain directory text (cursor.next toolchain directory)

variable {toolchain : Toolchain} {text : Text} {cursor : Cursor}

theorem step_pos (readers : List ArgumentReader) (directory : Text) {text : Text}
    (h : Text.startsBlank text = false) (parsed : ParsedArguments) :
    0 < (step readers directory text parsed).2 := by
  rw [step]
  split
  · cases text with
    | nil => cases h
    | cons c text => exact Token.width_pos h
  · rename_i hne
    refine Nat.pos_of_ne_zero fun hzero => hne (offer directory text readers parsed).1 ?_
    rw [← hzero]

theorem Visits.not_blank (h : toolchain.Visits directory text cursor) (hrest : cursor.rest ≠ []) :
    Text.startsBlank cursor.rest = false := by
  have htrim : ∀ text, Text.trimStart text ≠ [] → Text.startsBlank (Text.trimStart text) = false := by
    intro text hne
    cases htrim : Text.trimStart text with
    | nil => exact absurd htrim hne
    | cons c rest => exact Text.isBlank_of_trimStart htrim
  cases h with
  | start => exact htrim _ hrest
  | next cursor _ _ => exact htrim _ hrest

theorem parseFrom_trimStart (readers : List ArgumentReader) (directory text : Text)
    (parsed : ParsedArguments) :
    parseFrom readers directory 0 (Text.trimStart text) parsed =
      parseFrom readers directory 0 text parsed := by
  rw [← parseFrom_gap_append readers directory List.all_takeWhile (Text.trimStart text),
    Text.takeWhile_append_trimStart]

/-- From every state on, the reading goes on to what is found in the line. -/
theorem parse_of_visits (h : toolchain.Visits directory text cursor) :
    parseFrom toolchain.readers directory 0 cursor.rest cursor.parsed =
      toolchain.parse directory text := by
  induction h with
  | start => exact parseFrom_trimStart ..
  | next cursor hcursor hrest ih =>
    have hblank := hcursor.not_blank hrest
    rw [← ih, parseFrom_of_not_blank _ _ hblank _ (step_pos _ _ hblank _)]
    exact parseFrom_trimStart ..

theorem Visits.eq_of_rest_eq_nil (h : toolchain.Visits directory text cursor)
    (hrest : cursor.rest = []) : cursor = ⟨[], toolchain.parse directory text⟩ := by
  have hparse := parse_of_visits h
  cases cursor with
  | mk rest parsed =>
    subst hrest
    rw [parseFrom] at hparse
    rw [← hparse]

/-- Every step takes something. -/
theorem Visits.length_next_lt (h : toolchain.Visits directory text cursor) (hrest : cursor.rest ≠ []) :
    (cursor.next toolchain directory).rest.length < cursor.rest.length := by
  have hpos : 0 < cursor.width toolchain directory := step_pos _ _ (h.not_blank hrest) _
  have hle := Text.length_trimStart_le (cursor.rest.drop (cursor.width toolchain directory))
  have hlength := List.length_pos_iff.2 hrest
  rw [List.length_drop] at hle
  change (Text.trimStart _).length < _
  omega

/-- The reading comes to an end, with what is found in the line. -/
theorem visits_parse (toolchain : Toolchain) (directory text : Text) :
    toolchain.Visits directory text ⟨[], toolchain.parse directory text⟩ := by
  have hend : ∀ n cursor, toolchain.Visits directory text cursor → cursor.rest.length ≤ n →
      toolchain.Visits directory text ⟨[], toolchain.parse directory text⟩ := by
    intro n
    induction n with
    | zero =>
      intro cursor h hlength
      have hrest := List.eq_nil_of_length_eq_zero (Nat.le_zero.1 hlength)
      rw [← h.eq_of_rest_eq_nil hrest]
      exact h
    | succ n ih =>
      intro cursor h hlength
      by_cases hrest : cursor.rest = []
      · rw [← h.eq_of_rest_eq_nil hrest]
        exact h
      · have hlt := h.length_next_lt hrest
        exact ih _ (.next cursor h hrest) (by omega)
  exact hend _ _ .start (Nat.le_refl _)

/-- A step takes one token or two, and all other tokens are left. -/
theorem exists_argument_of_step (hplain : ∀ rule ∈ rules, rule.hasPlainNames = true)
    (h : token.Before rest) (directory : Text) (parsed : ParsedArguments) :
    ∃ argument more taken, token.raw ++ rest = argument ++ more ∧ Token.IsArgument argument taken ∧
      argument.length = (step (rules.map (·.reader)) directory (token.raw ++ rest) parsed).2 ∧
      Token.list (token.raw ++ rest) = taken ++ Token.list more := by
  have hone : Token.list (token.raw ++ rest) = [token] ++ Token.list rest := h.list_eq
  rw [step_eq hplain h]
  cases hclaim : claimOf rules directory token (Word.next? (Word.list rest)) with
  | none => exact ⟨token.raw, rest, [token], rfl, .one token, rfl, hone⟩
  | some claim =>
    cases hpair : claim.pair with
    | false =>
      exact ⟨token.raw, rest, [token], rfl, .one token, by simp [Claim.width, Word.written, hpair], hone⟩
    | true =>
      cases hlist : Word.list rest with
      | nil =>
        rw [hlist] at hclaim
        rw [pair_of_claimOf_none hclaim] at hpair
        cases hpair
      | cons next words =>
        obtain ⟨more, rfl, hgap, hnext, -⟩ := Word.exists_of_list_eq_cons hlist
        have hne : next.gap ≠ [] :=
          Text.gap_ne_nil h.startsBlank (Text.startsBlank_append hnext.not_blank more)
        refine ⟨token.raw ++ next.gap ++ next.token.raw, more, [token, next.token], by simp,
          .two _ _ _ hne hgap, by simp [Claim.width, Word.written, Word.spelled, hpair], ?_⟩
        rw [hone, Token.list_gap_append hgap, hnext.list_eq]
        rfl

/-- In every state, the step takes one token or two of what remains. -/
theorem Visits.exists_argument (hplain : ∀ rule ∈ rules, rule.hasPlainNames = true)
    (hreaders : toolchain.readers = rules.map (·.reader))
    (h : toolchain.Visits directory text cursor) (hrest : cursor.rest ≠ []) :
    ∃ argument more taken, cursor.rest = argument ++ more ∧ Token.IsArgument argument taken ∧
      argument.length = cursor.width toolchain directory ∧
      (cursor.next toolchain directory).rest = Text.trimStart more ∧
      Token.list cursor.rest = taken ++ Token.list (cursor.next toolchain directory).rest := by
  have hwritten : (Token.read cursor.rest).raw ++ cursor.rest.drop (Token.read cursor.rest).width =
    cursor.rest := Token.raw_append_drop none cursor.rest
  have hbefore := Token.before_drop (h.not_blank hrest)
  obtain ⟨argument, more, taken, htext, hargument, hwidth, hlist⟩ :=
    exists_argument_of_step hplain hbefore directory cursor.parsed
  rw [hwritten] at htext hwidth hlist
  have hnext : (cursor.next toolchain directory).rest = Text.trimStart more := by
    rw [Cursor.next, Cursor.width, hreaders, ← hwidth, htext, List.drop_left]
  refine ⟨argument, more, taken, htext, hargument, ?_, hnext, ?_⟩
  · rw [hwidth, Cursor.width, hreaders]
  · rw [hlist, hnext, Token.list_trimStart]

/-- What remains in a state of the reading is the end of the line, and its tokens are the last ones. -/
theorem Visits.isSuffix (hplain : ∀ rule ∈ rules, rule.hasPlainNames = true)
    (hreaders : toolchain.readers = rules.map (·.reader))
    (h : toolchain.Visits directory text cursor) :
    cursor.rest <:+ text ∧ Token.list cursor.rest <:+ Token.list text := by
  induction h with
  | start =>
    rw [Token.list_trimStart]
    exact ⟨List.dropWhile_suffix _, List.suffix_rfl⟩
  | next cursor hcursor hrest ih =>
    obtain ⟨argument, more, taken, htext, -, -, hnext, hlist⟩ :=
      hcursor.exists_argument hplain hreaders hrest
    constructor
    · have htrim : Text.trimStart more <:+ more := List.dropWhile_suffix _
      rw [hnext]
      exact htrim.trans ((htext ▸ List.suffix_append argument more).trans ih.1)
    · exact (hlist ▸ List.suffix_append taken _).trans ih.2

/-- Reading a line goes step by step through its tokens, to the end of the line. Each step takes one
token or two with the blanks in between, and leaves the tokens behind them. Lines with the same tokens
say the same, apart from the blanks in the arguments that are kept as they were written. -/
theorem reads_whole_tokens (language : String) (kind : BuiltinsKind) (rules : List OptionRule)
    (hplain : ∀ rule ∈ rules, rule.hasPlainNames = true) (directory text : Text) :
    let toolchain := ofRules language kind rules
    toolchain.Visits directory text ⟨[], toolchain.parse directory text⟩ ∧
    (∀ cursor, toolchain.Visits directory text cursor → cursor.rest ≠ [] →
      ∃ argument more before taken after,
        cursor.rest = argument ++ more ∧ argument.length = cursor.width toolchain directory ∧
        Token.IsArgument argument taken ∧ cursor.rest <:+ text ∧
        Token.list text = before ++ taken ++ after ∧ Token.list cursor.rest = taken ++ after ∧
        Token.list (cursor.next toolchain directory).rest = after) ∧
    ∀ other, (Token.list text).map Token.raw = (Token.list other).map Token.raw →
      (toolchain.parse directory text).entries = (toolchain.parse directory other).entries ∧
      (toolchain.parse directory text).builtinArguments.map Token.values =
        (toolchain.parse directory other).builtinArguments.map Token.values := by
  intro toolchain
  refine ⟨visits_parse .., ?_, ?_⟩
  · intro cursor hcursor hrest
    obtain ⟨argument, more, taken, htext, hargument, hwidth, -, hlist⟩ :=
      hcursor.exists_argument hplain rfl hrest
    obtain ⟨hsuffix, before, hbefore⟩ := hcursor.isSuffix hplain rfl
    refine ⟨argument, more, before, taken, _, htext, hwidth, hargument, hsuffix, ?_, hlist, rfl⟩
    rw [List.append_assoc, ← hlist, hbefore]
  · intro other hraw
    have htokens : (Word.list text).map Word.token = (Word.list other).map Word.token := by
      rw [← Word.token_list_eq, ← Word.token_list_eq]
      exact Token.list_eq_of_raw hraw
    have hsame := findings_of_same_tokens rules directory (Word.spaced_list text)
      (Word.spaced_list other) htokens
    rw [parse_eq language kind hplain, parse_eq language kind hplain]
    exact ParsedArguments.ofFindings_of_same_tokenized hsame

/-- Blanks are of no account between an option and its value, and between the options. -/
theorem reads_whole_tokens_spaced_out :
    let text := "-I \"a b\" -isysroot\t/x'y z'".toList
    let other := " -I\t\"a b\"\n -isysroot  /x'y z' ".toList
    (∀ rule ∈ gnuRules, rule.hasPlainNames = true) ∧
    (Token.list text).map Token.raw = (Token.list other).map Token.raw ∧
    (gnuC.parse "/b".toList text).entries = (gnuC.parse "/b".toList other).entries ∧
    (gnuC.parse "/b".toList text).builtinArguments.map Token.values =
      (gnuC.parse "/b".toList other).builtinArguments.map Token.values := by
  intro text other
  have hplain : ∀ rule ∈ gnuRules, rule.hasPlainNames = true := by decide
  have hraw : (Token.list text).map Token.raw = (Token.list other).map Token.raw := by decide
  obtain ⟨-, -, hsame⟩ := reads_whole_tokens "c" .gcc gnuRules hplain "/b".toList text
  exact ⟨hplain, hraw, hsame other hraw⟩

end Toolchain

end BuildLog
