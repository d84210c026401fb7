import BuildLog.Proofs.ArgumentRun

/-!
# Lines behind one another

What a part of a line says does not depend on what stands in front of it or behind it.

* `findings_append`: what is found in two rows of words, unless the first one ends with a name that
  asks for a value;
* `Toolchain.parse_append`: what is found in two lines with blanks in between.
-/

namespace BuildLog

variable {rules : List OptionRule} {directory : Text} {words others : List Word}

/-! ## Rows behind one another -/

namespace Word

variable {word : Word}

theorem next?_append (h : words ≠ []) (others : List Word) : next? (words ++ others) = next? words := by
  cases words with
  | nil => exact absurd rfl h
  | cons word words => rfl

theorem written_append (h : words ≠ []) (others : List Word) (token : Token) (pair : Bool) :
    written token (words ++ others) pair = written token words pair := by
  cases words with
  | nil => exact absurd rfl h
  | cons word words => rfl

theorem behind_append (h : words ≠ []) (others : List Word) (pair : Bool) :
    behind (words ++ others) pair = behind words pair ++ others := by
  cases words with
  | nil => exact absurd rfl h
  | cons word words => cases pair <;> rfl

end Word

/-- The last word of a row is no name behind which the value may be the next token. -/
def AsksForNothing (rules : List OptionRule) (words : List Word) : Prop :=
  ∀ word, words.getLast? = some word → ∀ rule ∈ rules, word.token.raw ∉ rule.separateNames

theorem AsksForNothing.of_isSuffix (h : AsksForNothing rules words) (hsuffix : others <:+ words) :
    AsksForNothing rules others := by
  obtain ⟨front, rfl⟩ := hsuffix
  intro word hlast
  exact h word (by rw [List.getLast?_append, hlast, Option.some_or])

/-- What is claimed at a word is the same if other words follow the row. -/
theorem claimOf_append {word : Word} (h : AsksForNothing rules (word :: words)) (directory : Text)
    (others : List Word) :
    claimOf rules directory word.token (Word.next? (words ++ others)) =
      claimOf rules directory word.token (Word.next? words) := by
  by_cases hwords : words = []
  · subst hwords
    exact claimOf_of_not_mem_separateNames (h word rfl)
  · rw [Word.next?_append hwords]

/-- What is found in two rows is found in each of them, unless the first one ends with a name that asks
for a value. -/
theorem findings_append (h : AsksForNothing rules words) (others : List Word) :
    findings rules directory (words ++ others) =
      findings rules directory words ++ findings rules directory others := by
  induction words using findings.induct rules directory with
  | case1 => simp [findings]
  | case2 word words hclaim ih =>
    have hboth := claimOf_append h directory others
    rw [hclaim] at hboth
    rw [List.cons_append, findings_cons_of_none hclaim, findings_cons_of_none hboth]
    exact ih (h.of_isSuffix (List.suffix_cons word words))
  | case3 word words claim hclaim ih =>
    have hboth := claimOf_append h directory others
    rw [hclaim] at hboth
    have hrest := ih (h.of_isSuffix ((Word.behind_isSuffix words _).trans (List.suffix_cons word words)))
    rw [List.cons_append, findings_cons_of_some hclaim, findings_cons_of_some hboth]
    by_cases hwords : words = []
    · -- the claim is for the last word alone
      subst hwords
      have hpair := pair_of_claimOf_none hclaim
      simp only [Claim.finding, Word.written, Word.behind, hpair, Bool.false_eq_true, if_false] at hrest ⊢
      rw [hrest, List.cons_append]
    · rw [Claim.finding, Claim.finding, Word.written_append hwords, Word.behind_append hwords, hrest,
        List.cons_append]

/-! ## Lines behind one another -/

/-- Blanks in front of a text say nothing. -/
theorem findings_list_gap_append {gap : Text} (hgap : gap.all Text.isBlank = true) (text : Text) :
    findings rules directory (Word.list (gap ++ text)) = findings rules directory (Word.list text) := by
  rw [Word.list_gap_append hgap]
  cases Word.list text with
  | nil => rfl
  | cons word words => rw [List.modifyHead_cons, findings, findings]

/-- What is found in a text stays the same in front of another, and so does what is found in the other,
if the first one has no open group and does not ask for a value. -/
theorem findings_list_append {first second : Text}
    (hclosed : ∀ token ∈ Token.list first, token.isClosed = true)
    (hlast : AsksForNothing rules (Word.list first)) (hsecond : Text.startsBlank second = true) :
    findings rules directory (Word.list (first ++ second)) =
      findings rules directory (Word.list first) ++ findings rules directory (Word.list second) := by
  obtain ⟨gap, hgap, hlist⟩ := Word.exists_list_append hclosed hsecond
  rw [hlist, findings_append hlast, findings_list_gap_append hgap]

/-- A line of parts with spaces in between is the first part, and behind it what the line of the other
parts says. -/
theorem exists_joined_cons (part : Text) (parts : List Text) :
    ∃ tail, Text.joined [' '] (part :: parts) = part ++ tail ∧ Text.startsBlank tail = true ∧
      (parts = [] → tail = []) ∧ ∀ rules directory,
        findings rules directory (Word.list tail) =
          findings rules directory (Word.list (Text.joined [' '] parts)) := by
  cases parts with
  | nil => exact ⟨[], by simp [Text.joined], rfl, fun _ => rfl, fun _ _ => rfl⟩
  | cons next parts =>
    refine ⟨[' '] ++ Text.joined [' '] (next :: parts), ?_, rfl, nofun, ?_⟩
    · rw [Text.joined, List.intercalate_cons_cons, List.append_assoc]
      rfl
    · intro rules directory
      exact findings_list_gap_append rfl _

namespace Toolchain

/-- Two lines with blanks in between say what each of them says, in this order, if all groups of the
first one are closed and its last token is no name that asks for a value. -/
theorem parse_append (language : String) (kind : BuiltinsKind) (rules : List OptionRule)
    (hplain : ∀ rule ∈ rules, rule.hasPlainNames = true) (directory first gap second : Text)
    (hgap : gap ≠ [] ∧ gap.all Text.isBlank = true)
    (hclosed : ∀ token ∈ Token.list first, token.isClosed = true)
    (hlast : ∀ token, (Token.list first).getLast? = some token →
      ∀ rule ∈ rules, token.raw ∉ rule.separateNames) :
    let parse := (ofRules language kind rules).parse directory
    (parse (first ++ gap ++ second)).entries = (parse first).entries ++ (parse second).entries ∧
    (parse (first ++ gap ++ second)).builtinArguments =
      (parse first).builtinArguments ++ (parse second).builtinArguments := by
  intro parse
  have hasks : AsksForNothing rules (Word.list first) := by
    intro word hword
    refine hlast word.token ?_
    rw [Word.token_list_eq, List.getLast?_map, hword, Option.map_some]
  have hblank : Text.startsBlank (gap ++ second) = true :=
    Text.startsBlank_gap_append hgap.2 hgap.1 second
  have hboth : findings rules directory (Word.list (first ++ gap ++ second)) =
      findings rules directory (Word.list first) ++ findings rules directory (Word.list second) := by
    rw [List.append_assoc, findings_list_append hclosed hasks hblank, findings_list_gap_append hgap.2]
  simp only [parse, parse_eq language kind hplain, hboth, ParsedArguments.ofFindings,
    List.filterMap_append, and_self]

/-- A line that ends with an option, and one that starts with an option whose value is the next token. -/
theorem parse_append_includes :
    let first := "-D'X=a b' -I/x\\\"y -c".toList
    let gap := "\t ".toList
    let second := "-I \"/a b\" -std=c11".toList
    (∀ rule ∈ gnuRules, rule.hasPlainNames = true) ∧
    (gap ≠ [] ∧ gap.all Text.isBlank = true) ∧
    (∀ token ∈ Token.list first, token.isClosed = true) ∧
    (∀ token, (Token.list first).getLast? = some token →
      ∀ rule ∈ gnuRules, token.raw ∉ rule.separateNames) ∧
    (gnuC.parse [] (first ++ gap ++ second)).entries =
      (gnuC.parse [] first).entries ++ (gnuC.parse [] second).entries ∧
    (gnuC.parse [] (first ++ gap ++ second)).builtinArguments =
      (gnuC.parse [] first).builtinArguments ++ (gnuC.parse [] second).builtinArguments := by
  intro first gap second
  have hplain : ∀ rule ∈ gnuRules, rule.hasPlainNames = true := by decide
  have hgap : gap ≠ [] ∧ gap.all Text.isBlank = true := by decide
  have hclosed : ∀ token ∈ Token.list first, token.isClosed = true := by decide
  have hlast : ∀ token, (Token.list first).getLast? = some token →
      ∀ rule ∈ gnuRules, token.raw ∉ rule.separateNames := by
    intro token htoken
    have hc : (Token.list first).getLast? = some ⟨"-c".toList, "-c".toList⟩ := by decide
    rw [hc] at htoken
    cases htoken
    decide
  exact ⟨hplain, hgap, hclosed, hlast,
    parse_append "c" .gcc gnuRules hplain [] first gap second hgap hclosed hlast⟩

end Toolchain

end BuildLog
