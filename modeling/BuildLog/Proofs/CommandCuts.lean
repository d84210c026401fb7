import BuildLog.Invocation
import BuildLog.Proofs.WrittenTokens

/-!
# Cutting off commands

A line is cut behind its command. The cut can be undone, and the tokens of the line start with the
command, unless there are quotes inside it.

* `Invocation.StandsIn`: where the command and the arguments of a line are taken from;
* `Invocation.Shape`: what a line looks like. `Invocation.ofLine?_eq_some_iff` and
  `Invocation.ofLine?_eq_none_iff`: which command a line has, and when it has none (`LacksCommand`);
* `Invocation.ReadsBack`: the commands that are read back from the token they are written as.
  `Invocation.ofLine?_line_iff`: which lines of values are read back as a command and the others;
* `Invocation.cut_loses_nothing`: nothing is lost by the cut, and the command in front of the arguments is
  cut off again;
* `Invocation.first_token_iff`: for which commands the tokens of the line are the command and the tokens
  of the arguments.
-/

namespace BuildLog

namespace Invocation

variable {command arguments line rest text : Text} {invocation : Invocation} {texts : List Text}

/-! ## Behind an opening quote -/

/-- A quote that is never closed opens no command. -/
theorem ofQuoted?_of_not_mem (h : '"' ∉ text) : ofQuoted? text = none := by
  have hdrop : text.dropWhile (· != '"') = [] := by
    rw [List.dropWhile_eq_nil_iff]
    intro c hc
    simpa using ne_of_mem_of_not_mem hc h
  rw [ofQuoted?, hdrop]

/-- In front of a closing quote there is a command if it is not empty and a blank follows, or nothing. -/
theorem ofQuoted?_append (hquote : '"' ∉ command) (arguments : Text) :
    ofQuoted? (command ++ '"' :: arguments) =
      if command ≠ [] ∧ Text.startsBlank arguments = true then some ⟨command, arguments⟩ else none := by
  have hinside : ∀ c ∈ command, (c != '"') = true := by
    intro c hc
    simpa using ne_of_mem_of_not_mem hc hquote
  have hstop : ∀ c ∈ ('"' :: arguments).head?, (c != '"') = false := by simp
  rw [ofQuoted?, Text.takeWhile_append_of_stop hinside hstop, Text.dropWhile_append_of_stop hinside hstop]
  cases hstart : Text.startsBlank arguments <;> cases command <;> simp [hstart]

/-! ## What a line looks like -/

/-- What a line looks like behind its leading blanks. -/
inductive Shape (line : Text) : Prop
  /-- There is nothing but blanks. -/
  | blank (h : Text.isAllBlank line = true)
  /-- A word without a quote in front, and what follows it. -/
  | bare (command arguments : Text) (htext : Text.trimStart line = command ++ arguments)
      (hne : command ≠ []) (hhead : command.head? ≠ some '"')
      (hblank : command.any Text.isBlank = false) (harguments : Text.startsBlank arguments = true)
  /-- A quote that is never closed. -/
  | unclosed (text : Text) (htext : Text.trimStart line = '"' :: text) (hquote : '"' ∉ text)
  /-- A text in quotes, and what follows it. -/
  | quoted (inside rest : Text) (htext : Text.trimStart line = '"' :: (inside ++ '"' :: rest))
      (hquote : '"' ∉ inside)

theorem isAllBlank_iff : Text.isAllBlank line = true ↔ Text.trimStart line = [] := by
  rw [Text.isAllBlank, Text.trimStart, List.dropWhile_eq_nil_iff, List.all_eq_true]

/-- Every line has one of these shapes. -/
theorem shape (line : Text) : Shape line := by
  cases htrim : Text.trimStart line with
  | nil => exact .blank (isAllBlank_iff.2 htrim)
  | cons c text =>
    by_cases hc : c = '"'
    · subst hc
      by_cases hmem : '"' ∈ text
      · obtain ⟨inside, rest, rfl, hquote⟩ := List.eq_append_cons_of_mem hmem
        exact .quoted inside rest htrim hquote
      · exact .unclosed text htrim hmem
    · have hblank : Text.isBlank c = false := Text.isBlank_of_trimStart htrim
      have hword : (c :: text).takeWhile (!Text.isBlank ·) = c :: text.takeWhile (!Text.isBlank ·) := by
        simp [hblank]
      refine .bare ((c :: text).takeWhile (!Text.isBlank ·)) ((c :: text).dropWhile (!Text.isBlank ·))
        ?_ ?_ ?_ ?_ (Text.startsBlank_dropWhile _)
      · rw [htrim, List.takeWhile_append_dropWhile]
      · rw [hword]
        exact List.cons_ne_nil c _
      · rw [hword]
        simpa using hc
      · rw [List.any_eq_false]
        intro d hd
        have hnot := List.mem_takeWhile_imp hd
        simpa using hnot

theorem ofLine?_of_isAllBlank (h : Text.isAllBlank line = true) : ofLine? line = none := by
  rw [ofLine?, isAllBlank_iff.1 h]

theorem ofLine?_of_quote (h : Text.trimStart line = '"' :: text) : ofLine? line = ofQuoted? text := by
  rw [ofLine?, h]
  rfl

/-- A command without quotes around it ends at the first blank. -/
theorem ofLine?_of_bare (htext : Text.trimStart line = command ++ arguments) (hne : command ≠ [])
    (hhead : command.head? ≠ some '"') (hblank : command.any Text.isBlank = false)
    (harguments : Text.startsBlank arguments = true) :
    ofLine? line = some ⟨command, arguments⟩ := by
  have hword : ∀ c ∈ command, (!Text.isBlank c) = true := by
    intro c hc
    simpa using List.any_eq_false.1 hblank c hc
  have hstop : ∀ c ∈ arguments.head?, (!Text.isBlank c) = false := by
    intro c hc
    simpa using Text.startsBlank_iff.1 harguments c hc
  rw [ofLine?, htext]
  split
  · rename_i hnil
    exact absurd (List.append_eq_nil_iff.1 hnil).1 hne
  · rename_i text hquote
    have hfirst : (command ++ arguments).head? = some '"' := by rw [hquote, List.head?_cons]
    rw [List.head?_append_of_ne_nil _ hne] at hfirst
    exact absurd hfirst hhead
  · rw [Text.takeWhile_append_of_stop hword hstop, Text.dropWhile_append_of_stop hword hstop]

/-! ## The command of a line -/

/-- An invocation as it stands in a line: the whole command, in quotes or up to the first blank, and all
that follows, as it is written. -/
def StandsIn (line : Text) (invocation : Invocation) : Prop :=
  Text.startsBlank invocation.arguments = true ∧
    (Text.trimStart line = invocation.command ++ invocation.arguments ∧
        invocation.command.any Text.isBlank = false ∨
      Text.trimStart line = '"' :: (invocation.command ++ '"' :: invocation.arguments) ∧
        '"' ∉ invocation.command)

/-- The command and the arguments of a line are those that stand in it. -/
theorem ofLine?_eq_some_iff :
    ofLine? line = some invocation ↔ invocation.StandsIn line ∧ invocation.command ≠ [] ∧
      invocation.command.head? ≠ some '"' := by
  constructor
  · intro h
    cases shape line with
    | blank hblank =>
      rw [ofLine?_of_isAllBlank hblank] at h
      cases h
    | bare command arguments htext hne hhead hblank harguments =>
      rw [ofLine?_of_bare htext hne hhead hblank harguments] at h
      cases h
      exact ⟨⟨harguments, .inl ⟨htext, hblank⟩⟩, hne, hhead⟩
    | unclosed text htext hquote =>
      rw [ofLine?_of_quote htext, ofQuoted?_of_not_mem hquote] at h
      cases h
    | quoted inside rest htext hquote =>
      rw [ofLine?_of_quote htext, ofQuoted?_append hquote, Option.ite_none_right_eq_some] at h
      obtain ⟨⟨hne, hrest⟩, h⟩ := h
      cases h
      exact ⟨⟨hrest, .inr ⟨htext, hquote⟩⟩, hne, fun hhead => hquote (List.mem_of_mem_head? hhead)⟩
  · rintro ⟨⟨harguments, hbare | hquoted⟩, hne, hhead⟩
    · exact ofLine?_of_bare hbare.1 hne hhead hbare.2 harguments
    · rw [ofLine?_of_quote hquoted.1, ofQuoted?_append hquoted.2, if_pos ⟨hne, harguments⟩]

theorem standsIn_of_ofLine? (h : ofLine? line = some invocation) : invocation.StandsIn line :=
  (ofLine?_eq_some_iff.1 h).1

/-- A line without a command. -/
inductive LacksCommand (line : Text) : Prop
  /-- There is nothing but blanks. -/
  | blank (h : Text.isAllBlank line = true)
  /-- A quote in front is never closed. -/
  | unclosed (text : Text) (htext : Text.trimStart line = '"' :: text) (hquote : '"' ∉ text)
  /-- There is nothing between the quotes in front. -/
  | nothing (rest : Text) (htext : Text.trimStart line = '"' :: '"' :: rest)
  /-- The quotes in front are closed directly before a character that is no blank. -/
  | attached (inside : Text) (c : Char) (rest : Text)
      (htext : Text.trimStart line = '"' :: (inside ++ '"' :: c :: rest)) (hquote : '"' ∉ inside)
      (hc : Text.isBlank c = false)

/-- All other lines have a command. -/
theorem ofLine?_eq_none_iff : ofLine? line = none ↔ LacksCommand line := by
  constructor
  · intro h
    cases shape line with
    | blank hblank => exact .blank hblank
    | bare command arguments htext hne hhead hblank harguments =>
      rw [ofLine?_of_bare htext hne hhead hblank harguments] at h
      cases h
    | unclosed text htext hquote => exact .unclosed text htext hquote
    | quoted inside rest htext hquote =>
      rw [ofLine?_of_quote htext, ofQuoted?_append hquote] at h
      cases inside with
      | nil => exact .nothing rest htext
      | cons c inside =>
        cases rest with
        | nil => simp [Text.startsBlank] at h
        | cons d rest =>
          have hd : Text.isBlank d = false := by simpa [Text.startsBlank] using h
          exact .attached (c :: inside) d rest htext hquote hd
  · intro h
    cases h with
    | blank hblank => exact ofLine?_of_isAllBlank hblank
    | unclosed text htext hquote => rw [ofLine?_of_quote htext, ofQuoted?_of_not_mem hquote]
    | nothing rest htext =>
      have hempty := ofQuoted?_append List.not_mem_nil rest
      rw [ofLine?_of_quote htext]
      simpa using hempty
    | attached inside c rest htext hquote hc =>
      have hattached : Text.startsBlank (c :: rest) = false := hc
      rw [ofLine?_of_quote htext, ofQuoted?_append hquote, hattached]
      simp

/-! ## Commands as tokens -/

/-- A command that is read back from the token it is written as. Quotes inside do no harm, unless the
command stands in quotes or seems to. -/
def ReadsBack (command : Text) : Prop :=
  command ≠ [] ∧ command.head? ≠ some '"' ∧ (command.any Text.isBlank = true → '"' ∉ command)

/-- Every command of a line reads back. -/
theorem readsBack_of_ofLine? (h : ofLine? line = some invocation) : ReadsBack invocation.command := by
  obtain ⟨⟨-, hbare | hquoted⟩, hne, hhead⟩ := ofLine?_eq_some_iff.1 h
  · refine ⟨hne, hhead, fun hblank => ?_⟩
    rw [hbare.2] at hblank
    cases hblank
  · exact ⟨hne, hhead, fun _ => hquoted.2⟩

/-- A command that reads back is the command of every line that starts with its token. -/
theorem ofLine?_quoteIfNeeded_append (h : ReadsBack command)
    (harguments : Text.startsBlank arguments = true) :
    ofLine? (Token.quoteIfNeeded command ++ arguments) = some ⟨command, arguments⟩ := by
  obtain ⟨hne, hhead, hquote⟩ := h
  refine ofLine?_eq_some_iff.2 ⟨⟨harguments, ?_⟩, hne, hhead⟩
  cases hblank : command.any Text.isBlank with
  | true =>
    have htext : Token.quoteIfNeeded command ++ arguments = '"' :: (command ++ '"' :: arguments) := by
      rw [Token.quoteIfNeeded_of_blank hblank]
      simp [Text.quoted]
    rw [htext]
    exact .inr ⟨Text.trimStart_of_not_blank rfl, hquote hblank⟩
  | false =>
    have hstart : Text.startsBlank (command ++ arguments) = false := by
      cases command with
      | nil => exact absurd rfl hne
      | cons c command =>
        rw [List.any_cons, Bool.or_eq_false_iff] at hblank
        exact hblank.1
    rw [Token.quoteIfNeeded_of_no_blank hblank]
    exact .inl ⟨Text.trimStart_of_not_blank hstart, rfl⟩

/-- The command of the line of a call that has one. -/
theorem exists_ofLine?_line {command : Text} (h : ReadsBack command) (texts : List Text) :
    ∃ arguments, ofLine? (Token.line (command :: texts)) = some ⟨command, arguments⟩ := by
  refine ⟨Token.lineBehind texts, ?_⟩
  rw [Token.line_cons, ofLine?_quoteIfNeeded_append h (Token.startsBlank_lineBehind texts)]

/-- **What a line with a command is read back as.** The command and the values of a line are read back if,
and only if, each of them reads back. -/
theorem ofLine?_line_iff :
    (∃ rest, ofLine? (Token.line (command :: texts)) = some ⟨command, rest⟩ ∧
        Token.values rest = texts) ↔
      ReadsBack command ∧ ∀ value ∈ texts, Token.ReadsBack value := by
  have hblank := Token.startsBlank_lineBehind texts
  rw [Token.line_cons, ← Token.values_line_iff, ← Token.values_lineBehind]
  constructor
  · rintro ⟨rest, hcommand, hvalues⟩
    have hreads : ReadsBack command := readsBack_of_ofLine? hcommand
    rw [ofLine?_quoteIfNeeded_append hreads hblank] at hcommand
    cases hcommand
    exact ⟨hreads, hvalues⟩
  · rintro ⟨hreads, hvalues⟩
    exact ⟨_, ofLine?_quoteIfNeeded_append hreads hblank, hvalues⟩

/-- **The cut behind a command loses nothing and can be undone.** A line has no command exactly if it is
blank, or if a quote in front is never closed, closes at once, or is closed directly before a character that
is no blank. All other lines fall into a command and arguments, as they stand in the line, and these are cut
apart again if the command is written as a token in front of the arguments. -/
theorem cut_loses_nothing (line : Text) :
    (ofLine? line = none ↔ LacksCommand line) ∧
    (∀ invocation, ofLine? line = some invocation ↔
      invocation.StandsIn line ∧ invocation.command ≠ [] ∧ invocation.command.head? ≠ some '"') ∧
    ∀ invocation, ofLine? line = some invocation →
      ofLine? (Token.quoteIfNeeded invocation.command ++ invocation.arguments) = some invocation := by
  refine ⟨ofLine?_eq_none_iff, fun invocation => ofLine?_eq_some_iff, fun invocation h => ?_⟩
  exact ofLine?_quoteIfNeeded_append (readsBack_of_ofLine? h) (standsIn_of_ofLine? h).1

/-! ## The first token of a line -/

/-- A command in quotes is the first token of its line, and so is a command without any quotes. -/
theorem exists_list_eq_cons (hline : ofLine? line = some invocation)
    (hquotes : (Text.trimStart line).head? = some '"' ∨
      '"' ∉ invocation.command ∧ '\'' ∉ invocation.command) :
    ∃ token : Token, token.value = invocation.command ∧
      Text.trimStart line = token.raw ++ invocation.arguments ∧
      Token.list line = token :: Token.list invocation.arguments := by
  obtain ⟨token, hvalue, hbefore, htext⟩ : ∃ token : Token, token.value = invocation.command ∧
      token.Before invocation.arguments ∧ Text.trimStart line = token.raw ++ invocation.arguments := by
    obtain ⟨⟨harguments, hbare | hquoted⟩, hne, hhead⟩ := ofLine?_eq_some_iff.1 hline
    · have hfirst : (Text.trimStart line).head? ≠ some '"' := by
        rwa [hbare.1, List.head?_append_of_ne_nil _ hne]
      obtain ⟨hdouble, hsingle⟩ := hquotes.resolve_left hfirst
      have hplain := Token.not_isQuote_of_not_mem hdouble hsingle
      exact ⟨⟨_, _⟩, rfl, Token.before_of_bare hne hbare.2 hplain harguments, hbare.1⟩
    · refine ⟨Token.withGroup [] invocation.command, rfl,
        Token.withGroup_before rfl hquoted.2 harguments, ?_⟩
      rw [hquoted.1]
      simp [Token.withGroup, Text.quoted]
  refine ⟨token, hvalue, htext, ?_⟩
  rw [← Token.list_trimStart, htext, hbefore.list_eq]

/-- A command without quotes around it that is what the first token stands for has no quotes inside. -/
theorem not_isQuote_of_values_eq (hline : ofLine? line = some invocation)
    (hhead : (Text.trimStart line).head? ≠ some '"')
    (hvalues : Token.values line = invocation.command :: texts) :
    ∀ c ∈ invocation.command, Token.isQuote c = false := by
  obtain ⟨gap, token, rest, rfl, hgap, hbefore, hvalue, -⟩ := Token.exists_of_values_eq_cons hvalues
  have htext : Text.trimStart (gap ++ (token.raw ++ rest)) = token.raw ++ rest := by
    rw [Text.trimStart_gap_append hgap,
      Text.trimStart_of_not_blank (Text.startsBlank_append hbefore.not_blank rest)]
  have hblank : invocation.command.any Text.isBlank = false := by
    obtain ⟨⟨-, hbare | hquoted⟩, -, -⟩ := ofLine?_eq_some_iff.1 hline
    · exact hbare.2
    · rw [hquoted.1] at hhead
      exact absurd rfl hhead
  have hread : Token.readWithin none token.raw = token := hbefore.read_raw
  -- the token has no blank either, so the line is cut behind it
  have hword : token.raw.any Text.isBlank = false := by
    have hsame := Token.any_isBlank_value none token.raw (by simp)
    rw [hread, hvalue, hblank] at hsame
    exact hsame.symm
  have hne : token.raw ≠ [] := List.ne_nil_of_length_pos hbefore.raw_length_pos
  rw [htext, List.head?_append_of_ne_nil _ hne] at hhead
  rw [ofLine?_of_bare htext hne hhead hword hbefore.startsBlank] at hline
  cases hline
  intro c hc
  by_contra hquote
  rw [Bool.not_eq_false] at hquote
  have hlt := Token.length_value_lt_of_mem token.raw rfl (by rwa [hread, hvalue]) (.inl hquote)
  rw [hread, hvalue] at hlt
  exact Nat.lt_irrefl _ hlt

/-- **The cut behind a command is the end of the first token.** What the tokens of a line stand for is the
command, and behind it what the tokens of the arguments stand for, if, and only if, the line starts with a
double quote or the command holds no quotes of either kind. -/
theorem first_token_iff (hline : ofLine? line = some invocation) :
    Token.values line = invocation.command :: Token.values invocation.arguments ↔
      (Text.trimStart line).head? = some '"' ∨
        '"' ∉ invocation.command ∧ '\'' ∉ invocation.command := by
  constructor
  · intro hvalues
    by_cases hhead : (Text.trimStart line).head? = some '"'
    · exact .inl hhead
    · have hplain := not_isQuote_of_values_eq hline hhead hvalues
      exact .inr ⟨fun hmem => absurd (hplain _ hmem) (by decide),
        fun hmem => absurd (hplain _ hmem) (by decide)⟩
  · intro hquotes
    obtain ⟨token, hvalue, -, hlist⟩ := exists_list_eq_cons hline hquotes
    rw [Token.values, hlist, List.map_cons, hvalue, Token.values]

/-- Between double quotes, blanks and a single quote belong to both the command and the token. Without them,
the single quote opens a group that goes on into the arguments. -/
theorem first_token_iff_apostrophe :
    let arguments := " -I'a b' c.c".toList
    let quoted := "\t\"C:/it's here/gcc\" -I'a b' c.c".toList
    let bare := "C:/it's/gcc -I'a b' c.c".toList
    (ofLine? quoted = some ⟨"C:/it's here/gcc".toList, arguments⟩ ∧
      Token.values quoted = "C:/it's here/gcc".toList :: Token.values arguments) ∧
    (ofLine? bare = some ⟨"C:/it's/gcc".toList, arguments⟩ ∧
      Token.values bare ≠ "C:/it's/gcc".toList :: Token.values arguments) := by
  intro arguments quoted bare
  have hquoted : ofLine? quoted = some ⟨"C:/it's here/gcc".toList, arguments⟩ := by decide
  have hbare : ofLine? bare = some ⟨"C:/it's/gcc".toList, arguments⟩ := by decide
  refine ⟨⟨hquoted, ?_⟩, hbare, ?_⟩
  · exact (first_token_iff hquoted).2 (.inl (by decide))
  · intro hvalues
    rcases (first_token_iff hbare).1 hvalues with hhead | ⟨-, hsingle⟩
    · exact absurd hhead (by decide)
    · exact absurd hsingle (by decide)

end Invocation
end BuildLog
