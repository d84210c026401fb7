import BuildLog.Invocation
import BuildLog.Proofs.WrittenEntries

/-!
# Values written as tokens

A value is written as a token of its own, in double quotes if it holds a blank. Nothing else is quoted,
so a value that holds a quote itself may be lost.

* `Token.ReadsBack`: the values that are not lost. `Token.before_quoteIfNeeded`: the token of such a value;
* `Token.length_line_values_le`: a text is at most one character shorter than the line of its tokens. The
  lemmas in front of it say what quotes and blanks that are meant cost the text of a token;
* `Token.values_line_iff`: a line is read back as the values that were written if, and only if, each of
  them reads back. The others cost more than the line has;
* `Token.line_splits_back`: the same in terms of quotes and blanks, with the tokens of the line.
-/

namespace BuildLog

/-- A text that starts with a blank has leading blanks. -/
theorem Text.leadingBlanks_pos {text : Text} (h : startsBlank text = true) (hne : text ≠ []) :
    0 < leadingBlanks text := by
  cases text with
  | nil => exact absurd rfl hne
  | cons c text =>
    have hc : isBlank c = true := h
    simp [leadingBlanks, hc]

namespace Token

variable {value rest tail text : Text} {token : Token} {texts : List Text}

/-! ## Values that read back -/

/-- A value that is read back from the token it is written as. It holds no double quote, and a single
quote only together with a blank, because it stands in double quotes then. -/
def ReadsBack (value : Text) : Prop :=
  value ≠ [] ∧ '"' ∉ value ∧ ('\'' ∈ value → value.any Text.isBlank = true)

theorem quoteIfNeeded_of_blank (h : value.any Text.isBlank = true) :
    quoteIfNeeded value = Text.quoted value := by
  rw [quoteIfNeeded, if_pos h, Text.quoted]

theorem quoteIfNeeded_of_no_blank (h : value.any Text.isBlank = false) :
    quoteIfNeeded value = value := by
  rw [quoteIfNeeded, h]
  rfl

/-- Outside of groups, a text without blanks and quotes stands for itself. -/
theorem readWithin_append_of_bare (hblank : value.any Text.isBlank = false)
    (hquote : ∀ c ∈ value, isQuote c = false) (hrest : Text.startsBlank rest = true) :
    readWithin none (value ++ rest) = ⟨value, value⟩ := by
  induction value with
  | nil => exact read_of_startsBlank hrest
  | cons c value ih =>
    simp only [List.any_cons, Bool.or_eq_false_iff] at hblank
    obtain ⟨hc, hvalue⟩ := List.forall_mem_cons.1 hquote
    have hnext : (value ++ rest).head? ≠ some '"' := by
      cases value with
      | nil => exact head?_ne_of_startsBlank hrest
      | cons d value =>
        intro hd
        simp only [List.cons_append, List.head?_cons, Option.some.injEq] at hd
        rw [hd] at hvalue
        exact absurd (hvalue '"' (List.mem_cons_self ..)) (by decide)
    rw [List.cons_append, readWithin_cons hc hblank.1 fun _ => hnext, ih hblank.2 hvalue]
    rfl

/-- A text without blanks and quotes is a token. -/
theorem before_of_bare (hne : value ≠ []) (hblank : value.any Text.isBlank = false)
    (hquote : ∀ c ∈ value, isQuote c = false) (hrest : Text.startsBlank rest = true) :
    (⟨value, value⟩ : Token).Before rest := by
  refine ⟨readWithin_append_of_bare hblank hquote hrest, ?_⟩
  cases value with
  | nil => exact absurd rfl hne
  | cons c value =>
    simp only [List.any_cons, Bool.or_eq_false_iff] at hblank
    exact hblank.1

theorem not_isQuote_of_not_mem (hdouble : '"' ∉ value) (hsingle : '\'' ∉ value) :
    ∀ c ∈ value, isQuote c = false := by
  intro c hc
  rw [isQuote, Bool.or_eq_false_iff, beq_eq_false_iff_ne, beq_eq_false_iff_ne]
  exact ⟨ne_of_mem_of_not_mem hc hdouble, ne_of_mem_of_not_mem hc hsingle⟩

/-- A value that reads back is written as the token that stands for it. -/
theorem before_quoteIfNeeded (h : ReadsBack value) (hrest : Text.startsBlank rest = true) :
    (⟨quoteIfNeeded value, value⟩ : Token).Before rest := by
  obtain ⟨hne, hdouble, hsingle⟩ := h
  cases hblank : value.any Text.isBlank with
  | true =>
    have hgroup : (withGroup [] value).Before rest := withGroup_before rfl hdouble hrest
    rw [quoteIfNeeded_of_blank hblank]
    exact hgroup
  | false =>
    have hbare : '\'' ∉ value := by
      intro hmem
      rw [hsingle hmem] at hblank
      cases hblank
    rw [quoteIfNeeded_of_no_blank hblank]
    exact before_of_bare hne hblank (not_isQuote_of_not_mem hdouble hbare) hrest

/-! ## What a value costs -/

/-- A value is no longer than the text that it is written with. -/
theorem length_value_le (quote : Option Char) (text : Text) :
    (readWithin quote text).value.length ≤ (readWithin quote text).raw.length := by
  fun_induction readWithin quote text <;> simp_all [silent, plain, empty] <;> omega

/-- A blank that belongs to a token is always meant. -/
theorem any_isBlank_value (quote : Option Char) (text : Text)
    (hquote : ∀ q, quote = some q → isQuote q = true) :
    (readWithin quote text).value.any Text.isBlank = (readWithin quote text).raw.any Text.isBlank := by
  have houtside (q : Char) (h : none = some q) : isQuote q = true := by cases h
  fun_induction readWithin quote text with
  | case1 quote => rfl
  | case2 quote c rest hc ih =>
    have hblank : Text.isBlank c = false := by
      rw [eq_of_beq hc]
      exact not_isBlank_of_isQuote (hquote quote rfl)
    simp [silent, hblank, ih houtside]
  | case3 quote c rest hc ih => simp [plain, ih hquote]
  | case4 rest ih =>
    have hblank : Text.isBlank '\\' = false := by decide
    simp [silent, plain, hblank, ih houtside]
  | case5 c rest _ hc ih =>
    have hinside (q : Char) (h : some c = some q) : isQuote q = true := by
      cases h
      exact hc
    simp [silent, not_isBlank_of_isQuote hc, ih hinside]
  | case6 c rest _ _ _ => rfl
  | case7 c rest _ _ hblank ih => simp [plain, ih houtside]

/-- Outside of groups, a quote that is meant has to be escaped, or to stand in a group of the other kind,
and a blank that is meant has to stand in a group. -/
theorem length_value_lt_of_mem {quote : Option Char} {c : Char} (text : Text)
    (hnone : quote = none) (hmem : c ∈ (readWithin quote text).value)
    (hc : isQuote c = true ∨ Text.isBlank c = true) :
    (readWithin quote text).value.length < (readWithin quote text).raw.length := by
  fun_induction readWithin quote text with
  | case1 quote => cases hmem
  | case2 quote d rest hd ih => cases hnone
  | case3 quote d rest hd ih => cases hnone
  | case4 rest ih =>
    have hle := length_value_le none rest
    simp only [silent, plain, List.length_cons]
    omega
  | case5 d rest _ hquote ih =>
    have hle := length_value_le (some d) rest
    simp only [silent, List.length_cons]
    omega
  | case6 d rest _ _ _ => cases hmem
  | case7 d rest _ hquote hblank ih =>
    rcases List.mem_cons.1 hmem with rfl | hmem
    · exact absurd hc (not_or.2 ⟨hquote, hblank⟩)
    · have hlt := ih rfl hmem
      simp only [plain, List.length_cons]
      omega

/-- Inside a group, the quote that closes it is written but not meant. -/
theorem length_value_lt_of_closed {q : Char} (text : Text)
    (hclosed : openQuote (some q) (readWithin (some q) text).raw = none) :
    (readWithin (some q) text).value.length < (readWithin (some q) text).raw.length := by
  induction text with
  | nil => cases hclosed
  | cons c text ih =>
    rw [readWithin] at hclosed ⊢
    cases hc : c == q with
    | true =>
      have hle := length_value_le none text
      simp only [if_true, silent, List.length_cons]
      omega
    | false =>
      have hrest : openQuote (some q) (readWithin (some q) text).raw = none := by
        simpa [hc, plain, openQuote] using hclosed
      simpa [plain] using ih hrest

/-- Outside of groups, a blank that is meant has to stand in one, which a closed token also closes. -/
theorem length_value_add_two_le {quote : Option Char} (text : Text) (hnone : quote = none)
    (hclosed : openQuote quote (readWithin quote text).raw = none)
    (hblank : (readWithin quote text).value.any Text.isBlank = true) :
    (readWithin quote text).value.length + 2 ≤ (readWithin quote text).raw.length := by
  fun_induction readWithin quote text with
  | case1 quote => cases hblank
  | case2 quote d rest hd ih => cases hnone
  | case3 quote d rest hd ih => cases hnone
  | case4 rest ih =>
    have hrest : openQuote none (readWithin none rest).raw = none := by
      simpa [silent, plain, openQuote] using hclosed
    have hvalue : (readWithin none rest).value.any Text.isBlank = true := by
      simpa [silent, plain, show Text.isBlank '"' = false by decide] using hblank
    have hle := ih rfl hrest hvalue
    simp only [silent, plain, List.length_cons]
    omega
  | case5 d rest _ hquote ih =>
    have hrest : openQuote (some d) (readWithin (some d) rest).raw = none := by
      simpa [silent, openQuote_quote hquote] using hclosed
    have hlt := length_value_lt_of_closed rest hrest
    simp only [silent, List.length_cons]
    omega
  | case6 d rest _ _ _ => cases hblank
  | case7 d rest hescape hquote hplain ih =>
    simp only [Bool.not_eq_true] at hquote hplain
    have hrest : openQuote none (readWithin none rest).raw = none := by
      rwa [plain, openQuote_cons hquote hplain (head?_ne hescape)] at hclosed
    have hle := ih rfl hrest (by simpa [plain, hplain] using hblank)
    simp only [plain, List.length_cons]
    omega

/-- A token in front of another one is no shorter than the writing of its value. -/
theorem Before.length_quoteIfNeeded_le (h : token.Before rest)
    (hrest : rest ≠ [] ∨ token.value.any Text.isBlank = false) :
    (quoteIfNeeded token.value).length ≤ token.raw.length := by
  have hread : readWithin none token.raw = token := h.read_raw
  cases hblank : token.value.any Text.isBlank with
  | false =>
    have hle := length_value_le none token.raw
    rw [hread] at hle
    rwa [quoteIfNeeded_of_no_blank hblank]
  | true =>
    have hclosed : openQuote none token.raw = none := by
      have hne : rest ≠ [] := hrest.resolve_right (by simp [hblank])
      simpa [isClosed] using h.eq_nil_or_isClosed.resolve_left hne
    have hle := length_value_add_two_le token.raw rfl (by rwa [hread]) (by rwa [hread])
    rw [hread] at hle
    rw [quoteIfNeeded_of_blank hblank, Text.quoted, List.length_append, List.length_cons,
      List.length_singleton]
    exact hle

/-- The last token of a text may save the closing quote of its group, but no more. -/
theorem Before.length_quoteIfNeeded_le_succ (h : token.Before rest) :
    (quoteIfNeeded token.value).length ≤ token.raw.length + 1 := by
  have hread : readWithin none token.raw = token := h.read_raw
  cases hblank : token.value.any Text.isBlank with
  | false =>
    have hle := h.length_quoteIfNeeded_le (.inr hblank)
    omega
  | true =>
    obtain ⟨c, hmem, hc⟩ := List.any_eq_true.1 hblank
    have hlt : token.value.length < token.raw.length := by
      have hlt := length_value_lt_of_mem token.raw rfl (by rwa [hread]) (.inr hc)
      rwa [hread] at hlt
    rw [quoteIfNeeded_of_blank hblank, Text.quoted, List.length_append, List.length_cons,
      List.length_singleton]
    omega

/-- A value with a double quote in it costs more than its group, because that quote closes the group. -/
theorem Before.length_quoted_lt (h : token.Before rest) (hmem : '"' ∈ token.value)
    (htext : Text.quoted token.value ++ tail = token.raw ++ rest) :
    (Text.quoted token.value).length < token.raw.length := by
  obtain ⟨front, back, hvalue, hfront⟩ := List.eq_append_cons_of_mem hmem
  have hspelled : token.raw ++ rest = '"' :: (front ++ '"' :: (back ++ '"' :: tail)) := by
    rw [← htext, hvalue]
    simp [Text.quoted]
  have hopen : read ('"' :: (front ++ '"' :: (back ++ '"' :: tail))) =
      silent '"' (readWithin (some '"') (front ++ '"' :: (back ++ '"' :: tail))) :=
    readWithin_quote rfl
  have htoken : token =
      silent '"' (behind front (silent '"' (read (back ++ '"' :: tail)))) := by
    rw [← h.read_eq, hspelled, hopen, readWithin_group hfront]
  -- the quote that was meant has to be meant again behind the group
  have hback : '"' :: back = (read (back ++ '"' :: tail)).value := by
    have hsame := congrArg value htoken
    rw [hvalue] at hsame
    exact List.append_cancel_left hsame
  have hlt : (read (back ++ '"' :: tail)).value.length < (read (back ++ '"' :: tail)).raw.length :=
    length_value_lt_of_mem _ rfl (hback ▸ List.mem_cons_self) (.inl rfl)
  rw [← hback, List.length_cons] at hlt
  have hraw : token.raw.length = front.length + (read (back ++ '"' :: tail)).raw.length + 2 := by
    rw [htoken]
    simp only [silent, behind, List.length_cons, List.length_append]
    omega
  rw [hraw, hvalue]
  simp only [Text.quoted, List.length_cons, List.length_append, List.length_nil]
  omega

/-- A value that does not read back costs the text of its token more than its own writing. -/
theorem Before.length_quoteIfNeeded_lt {gap : Text} (h : token.Before rest)
    (hgap : gap.all Text.isBlank = true)
    (htext : quoteIfNeeded token.value ++ tail = gap ++ (token.raw ++ rest))
    (hlost : ¬ ReadsBack token.value) :
    (quoteIfNeeded token.value).length < gap.length + token.raw.length := by
  have hread : readWithin none token.raw = token := h.read_raw
  cases hblank : token.value.any Text.isBlank with
  | false =>
    rw [quoteIfNeeded_of_no_blank hblank]
    by_cases hquote : ∃ c ∈ token.value, isQuote c = true
    · obtain ⟨c, hmem, hc⟩ := hquote
      rw [← hread] at hmem
      have hlt := length_value_lt_of_mem token.raw rfl hmem (.inl hc)
      rw [hread] at hlt
      omega
    · have hnil : token.value = [] := by
        by_contra hne
        exact hlost ⟨hne, fun hmem => hquote ⟨_, hmem, rfl⟩, fun hmem => absurd ⟨_, hmem, rfl⟩ hquote⟩
      have hpos := h.raw_length_pos
      simp only [hnil, List.length_nil]
      omega
  | true =>
    have hmem : '"' ∈ token.value := by
      by_contra hmem
      refine hlost ⟨?_, hmem, fun _ => hblank⟩
      intro hnil
      simp [hnil] at hblank
    rw [quoteIfNeeded_of_blank hblank] at htext ⊢
    cases gap with
    | nil =>
      have hlt := h.length_quoted_lt hmem htext
      simpa using hlt
    | cons c gap =>
      simp only [Text.quoted, List.cons_append, List.cons.injEq] at htext
      rw [← htext.1] at hgap
      cases hgap

/-! ## Lines of values -/

/-- What stands in a line behind its first value: nothing, or a space and the line of the others. -/
def lineBehind : List Text → Text
  | [] => []
  | value :: texts => ' ' :: line (value :: texts)

theorem line_cons (value : Text) (texts : List Text) :
    line (value :: texts) = quoteIfNeeded value ++ lineBehind texts := by
  cases texts with
  | nil => simp [line, lineBehind, Text.joined]
  | cons next texts => simp [line, lineBehind, Text.joined, List.intercalate_cons_cons]

theorem startsBlank_lineBehind (texts : List Text) : Text.startsBlank (lineBehind texts) = true := by
  cases texts with
  | nil => rfl
  | cons value texts => exact (by decide : Text.isBlank ' ' = true)

theorem list_lineBehind (texts : List Text) : list (lineBehind texts) = list (line texts) := by
  cases texts with
  | nil => rfl
  | cons value texts =>
    have hgap : list ([' '] ++ line (value :: texts)) = list (line (value :: texts)) :=
      list_gap_append rfl _
    exact hgap

theorem values_lineBehind (texts : List Text) : values (lineBehind texts) = values (line texts) := by
  rw [values, list_lineBehind, values]

theorem length_lineBehind (hne : texts ≠ []) :
    (lineBehind texts).length = (line texts).length + 1 := by
  cases texts with
  | nil => exact absurd rfl hne
  | cons value texts => rfl

theorem line_isSuffix_lineBehind (texts : List Text) : line texts <:+ lineBehind texts := by
  cases texts with
  | nil => exact List.suffix_rfl
  | cons value texts => exact List.suffix_cons ' ' _

theorem values_gap_append (hgap : gap.all Text.isBlank = true) (text : Text) :
    values (gap ++ text) = values text := by
  rw [values, list_gap_append hgap, values]

theorem values_of_blanks (hgap : gap.all Text.isBlank = true) : values gap = [] := by
  rw [values, list_of_blanks hgap, List.map_nil]

theorem Before.values_eq (h : token.Before rest) :
    values (token.raw ++ rest) = token.value :: values rest := by
  rw [values, h.list_eq, List.map_cons, values]

/-- A text with tokens starts with the first of them. -/
theorem exists_of_values_eq_cons {value : Text} (h : values text = value :: texts) :
    ∃ (gap : Text) (token : Token) (rest : Text), text = gap ++ (token.raw ++ rest) ∧
      gap.all Text.isBlank = true ∧ token.Before rest ∧ token.value = value ∧ values rest = texts := by
  cases hwords : Word.list text with
  | nil => simp [values, Word.token_list_eq, hwords] at h
  | cons word words =>
    obtain ⟨rest, htext, hgap, hbefore, hlist⟩ := Word.exists_of_list_eq_cons hwords
    simp only [values, Word.token_list_eq, hwords, List.map_cons, List.cons.injEq] at h
    refine ⟨word.gap, word.token, rest, htext, hgap, hbefore, h.1, ?_⟩
    rw [values, Word.token_list_eq, hlist, h.2]

/-- The token that a value is written as. -/
def written (value : Text) : Token :=
  ⟨quoteIfNeeded value, value⟩

/-- A line of values that read back is a row of their tokens. -/
theorem list_line_of_readsBack (h : ∀ value ∈ texts, ReadsBack value) :
    list (line texts) = texts.map written := by
  induction texts with
  | nil => rfl
  | cons value texts ih =>
    obtain ⟨hvalue, htexts⟩ := List.forall_mem_cons.1 h
    have hfirst : list (quoteIfNeeded value ++ lineBehind texts) =
        written value :: list (lineBehind texts) :=
      (before_quoteIfNeeded hvalue (startsBlank_lineBehind texts)).list_eq
    rw [line_cons, hfirst, list_lineBehind, ih htexts, List.map_cons]

/-- The line of the tokens of a text is at most one character longer than the text, without the blanks in
front: it closes the group that may be open at the end. -/
theorem length_line_values_le (text : Text) :
    (line (values text)).length + Text.leadingBlanks text ≤ text.length + 1 := by
  induction text using Text.wordInduction with
  | blank gap hgap =>
    have hleading := Text.leadingBlanks_add_length_trimStart gap
    simp only [values_of_blanks hgap, line, Text.joined, List.map_nil, List.intercalate_nil,
      List.length_nil]
    omega
  | word gap token rest hgap h ih =>
    have hvalues : values (gap ++ (token.raw ++ rest)) = token.value :: values rest := by
      rw [values_gap_append hgap, h.values_eq]
    rw [Text.leadingBlanks_gap_append hgap (Text.startsBlank_append h.not_blank rest), hvalues, line_cons]
    simp only [List.length_append]
    by_cases hrest : values rest = []
    · have hle := h.length_quoteIfNeeded_le_succ
      rw [hrest, lineBehind, List.length_nil]
      omega
    · have hne : rest ≠ [] := by
        rintro rfl
        exact hrest rfl
      have hle := h.length_quoteIfNeeded_le (.inl hne)
      have hgap := Text.leadingBlanks_pos h.startsBlank hne
      rw [length_lineBehind hrest]
      omega

/-- Of a line that is read back, a value that does not read back leaves too little for the others: what is
left is as short as their line, but starts with a blank. -/
theorem readsBack_of_values_line {value : Text} (hvalues : values (line (value :: texts)) = value :: texts)
    (hothers : values (line texts) = texts → ∀ value ∈ texts, ReadsBack value) : ReadsBack value := by
  by_contra hlost
  obtain ⟨gap, token, rest, htext, hgap, hbefore, rfl, hrest⟩ := exists_of_values_eq_cons hvalues
  rw [line_cons] at htext
  have hlt := hbefore.length_quoteIfNeeded_lt hgap htext hlost
  have hspent := congrArg List.length htext
  simp only [List.length_append] at hspent
  cases texts with
  | nil =>
    rw [lineBehind, List.length_nil] at hspent
    omega
  | cons next texts =>
    have hne : rest ≠ [] := by
      rintro rfl
      cases hrest
    have hblank := Text.leadingBlanks_pos hbefore.startsBlank hne
    have hle := length_line_values_le rest
    rw [hrest] at hle
    rw [length_lineBehind (List.cons_ne_nil next texts)] at hspent
    -- no character is left over, so the rest is the line of the others
    have hsame : rest = line (next :: texts) := by
      have hsuffix : rest <:+ quoteIfNeeded token.value ++ lineBehind (next :: texts) := by
        rw [htext, ← List.append_assoc]
        exact List.suffix_append _ rest
      have hline : line (next :: texts) <:+ quoteIfNeeded token.value ++ lineBehind (next :: texts) :=
        (line_isSuffix_lineBehind _).trans (List.suffix_append ..)
      have hlength : rest.length = (line (next :: texts)).length := by omega
      exact (List.suffix_of_suffix_length_le hsuffix hline hlength.le).eq_of_length hlength
    have hnext : ReadsBack next := hothers (hsame ▸ hrest) next (List.mem_cons_self ..)
    have hstart : Text.startsBlank (line (next :: texts)) = false := by
      rw [line_cons]
      exact Text.startsBlank_append (before_quoteIfNeeded hnext rfl : (written next).Before []).not_blank _
    rw [← hsame, hbefore.startsBlank] at hstart
    cases hstart

/-- **What a line is read back as.** A line is read back as the values that were written if, and only if,
each of them reads back. -/
theorem values_line_iff : values (line texts) = texts ↔ ∀ value ∈ texts, ReadsBack value := by
  constructor
  · induction texts with
    | nil => exact fun _ => nofun
    | cons value texts ih =>
      intro h
      have hvalue : ReadsBack value := readsBack_of_values_line h ih
      have hfirst : values (quoteIfNeeded value ++ lineBehind texts) = value :: values (lineBehind texts) :=
        (before_quoteIfNeeded hvalue (startsBlank_lineBehind texts)).values_eq
      rw [line_cons, hfirst, values_lineBehind] at h
      exact List.forall_mem_cons.2 ⟨hvalue, ih (List.cons.inj h).2⟩
  · intro h
    rw [values, list_line_of_readsBack h, List.map_map]
    exact List.map_id texts

/-- Which values read back is told by their blanks: quotes are lost where there is none, and double quotes
are lost in any case. -/
theorem readsBack_iff :
    ReadsBack value ↔ (value.any Text.isBlank = true → '"' ∉ value) ∧
      (value.any Text.isBlank = false → value ≠ [] ∧ '"' ∉ value ∧ '\'' ∉ value) := by
  unfold ReadsBack
  cases hblank : value.any Text.isBlank with
  | false => simp
  | true =>
    have hne : value ≠ [] := by
      rintro rfl
      cases hblank
    simp [hne]

/-- **Splitting undoes quoting and joining.** The values that are written into a line are read back from it
if, and only if, those with blanks hold no double quote, and those without are not empty and hold no quote
of either kind. The tokens of the line are then the values as they were written, each on its own. -/
theorem line_splits_back (texts : List Text) :
    (values (line texts) = texts ↔ ∀ value ∈ texts,
      (value.any Text.isBlank = true → '"' ∉ value) ∧
        (value.any Text.isBlank = false → value ≠ [] ∧ '"' ∉ value ∧ '\'' ∉ value)) ∧
    (values (line texts) = texts ↔ list (line texts) = texts.map written) := by
  constructor
  · rw [values_line_iff]
    exact forall₂_congr fun value _ => readsBack_iff
  · constructor
    · intro h
      exact list_line_of_readsBack (values_line_iff.1 h)
    · intro h
      rw [values, h, List.map_map]
      exact List.map_id texts

end Token

end BuildLog
