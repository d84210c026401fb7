import BuildLog.Proofs.WrittenTokens
import Mathlib.Logic.Function.Iterate

/-!
# Splitting texts

A text is split by taking its first token away, with the blanks around it, as long as something is left.

* `Token.read_delimits_itself`: where a token ends can be told from the token alone;
* `Token.groupAtEnd`: the group in which a text ends. `Token.groupAtEnd_eq_none_iff`: there is none if the
  groups of all tokens are closed;
* `Token.Splitting`: how far a text was split, and `Token.Splitting.iterate_next`: the passes come to an end
  with the values of all tokens;
* `Token.values_append_iff`: two texts with blanks in between are split into what each of them is split into,
  unless the first one ends in a group;
* `Token.splitting_homomorphic`: the last two together.
-/

namespace BuildLog
namespace Token

variable {text rest tail gap : Text} {token : Token}

/-! ## One token -/

theorem take_width (text : Text) : text.take (read text).width = (read text).raw := by
  have hwritten : (read text).raw ++ text.drop (read text).width = text := raw_append_drop none text
  calc text.take (read text).width
      = ((read text).raw ++ text.drop (read text).width).take (read text).width := by rw [hwritten]
    _ = (read text).raw := List.take_left

/-- A token takes something exactly if there is something that is no blank. -/
theorem width_pos_iff : 0 < (read text).width ↔ Text.startsBlank text = false := by
  cases hblank : Text.startsBlank text with
  | true => simp [read_of_startsBlank hblank, empty, width]
  | false =>
    cases text with
    | nil => cases hblank
    | cons c text => simpa using width_pos hblank

/-- **A token delimits itself.** A token lies in its text and its value is no longer than what it takes; it
takes something exactly if the text starts with something that is no blank, and a blank stands behind it, if
anything does. The text that it takes is read as the same token by itself. Unless the token goes on to the end
of the text, this text is also read so in front of every other blank, whatever follows then. -/
theorem read_delimits_itself (text : Text) :
    let token := read text
    token.width ≤ text.length ∧
    (0 < token.width ↔ Text.startsBlank text = false) ∧
    (∀ h : token.width < text.length, Text.isBlank text[token.width] = true) ∧
    token.value.length ≤ token.width ∧
    read (text.take token.width) = token ∧
    (token.width < text.length → ∀ blank rest, Text.isBlank blank = true →
      read (text.take token.width ++ blank :: rest) = token) := by
  intro token
  have hread (tail : Text) (htail : Text.startsBlank tail = true)
      (hclosed : tail = [] ∨ openQuote none token.raw = none) : read (token.raw ++ tail) = token :=
    readWithin_append none text htail hclosed
  refine ⟨width_read_le text, width_pos_iff, ?_, length_value_le none text, ?_, ?_⟩
  · intro hlt
    have hblank : Text.startsBlank (text.drop token.width) = true := startsBlank_drop none text
    rwa [List.drop_eq_getElem_cons hlt] at hblank
  · have hself := hread [] rfl (.inl rfl)
    rwa [List.append_nil, ← take_width] at hself
  · intro hlt blank rest hblank
    -- a group that is still open would take the rest of the text
    have hclosed : openQuote none token.raw = none :=
      (drop_eq_nil_or_closed none text).resolve_left fun hnil =>
        absurd (List.drop_eq_nil_iff.1 hnil) (Nat.not_le.2 hlt)
    rw [take_width]
    exact hread (blank :: rest) hblank (.inr hclosed)

/-- A token with a group that ends with a backslash: what stands behind the blank does not matter, although it
starts with a double quote. -/
theorem read_delimits_itself_backslash :
    let text := "-D'a b'\\ \"c".toList
    Text.startsBlank text = false ∧ (read text).width < text.length ∧ Text.isBlank '\t' = true ∧
    0 < (read text).width ∧ read (text.take (read text).width ++ '\t' :: "\"d".toList) = read text := by
  intro text
  have hstart : Text.startsBlank text = false := by decide
  have hlt : (read text).width < text.length := by decide
  obtain ⟨-, hpos, -, -, -, hnext⟩ := read_delimits_itself text
  exact ⟨hstart, hlt, by decide, hpos.2 hstart, hnext hlt '\t' _ (by decide)⟩

/-! ## Groups that are open at the end -/

/-- The quote of the group in which a text ends that starts inside the given quote or outside of all; there is
none if it ends outside of all. -/
def groupAtEnd : Option Char → Text → Option Char
  | quote, [] => quote
  | some quote, c :: rest => groupAtEnd (if c == quote then none else some quote) rest
  | none, '\\' :: '"' :: rest => groupAtEnd none rest
  | none, c :: rest => groupAtEnd (if isQuote c then some c else none) rest

theorem groupAtEnd_cons {c : Char} (hescape : c = '\\' → rest.head? ≠ some '"') :
    groupAtEnd none (c :: rest) = groupAtEnd (if isQuote c then some c else none) rest := by
  rw [groupAtEnd]
  rintro tail rfl rfl
  simp at hescape

/-- Behind its first token, a text goes on in the group in which the token ends. -/
theorem groupAtEnd_eq_behind (quote : Option Char) (text : Text) :
    groupAtEnd quote text =
      groupAtEnd (openQuote quote (readWithin quote text).raw)
        (text.drop (readWithin quote text).width) := by
  unfold width
  fun_induction readWithin quote text with
  | case1 quote => rfl
  | case2 quote c rest hc ih => simpa [silent, openQuote, groupAtEnd, hc] using ih
  | case3 quote c rest hc ih => simpa [plain, openQuote, groupAtEnd, hc] using ih
  | case4 rest ih => simpa [silent, plain, openQuote, groupAtEnd] using ih
  | case5 c rest hescape hquote ih =>
    rw [groupAtEnd, if_pos hquote, silent, openQuote_quote hquote]
    · simpa using ih
    · exact hescape
  | case6 c rest _ _ _ => rfl
  | case7 c rest hescape hquote hblank ih =>
    simp only [Bool.not_eq_true] at hquote hblank
    rw [groupAtEnd, hquote, plain, openQuote_cons hquote hblank (head?_ne hescape)]
    · simpa using ih
    · exact hescape

theorem groupAtEnd_gap_append (hgap : gap.all Text.isBlank = true) (text : Text) :
    groupAtEnd none (gap ++ text) = groupAtEnd none text := by
  induction gap with
  | nil => rfl
  | cons c gap ih =>
    simp only [List.all_cons, Bool.and_eq_true] at hgap
    have hescape : c = '\\' → (gap ++ text).head? ≠ some '"' := by
      rintro rfl
      exact absurd hgap.1 (by decide)
    rw [List.cons_append, groupAtEnd_cons hescape, isQuote_of_isBlank hgap.1, ← ih hgap.2]
    rfl

/-- A text ends in the group in which its first token ends, or where the text behind that token does. -/
theorem Before.groupAtEnd_eq (h : token.Before rest) :
    groupAtEnd none (token.raw ++ rest) = groupAtEnd (openQuote none token.raw) rest := by
  have hbehind := groupAtEnd_eq_behind none (token.raw ++ rest)
  change _ = groupAtEnd (openQuote none (read (token.raw ++ rest)).raw)
    ((token.raw ++ rest).drop (read (token.raw ++ rest)).width) at hbehind
  rwa [h.drop_width, h.read_eq] at hbehind

/-- A text ends outside of all groups if the groups of all its tokens are closed. -/
theorem groupAtEnd_eq_none_iff :
    groupAtEnd none text = none ↔ ∀ token ∈ list text, token.isClosed = true := by
  induction text using Text.wordInduction with
  | blank gap hgap =>
    rw [← List.append_nil gap, groupAtEnd_gap_append hgap, list_gap_append hgap]
    exact iff_of_true rfl nofun
  | word gap token rest hgap h ih =>
    rw [groupAtEnd_gap_append hgap, h.groupAtEnd_eq, list_gap_append hgap, h.list_eq,
      List.forall_mem_cons]
    rcases h.eq_nil_or_isClosed with rfl | hclosed
    · simp [groupAtEnd, isClosed, list, listFrom]
    · have hopen : openQuote none token.raw = none := by simpa [isClosed] using hclosed
      rw [hopen, ih]
      exact (and_iff_right hclosed).symm

/-! ## Texts behind one another -/

/-- A text that ends in a group is read on in that group. -/
theorem value_readWithin_append {quote : Option Char} {q : Char} (h : openQuote quote text = some q)
    (tail : Text) : (readWithin quote (text ++ tail)).value =
      (readWithin quote text).value ++ (readWithin (some q) tail).value := by
  fun_induction openQuote quote text with
  | case1 quote =>
    subst h
    simp [readWithin, empty]
  | case2 quote c rest hc ih => simpa [readWithin, hc, silent] using ih h
  | case3 quote c rest hc ih => simpa [readWithin, hc, plain] using ih h
  | case4 rest ih => simpa [readWithin, silent, plain] using ih h
  | case5 c rest _ hquote ih => simpa [readWithin_quote hquote, silent] using ih h
  | case6 c rest _ _ _ => cases h
  | case7 c rest hescape hquote hblank ih =>
    simp only [Bool.not_eq_true] at hquote hblank
    have hnext (hc : c = '\\') : rest.head? ≠ some '"' := by
      intro hhead
      obtain ⟨rest, rfl⟩ := List.head?_eq_some_iff.1 hhead
      exact hescape rest hc rfl
    have happend (hc : c = '\\') : (rest ++ tail).head? ≠ some '"' := by
      cases rest with
      | nil => cases h
      | cons d rest => exact hnext hc
    rw [List.cons_append, readWithin_cons hquote hblank happend, readWithin_cons hquote hblank hnext,
      plain, plain, ih h, List.cons_append]

theorem isQuote_of_openQuote {quote : Option Char} {q : Char} (h : openQuote quote text = some q)
    (hquote : ∀ d ∈ quote, isQuote d = true) : isQuote q = true := by
  fun_induction openQuote quote text with
  | case1 quote => exact hquote q h
  | case2 quote c rest _ ih => exact ih h nofun
  | case3 quote c rest _ ih => exact ih h hquote
  | case4 rest ih => exact ih h nofun
  | case5 c rest _ hc ih => exact ih h (by simpa using hc)
  | case6 c rest _ _ _ => cases h
  | case7 c rest _ _ _ ih => exact ih h nofun

/-- The blanks behind a token with an open group belong to the group, and so to the value. -/
theorem Before.value_ne_of_open (h : token.Before rest) (hopen : token.isClosed = false) (hne : gap ≠ [])
    (hgap : gap.all Text.isBlank = true) (tail : Text) :
    (read (token.raw ++ (gap ++ tail))).value ≠ token.value := by
  obtain ⟨c, gap, rfl⟩ := List.exists_cons_of_ne_nil hne
  obtain ⟨q, hq⟩ : ∃ q, openQuote none token.raw = some q :=
    Option.isSome_iff_exists.1 (by simpa [isClosed] using hopen)
  have hother : (c == q) = false := by
    have hblank : Text.isBlank c = true := by simp_all
    have hc := isQuote_of_isBlank hblank
    have hquote : isQuote q = true := isQuote_of_openQuote hq (by simp)
    exact beq_false_of_ne fun heq => by simp [heq, hquote] at hc
  have hvalue : (read (token.raw ++ (c :: gap ++ tail))).value =
      (read token.raw).value ++ (readWithin (some q) (c :: gap ++ tail)).value :=
    value_readWithin_append hq _
  rw [hvalue, h.read_raw, List.cons_append, readWithin, hother]
  simp [plain]

theorem values_of_not_blank (h : Text.startsBlank text = false) :
    values text = (read text).value :: values (text.drop (read text).width) := by
  have hwritten : (read text).raw ++ text.drop (read text).width = text := raw_append_drop none text
  have hvalues := (before_drop h).values_eq
  rwa [hwritten] at hvalues

theorem list_append_of_closed (hclosed : ∀ token ∈ list text, token.isClosed = true)
    (htail : Text.startsBlank tail = true) : list (text ++ tail) = list text ++ list tail := by
  obtain ⟨gap, hgap, hlist⟩ := Word.exists_list_append hclosed htail
  rw [Word.token_list_eq, hlist, List.map_append, ← Word.token_list_eq, ← Word.token_list_eq,
    list_gap_append hgap]

/-- A closed token stays the first one if a text that starts with a blank is added to the rest. -/
theorem Before.append_of_closed (h : token.Before rest) (hclosed : token.isClosed = true)
    (htail : Text.startsBlank tail = true) : token.Before (rest ++ tail) := by
  refine h.change ?_ (.inr hclosed)
  cases rest with
  | nil => exact htail
  | cons c rest => exact h.startsBlank

/-- If two texts with blanks in between have the values of both, the tokens of the first one are closed. -/
theorem isClosed_of_values_append (hne : gap ≠ []) (hgap : gap.all Text.isBlank = true)
    (hvalues : values (text ++ (gap ++ tail)) = values text ++ values tail) :
    ∀ token ∈ list text, token.isClosed = true := by
  induction text using Text.wordInduction with
  | blank front hfront =>
    rw [list_of_blanks hfront]
    nofun
  | word front token rest hfront h ih =>
    rw [List.append_assoc, values_gap_append hfront, values_gap_append hfront, List.append_assoc,
      h.values_eq, List.cons_append] at hvalues
    rw [list_gap_append hfront, h.list_eq, List.forall_mem_cons]
    cases hclosed : token.isClosed with
    | true =>
      have hbefore := h.append_of_closed hclosed (Text.startsBlank_gap_append hgap hne tail)
      rw [hbefore.values_eq] at hvalues
      exact ⟨rfl, ih (List.cons.inj hvalues).2⟩
    | false =>
      -- the token takes the blanks as well, so that the first values differ
      obtain rfl : rest = [] := h.eq_nil_or_isClosed.resolve_right (by simp [hclosed])
      rw [List.nil_append, values_of_not_blank (Text.startsBlank_append h.not_blank _)] at hvalues
      exact absurd (List.cons.inj hvalues).1 (h.value_ne_of_open hclosed hne hgap tail)

/-- Two texts with blanks in between have the values of the first one and those of the second, exactly if the
first one ends outside of all groups. -/
theorem values_append_iff (hne : gap ≠ []) (hgap : gap.all Text.isBlank = true) (tail : Text) :
    values (text ++ (gap ++ tail)) = values text ++ values tail ↔ groupAtEnd none text = none := by
  rw [groupAtEnd_eq_none_iff]
  refine ⟨isClosed_of_values_append hne hgap, fun hclosed => ?_⟩
  have hlist := list_append_of_closed hclosed (Text.startsBlank_gap_append hgap hne tail)
  rw [values, hlist, list_gap_append hgap, List.map_append, ← values, ← values]

/-! ## Passes -/

/-- How far a text was split: what is left of it, and the values so far. -/
structure Splitting where
  rest : Text
  found : List Text

namespace Splitting

/-- The start: the text without the blanks in front of it, and no value. -/
def start (text : Text) : Splitting :=
  ⟨Text.trimStart text, []⟩

/-- One pass: the first token is taken away, with the blanks behind it, and its value is kept. -/
def next (splitting : Splitting) : Splitting :=
  let token := read splitting.rest
  ⟨Text.trimStart (splitting.rest.drop token.width), splitting.found ++ [token.value]⟩

theorem next_of_before (h : token.Before rest) (found : List Text) :
    next ⟨token.raw ++ rest, found⟩ = ⟨Text.trimStart rest, found ++ [token.value]⟩ := by
  rw [next, h.drop_width, h.read_eq]

/-- There are as many passes as values, and nothing is left behind the last of them. -/
theorem iterate_next (text : Text) (found : List Text) :
    next^[(values text).length] ⟨Text.trimStart text, found⟩ = ⟨[], found ++ values text⟩ := by
  induction text using Text.wordInduction generalizing found with
  | blank gap hgap =>
    rw [values_of_blanks hgap, ← List.append_nil gap, Text.trimStart_gap_append hgap]
    simp [Text.trimStart]
  | word gap token rest hgap h ih =>
    rw [values_gap_append hgap, h.values_eq, Text.trimStart_gap_append hgap,
      Text.trimStart_of_not_blank (Text.startsBlank_append h.not_blank rest), List.length_cons,
      Function.iterate_succ_apply, next_of_before h, ih, List.append_assoc, List.singleton_append]

/-- In front of each pass, something is left. -/
theorem rest_iterate_ne_nil {pass : Nat} (text : Text) (found : List Text)
    (hpass : pass < (values text).length) :
    (next^[pass] ⟨Text.trimStart text, found⟩).rest ≠ [] := by
  induction text using Text.wordInduction generalizing found pass with
  | blank gap hgap =>
    rw [values_of_blanks hgap] at hpass
    cases hpass
  | word gap token rest hgap h ih =>
    have hblank := Text.startsBlank_append h.not_blank rest
    rw [values_gap_append hgap, h.values_eq, List.length_cons] at hpass
    rw [Text.trimStart_gap_append hgap, Text.trimStart_of_not_blank hblank]
    cases pass with
    | zero =>
      rintro hnil
      rw [Function.iterate_zero_apply] at hnil
      dsimp only at hnil
      rw [hnil] at hblank
      cases hblank
    | succ pass =>
      rw [Function.iterate_succ_apply, next_of_before h]
      exact ih _ (Nat.lt_of_succ_lt_succ hpass)

end Splitting

/-- Each token takes at least one character that is no blank. -/
theorem length_values_le (text : Text) : (values text).length ≤ text.countP (!Text.isBlank ·) := by
  induction text using Text.wordInduction with
  | blank gap hgap => simp [values_of_blanks hgap]
  | word gap token rest hgap h ih =>
    have hraw : 0 < token.raw.countP (!Text.isBlank ·) := by
      have hblank := h.not_blank
      cases hraw : token.raw with
      | nil => simp [hraw, Text.startsBlank] at hblank
      | cons c raw =>
        have hc : Text.isBlank c = false := by simpa [hraw, Text.startsBlank] using hblank
        simp [hc]
    rw [values_gap_append hgap, h.values_eq, List.length_cons, List.countP_append,
      List.countP_append]
    omega

/-- **Splitting respects joining.** Texts with blanks in between are split into the values of the first one
and those of the second, exactly if the first one ends outside of all groups, that is, if all its tokens are
closed. And every text is split to its end: each pass starts with something left, the last one leaves nothing
and has found all values, and there are no more passes than characters that are no blanks. -/
theorem splitting_homomorphic :
    (∀ first gap second : Text, gap ≠ [] → gap.all Text.isBlank = true →
      (values (first ++ gap ++ second) = values first ++ values second ↔ groupAtEnd none first = none) ∧
      (groupAtEnd none first = none ↔ ∀ token ∈ list first, token.isClosed = true)) ∧
    ∀ text : Text,
      let passes := (values text).length
      Splitting.next^[passes] (.start text) = ⟨[], values text⟩ ∧
      (∀ pass < passes, (Splitting.next^[pass] (.start text)).rest ≠ []) ∧
      passes ≤ text.countP (!Text.isBlank ·) := by
  constructor
  · intro first gap second hne hgap
    rw [List.append_assoc]
    exact ⟨values_append_iff hne hgap second, groupAtEnd_eq_none_iff⟩
  · intro text
    have hend := Splitting.iterate_next text []
    rw [List.nil_append] at hend
    exact ⟨hend, fun pass hpass => Splitting.rest_iterate_ne_nil text [] hpass, length_values_le text⟩

/-- A backslash stands right in front of the blanks, and a double quote right behind them. In the other order,
the group that is open at the end of the second text takes in the first one. -/
theorem splitting_homomorphic_backslash :
    let first := "-D'a b'\\".toList
    let second := "\"x y\" '' -I'c".toList
    values (first ++ " \t".toList ++ second) = values first ++ values second ∧
    values (second ++ [' '] ++ first) ≠ values second ++ values first ∧
    Splitting.next^[4] (.start (first ++ " \t".toList ++ second)) =
      ⟨[], values (first ++ " \t".toList ++ second)⟩ := by
  intro first second
  obtain ⟨happend, hpasses⟩ := splitting_homomorphic
  have hfirst : groupAtEnd none first = none := by decide
  have hsecond : groupAtEnd none second ≠ none := by decide
  have hjoint := happend first " \t".toList second (by decide) (by decide)
  have hother := happend second [' '] first (by decide) (by decide)
  refine ⟨hjoint.1.2 hfirst, fun hvalues => hsecond (hother.1.1 hvalues), ?_⟩
  have hlength : (values (first ++ " \t".toList ++ second)).length = 4 := by decide
  have hend := (hpasses (first ++ " \t".toList ++ second)).1
  rwa [hlength] at hend

end Token
end BuildLog
