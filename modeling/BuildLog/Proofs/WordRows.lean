import BuildLog.Proofs.TokenEnds

/-!
# Rows of words

A word is a token with the blanks in front of it, so a text is the row of its words, and blanks behind
the last of them.

* `Word.list`: the words of a text, and `Word.spelled`, the text of a row of words;
* `Text.wordInduction`: what holds of blanks, and of a text if it holds of the text behind its first
  word, holds of every text;
* `Word.Spaced`: every token of a row ends before the word behind it. `Word.spaced_list`: the words of a
  text are such a row;
* `Word.exists_list_append`: the words of a text behind a text without open groups.
-/

namespace BuildLog

/-- A token with the blanks in front of it. -/
structure Word where
  gap : Text
  token : Token
  deriving DecidableEq

namespace Text

theorem isBlank_of_trimStart {text rest : Text} {c : Char} (h : trimStart text = c :: rest) :
    isBlank c = false := by
  have hhead := List.head?_dropWhile_not isBlank text
  rw [show text.dropWhile isBlank = c :: rest from h] at hhead
  exact hhead

/-- Blanks, and what stands behind them. -/
theorem takeWhile_gap_append {gap text : Text} (hgap : gap.all isBlank = true)
    (h : startsBlank text = false) : (gap ++ text).takeWhile isBlank = gap :=
  takeWhile_append_of_stop (List.all_eq_true.1 hgap) (not_isBlank_of_mem_head? h)

theorem leadingBlanks_gap_append {gap text : Text} (hgap : gap.all isBlank = true)
    (h : startsBlank text = false) : leadingBlanks (gap ++ text) = gap.length := by
  rw [leadingBlanks, takeWhile_gap_append hgap h]

theorem isAllBlank_gap_append (gap : Text) {text : Text} (h : startsBlank text = false) :
    isAllBlank (gap ++ text) = false := by
  cases text with
  | nil => cases h
  | cons c text =>
    have hc : isBlank c = false := h
    simp [isAllBlank, hc]

theorem trimStart_gap_append {gap : Text} (hgap : gap.all isBlank = true) (text : Text) :
    trimStart (gap ++ text) = trimStart text :=
  List.dropWhile_append_of_pos (by simpa using hgap)

theorem trimStart_of_not_blank {text : Text} (h : startsBlank text = false) :
    trimStart text = text := by
  cases text with
  | nil => cases h
  | cons c text =>
    have hc : isBlank c = false := h
    simp [trimStart, hc]

theorem startsBlank_append {text : Text} (h : startsBlank text = false) (tail : Text) :
    startsBlank (text ++ tail) = false := by
  cases text with
  | nil => cases h
  | cons c text => exact h

theorem startsBlank_gap_append {gap : Text} (hgap : gap.all isBlank = true) (hne : gap ≠ [])
    (text : Text) : startsBlank (gap ++ text) = true := by
  cases gap with
  | nil => exact absurd rfl hne
  | cons c gap =>
    rw [List.all_cons, Bool.and_eq_true] at hgap
    exact hgap.1

/-- Where a text starts with a blank, its first token does not stand at the start. -/
theorem gap_ne_nil {gap text : Text} (h : startsBlank (gap ++ text) = true)
    (htext : startsBlank text = false) : gap ≠ [] := by
  rintro rfl
  rw [List.nil_append, htext] at h
  cases h

/-- What holds of blanks, and of every text if it holds of the text behind its first word, holds of all
texts. -/
theorem wordInduction {motive : Text → Prop}
    (blank : ∀ gap, gap.all isBlank = true → motive gap)
    (word : ∀ gap (token : Token) rest, gap.all isBlank = true → token.Before rest → motive rest →
      motive (gap ++ (token.raw ++ rest))) (text : Text) : motive text := by
  -- the text behind a word is shorter, since the word is not empty
  induction hlength : text.length using Nat.strongRecOn generalizing text with
  | ind n ih =>
    have htext : text.takeWhile isBlank ++ trimStart text = text := takeWhile_append_trimStart text
    have hgap : (text.takeWhile isBlank).all isBlank = true := List.all_takeWhile
    cases htrim : trimStart text with
    | nil =>
      rw [htrim, List.append_nil] at htext
      exact htext ▸ blank _ hgap
    | cons c rest =>
      have hc : isBlank c = false := isBlank_of_trimStart htrim
      have hbefore : (Token.read (c :: rest)).Before _ := Token.before_drop hc
      have hread : (Token.read (c :: rest)).raw ++ (c :: rest).drop (Token.read (c :: rest)).width =
        c :: rest := Token.raw_append_drop none _
      have hshorter : ((c :: rest).drop (Token.read (c :: rest)).width).length < n := by
        have hpos : 0 < (Token.read (c :: rest)).width := Token.width_pos hc
        have hle := length_trimStart_le text
        rw [htrim] at hle
        simp only [List.length_drop, List.length_cons] at hle ⊢
        omega
      have hword := word _ _ _ hgap hbefore (ih _ hshorter _ rfl)
      rwa [hread, ← htrim, htext] at hword

end Text

namespace Token

variable {gap rest : Text} {token : Token}

/-! ## The tokens of a text -/

theorem listFrom_eq_list (skip : Nat) (text : Text) : listFrom skip text = list (text.drop skip) := by
  induction text generalizing skip with
  | nil => cases skip <;> simp [listFrom, list]
  | cons c text ih =>
    cases skip with
    | zero => rfl
    | succ skip => simpa [listFrom] using ih skip

theorem list_gap_append (hgap : gap.all Text.isBlank = true) (text : Text) :
    list (gap ++ text) = list text := by
  induction gap with
  | nil => rfl
  | cons c gap ih =>
    simp only [List.all_cons, Bool.and_eq_true] at hgap
    rw [← ih hgap.2, List.cons_append, list, listFrom, if_pos hgap.1]
    rfl

theorem list_of_blanks (hgap : gap.all Text.isBlank = true) : list gap = [] := by
  rw [← List.append_nil gap, list_gap_append hgap]
  rfl

theorem list_trimStart (text : Text) : list (Text.trimStart text) = list text := by
  rw [← list_gap_append List.all_takeWhile (Text.trimStart text), Text.takeWhile_append_trimStart]

/-- The first token of a text, and the tokens behind it. -/
theorem Before.list_eq (h : token.Before rest) : list (token.raw ++ rest) = token :: list rest := by
  have hblank := Text.startsBlank_append h.not_blank rest
  have hread := h.read_eq
  have hdrop := h.drop_width
  cases htext : token.raw ++ rest with
  | nil =>
    rw [htext] at hblank
    cases hblank
  | cons c text =>
    rw [htext] at hblank hread hdrop
    have hc : Text.isBlank c = false := hblank
    have hpos : 0 < (read (c :: text)).width := width_pos hc
    have hskip : text.drop ((read (c :: text)).width - 1) = rest := by
      rw [← hdrop, ← List.drop_succ_cons (a := c), Nat.sub_add_cancel hpos]
    simp only [list, listFrom, hc, Bool.false_eq_true, if_false]
    rw [listFrom_eq_list, hskip, hread]
    rfl

/-- The text of a token, read by itself, gives the token. -/
theorem map_read_raw (text : Text) : ((list text).map raw).map read = list text := by
  induction text using Text.wordInduction with
  | blank gap hgap => rw [list_of_blanks hgap, List.map_nil, List.map_nil]
  | word gap token rest hgap h ih =>
    rw [list_gap_append hgap, h.list_eq, List.map_cons, List.map_cons, ih, h.read_raw]

theorem list_eq_of_raw {text other : Text} (h : (list text).map raw = (list other).map raw) :
    list text = list other := by
  rw [← map_read_raw text, ← map_read_raw other, h]

end Token

namespace Word

/-! ## The words of a text -/

/-- The words of a text. -/
def list (text : Text) : List Word :=
  match _htrim : Text.trimStart text with
  | [] => []
  | c :: rest =>
    let token := Token.read (c :: rest)
    ⟨text.takeWhile Text.isBlank, token⟩ :: list ((c :: rest).drop token.width)
termination_by text.length
decreasing_by
  have hpos : 0 < (Token.read (c :: rest)).width := Token.width_pos (Text.isBlank_of_trimStart _htrim)
  have hle := Text.length_trimStart_le text
  simp only [_htrim, List.length_cons, List.length_drop] at hle ⊢
  omega

/-- The text of a row of words. -/
def spelled (words : List Word) : Text :=
  words.flatMap fun word => word.gap ++ word.token.raw

/-- The token of the first of some words. -/
def next? (words : List Word) : Option Token :=
  words.head?.map token

/-- The text of a token, or of a token and the word behind it. -/
def written (token : Token) (words : List Word) (pair : Bool) : Text :=
  if pair then token.raw ++ spelled (words.take 1) else token.raw

/-- The words behind a token, or behind a token and the word behind it. -/
def behind (words : List Word) (pair : Bool) : List Word :=
  if pair then words.tail else words

variable {gap rest text : Text} {token : Token} {word : Word} {words : List Word}

theorem behind_isSuffix (words : List Word) (pair : Bool) : behind words pair <:+ words := by
  cases pair with
  | false => exact List.suffix_rfl
  | true => exact List.tail_suffix words

theorem next?_of_same_tokens {others : List Word} (h : words.map Word.token = others.map Word.token) :
    next? words = next? others := by
  rw [next?, next?, ← List.head?_map, ← List.head?_map, h]

theorem behind_of_same_tokens {others : List Word} (h : words.map Word.token = others.map Word.token)
    (pair : Bool) : (behind words pair).map Word.token = (behind others pair).map Word.token := by
  cases pair with
  | false => exact h
  | true => simp [behind, List.map_tail, h]

theorem spelled_cons (word : Word) (words : List Word) :
    spelled (word :: words) = word.gap ++ (word.token.raw ++ spelled words) := by
  simp [spelled]

theorem list_of_blanks (hgap : gap.all Text.isBlank = true) : list gap = [] := by
  have htrim : Text.trimStart gap = [] := by
    rw [← List.append_nil gap, Text.trimStart_gap_append hgap]
    rfl
  rw [list]
  split
  · rfl
  · rename_i c rest h
    rw [htrim] at h
    cases h

/-- The first word of a text, and the words behind it. -/
theorem list_append (hgap : gap.all Text.isBlank = true) (h : token.Before rest) :
    list (gap ++ (token.raw ++ rest)) = ⟨gap, token⟩ :: list rest := by
  have hblank := Text.startsBlank_append h.not_blank rest
  have htrim : Text.trimStart (gap ++ (token.raw ++ rest)) = token.raw ++ rest := by
    rw [Text.trimStart_gap_append hgap, Text.trimStart_of_not_blank hblank]
  rw [list]
  split
  · rename_i hnil
    rw [htrim] at hnil
    rw [hnil] at hblank
    cases hblank
  · rename_i c tail hcons
    rw [htrim] at hcons
    dsimp only
    rw [← hcons, Text.takeWhile_gap_append hgap hblank, h.drop_width, h.read_eq]

/-- A text without words is blank. -/
theorem all_isBlank_of_list_eq_nil (h : list text = []) : text.all Text.isBlank = true := by
  induction text using Text.wordInduction with
  | blank gap hgap => exact hgap
  | word gap token rest hgap hbefore _ =>
    rw [list_append hgap hbefore] at h
    cases h

/-- A text with words starts with the first of them. -/
theorem exists_of_list_eq_cons (h : list text = word :: words) :
    ∃ rest, text = word.gap ++ (word.token.raw ++ rest) ∧ word.gap.all Text.isBlank = true ∧
      word.token.Before rest ∧ list rest = words := by
  induction text using Text.wordInduction with
  | blank gap hgap =>
    rw [list_of_blanks hgap] at h
    cases h
  | word gap token rest hgap hbefore _ =>
    rw [list_append hgap hbefore] at h
    cases h
    exact ⟨rest, rfl, hgap, hbefore, rfl⟩

/-- A text starts with the text of its first token, or of its first two, and the other words follow. -/
theorem exists_written_append (token : Token) (rest : Text) (pair : Bool) :
    ∃ more, token.raw ++ rest = written token (list rest) pair ++ more ∧
      list more = behind (list rest) pair := by
  cases pair with
  | false => exact ⟨rest, rfl, rfl⟩
  | true =>
    cases hlist : list rest with
    | nil => exact ⟨rest, by simp [written, spelled], hlist⟩
    | cons word words =>
      obtain ⟨more, rfl, -, -, hmore⟩ := exists_of_list_eq_cons hlist
      exact ⟨more, by simp [written, spelled], hmore⟩

theorem take_length_written (token : Token) (rest : Text) (pair : Bool) :
    (token.raw ++ rest).take (written token (list rest) pair).length =
      written token (list rest) pair := by
  obtain ⟨more, hmore, -⟩ := exists_written_append token rest pair
  rw [hmore, List.take_left]

theorem list_drop_length_written (token : Token) (rest : Text) (pair : Bool) :
    list ((token.raw ++ rest).drop (written token (list rest) pair).length) =
      behind (list rest) pair := by
  obtain ⟨more, hmore, hlist⟩ := exists_written_append token rest pair
  rw [hmore, List.drop_left, hlist]

theorem token_list_eq (text : Text) : Token.list text = (list text).map Word.token := by
  induction text using Text.wordInduction with
  | blank gap hgap => rw [Token.list_of_blanks hgap, list_of_blanks hgap, List.map_nil]
  | word gap token rest hgap h ih =>
    rw [Token.list_gap_append hgap, h.list_eq, list_append hgap h, ih, List.map_cons]

/-- Blanks in front of a text belong to its first word. -/
theorem list_gap_append (hgap : gap.all Text.isBlank = true) (text : Text) :
    list (gap ++ text) = (list text).modifyHead fun word => { word with gap := gap ++ word.gap } := by
  induction text using Text.wordInduction with
  | blank other hother =>
    rw [list_of_blanks hother, list_of_blanks (by simp_all), List.modifyHead_nil]
  | word other token rest hother h ih =>
    rw [← List.append_assoc, list_append (by simp_all) h, list_append hother h, List.modifyHead_cons]

/-! ## Rows that can be read from their text -/

/-- A row of words in which every token ends before the word behind it. -/
def Spaced : List Word → Prop
  | [] => True
  | word :: words =>
    word.gap.all Text.isBlank = true ∧ word.token.Before (spelled words) ∧ Spaced words

/-- A text that starts with a blank is spelled by words that start with one. -/
theorem startsBlank_spelled_list (h : Text.startsBlank text = true) :
    Text.startsBlank (spelled (list text)) = true := by
  induction text using Text.wordInduction with
  | blank gap hgap =>
    rw [list_of_blanks hgap]
    rfl
  | word gap token rest hgap hbefore ih =>
    rw [list_append hgap hbefore, spelled_cons]
    have hne := Text.gap_ne_nil h (Text.startsBlank_append hbefore.not_blank rest)
    exact Text.startsBlank_gap_append hgap hne _

theorem spaced_list (text : Text) : Spaced (list text) := by
  induction text using Text.wordInduction with
  | blank gap hgap =>
    rw [list_of_blanks hgap]
    trivial
  | word gap token rest hgap h ih =>
    rw [list_append hgap h]
    refine ⟨hgap, h.change (startsBlank_spelled_list h.startsBlank) ?_, ih⟩
    rcases h.eq_nil_or_isClosed with rfl | hclosed
    · exact .inl (by rw [list_of_blanks rfl]; rfl)
    · exact .inr hclosed

/-- In front of another word, the groups of a token are closed, and a blank is in between. -/
theorem Spaced.isClosed_and_gap_ne_nil {next : Word} (h : Spaced (word :: next :: words)) :
    word.token.isClosed = true ∧ next.gap ≠ [] := by
  obtain ⟨-, hbefore, -, hnext, -⟩ := h
  rw [spelled_cons] at hbefore
  have hgap := Text.gap_ne_nil hbefore.startsBlank (Text.startsBlank_append hnext.not_blank _)
  rcases hbefore.eq_nil_or_isClosed with hnil | hclosed
  · exact absurd (List.append_eq_nil_iff.1 hnil).1 hgap
  · exact ⟨hclosed, hgap⟩

/-- What stands behind the first word of a row may change, unless that is the only one. -/
theorem Spaced.before {tail : Text} (h : Spaced (word :: words))
    (htail : Text.startsBlank tail = true) (hwords : tail = [] ∨ words ≠ []) :
    word.token.Before tail := by
  refine h.2.1.change htail (hwords.imp_right fun hne => ?_)
  cases words with
  | nil => exact absurd rfl hne
  | cons next words => exact h.isClosed_and_gap_ne_nil.1

/-- The first of two words is still in front of the second if what follows changes. -/
theorem Spaced.before_gap {next : Word} (h : Spaced (word :: next :: words)) (tail : Text) :
    word.token.Before (next.gap ++ tail) := by
  obtain ⟨-, hgap⟩ := h.isClosed_and_gap_ne_nil
  have hblank : next.gap.all Text.isBlank = true := h.2.2.1
  exact h.before (Text.startsBlank_gap_append hblank hgap tail) (.inr nofun)

theorem Spaced.of_cons (h : Spaced (word :: words)) : Spaced words := h.2.2

theorem Spaced.behind (h : Spaced words) (pair : Bool) : Spaced (behind words pair) := by
  cases pair with
  | false => exact h
  | true =>
    cases words with
    | nil => exact h
    | cons word words => exact h.of_cons

/-- The tokens of an argument are the first tokens of the row. -/
theorem list_written (h : Spaced (word :: words)) (pair : Bool) :
    Token.list (written word.token words pair) =
      word.token :: if pair then (words.take 1).map Word.token else [] := by
  have hsingle : Token.list word.token.raw = [word.token] := by
    have hbefore : word.token.Before [] := h.2.1.change rfl (.inl rfl)
    rw [← List.append_nil word.token.raw, hbefore.list_eq]
    rfl
  cases pair with
  | false => exact hsingle
  | true =>
    cases words with
    | nil => simpa [written, spelled] using hsingle
    | cons next words =>
      have hnext : next.token.Before [] := h.of_cons.2.1.change rfl (.inl rfl)
      have hlist := (h.before_gap (next.token.raw ++ [])).list_eq
      rw [Token.list_gap_append h.of_cons.1, hnext.list_eq] at hlist
      simpa [written, spelled, Token.list, Token.listFrom] using hlist

/-! ## One text behind another -/

/-- The words of a text stay the same in front of another text, if all their groups are closed. Some
blanks go over to the other text. -/
theorem exists_list_append {tail : Text} (hclosed : ∀ token ∈ Token.list text, token.isClosed = true)
    (htail : Text.startsBlank tail = true) :
    ∃ gap, gap.all Text.isBlank = true ∧ list (text ++ tail) = list text ++ list (gap ++ tail) := by
  induction text using Text.wordInduction with
  | blank gap hgap => exact ⟨gap, hgap, by rw [list_of_blanks hgap, List.nil_append]⟩
  | word gap token rest hgap h ih =>
    rw [Token.list_gap_append hgap, h.list_eq] at hclosed
    obtain ⟨other, hother, hlist⟩ := ih fun token hmem => hclosed token (List.mem_cons_of_mem _ hmem)
    have hbefore : token.Before (rest ++ tail) := by
      refine h.change ?_ (.inr (hclosed token (List.mem_cons_self ..)))
      cases rest with
      | nil => exact htail
      | cons c rest => exact h.startsBlank
    refine ⟨other, hother, ?_⟩
    rw [List.append_assoc, List.append_assoc, list_append hgap hbefore, list_append hgap h, hlist,
      List.cons_append]

end Word
end BuildLog
