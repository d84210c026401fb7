import BuildLog.Token

/-!
# Where a token ends

A token ends in front of a blank, or where the text ends. What stands behind a token is no concern of
it, unless one of its groups is still open.

* `Token.openQuote`, `Token.isClosed`: whether a token ends inside a group;
* `Token.Before token rest`: a token is the first one in front of a text. `Token.Before.change`: a closed
  token is the first one in front of every text that starts with a blank;
* `Token.read_append_of_plain`, `Token.readWithin_group`: how names and groups are read.
-/

namespace BuildLog
namespace Token

/-! ## Open groups -/

/-- The quote of the group in which a text ends that is read as one token, inside the given quote or
outside of all; there is none if all groups are closed. -/
def openQuote : Option Char → Text → Option Char
  | quote, [] => quote
  | some quote, c :: rest =>
    if c == quote then openQuote none rest else openQuote (some quote) rest
  | none, '\\' :: '"' :: rest => openQuote none rest
  | none, c :: rest =>
    if isQuote c then openQuote (some c) rest
    else if Text.isBlank c then none
    else openQuote none rest

/-- Whether the groups of a token are all closed. -/
def isClosed (token : Token) : Bool :=
  openQuote none token.raw == none

/-! ## One character -/

variable {quote : Option Char} {c : Char} {text rest tail : Text}

/-- Outside of groups, a character stands for itself if it is no quote, no blank, and no backslash in
front of a double quote. -/
theorem readWithin_cons (hquote : isQuote c = false) (hblank : Text.isBlank c = false)
    (hescape : c = '\\' → rest.head? ≠ some '"') :
    readWithin none (c :: rest) = plain c (readWithin none rest) := by
  rw [readWithin]
  · simp [hquote, hblank]
  · rintro tail rfl rfl
    simp at hescape

theorem openQuote_cons (hquote : isQuote c = false) (hblank : Text.isBlank c = false)
    (hescape : c = '\\' → rest.head? ≠ some '"') :
    openQuote none (c :: rest) = openQuote none rest := by
  rw [openQuote]
  · simp [hquote, hblank]
  · rintro tail rfl rfl
    simp at hescape

/-- Outside of groups, a quote opens one. -/
theorem readWithin_quote (hquote : isQuote c = true) :
    readWithin none (c :: rest) = silent c (readWithin (some c) rest) := by
  rw [readWithin]
  · simp [hquote]
  · rintro tail rfl rfl
    simp [isQuote] at hquote

theorem openQuote_quote (hquote : isQuote c = true) :
    openQuote none (c :: rest) = openQuote (some c) rest := by
  rw [openQuote]
  · simp [hquote]
  · rintro tail rfl rfl
    simp [isQuote] at hquote

theorem isQuote_of_isBlank (h : Text.isBlank c = true) : isQuote c = false := by
  cases hquote : isQuote c with
  | false => rfl
  | true =>
    simp only [isQuote, Bool.or_eq_true, beq_iff_eq] at hquote
    rcases hquote with rfl | rfl <;> exact absurd h (by decide)

theorem not_isBlank_of_isQuote (h : isQuote c = true) : Text.isBlank c = false := by
  cases hblank : Text.isBlank c with
  | false => rfl
  | true =>
    rw [isQuote_of_isBlank hblank] at h
    cases h

/-- In front of a blank there is no token. -/
theorem read_of_startsBlank (h : Text.startsBlank text = true) : read text = empty := by
  cases text with
  | nil => rfl
  | cons c rest =>
    have hblank : Text.isBlank c = true := h
    rw [read, readWithin]
    · simp [isQuote_of_isBlank hblank, hblank]
    · rintro tail rfl rfl
      exact absurd hblank (by decide)

/-! ## The end -/

/-- Behind a token there is a blank, or nothing. -/
theorem startsBlank_drop (quote : Option Char) (text : Text) :
    Text.startsBlank (text.drop (readWithin quote text).width) = true := by
  unfold width
  fun_induction readWithin quote text <;> simp_all [silent, plain, empty, Text.startsBlank]

/-- A token that is not empty starts like the text that it is read from. -/
theorem head?_of_raw {d : Char} (h : (readWithin quote text).raw.head? = some d) :
    text.head? = some d := by
  rw [← raw_append_drop quote text, List.head?_append, h]
  rfl

theorem head?_ne_of_startsBlank (h : Text.startsBlank text = true) : text.head? ≠ some '"' := by
  intro hhead
  obtain ⟨rest, rfl⟩ := List.head?_eq_some_iff.1 hhead
  have hquote : Text.isBlank '"' = true := h
  exact absurd hquote (by decide)

/-- Behind a backslash that stands for itself, the token does not go on with a double quote. -/
theorem head?_append_ne (hescape : ∀ tail, c = '\\' → rest = '"' :: tail → False)
    (htail : tail.head? ≠ some '"') :
    c = '\\' → ((readWithin none rest).raw ++ tail).head? ≠ some '"' := by
  intro hc hhead
  rw [List.head?_append] at hhead
  cases hraw : (readWithin none rest).raw.head? with
  | none => exact htail (by simpa [hraw] using hhead)
  | some d =>
    have hd : d = '"' := by simpa [hraw] using hhead
    obtain ⟨tail, rfl⟩ := List.head?_eq_some_iff.1 (head?_of_raw (hd ▸ hraw))
    exact hescape tail hc rfl

theorem head?_ne (hescape : ∀ tail, c = '\\' → rest = '"' :: tail → False) :
    c = '\\' → (readWithin none rest).raw.head? ≠ some '"' := by
  have h : c = '\\' → ((readWithin none rest).raw ++ []).head? ≠ some '"' :=
    head?_append_ne hescape nofun
  rwa [List.append_nil] at h

/-- A token whose groups are not all closed goes on to the end of the text. -/
theorem drop_eq_nil_or_closed (quote : Option Char) (text : Text) :
    text.drop (readWithin quote text).width = [] ∨
      openQuote quote (readWithin quote text).raw = none := by
  unfold width
  fun_induction readWithin quote text with
  | case1 quote => exact .inl rfl
  | case2 quote c rest hc ih => simpa [silent, openQuote, hc] using ih
  | case3 quote c rest hc ih => simpa [plain, openQuote, hc] using ih
  | case4 rest ih => simpa [silent, plain, openQuote] using ih
  | case5 c rest _ hquote ih => simpa [silent, openQuote_quote hquote] using ih
  | case6 c rest _ _ _ => exact .inr rfl
  | case7 c rest hescape hquote hblank ih =>
    rw [plain, openQuote_cons (by simpa using hquote) (by simpa using hblank) (head?_ne hescape)]
    simpa using ih

/-- The text of a closed token is read as that token in front of every blank. -/
theorem readWithin_append (quote : Option Char) (text : Text) (htail : Text.startsBlank tail = true)
    (hclosed : tail = [] ∨ openQuote quote (readWithin quote text).raw = none) :
    readWithin quote ((readWithin quote text).raw ++ tail) = readWithin quote text := by
  fun_induction readWithin quote text with
  | case1 quote =>
    cases quote with
    | none => exact read_of_startsBlank htail
    | some quote => simp_all [openQuote, empty, readWithin]
  | case2 quote c rest hc ih => simp_all [silent, openQuote, readWithin]
  | case3 quote c rest hc ih => simp_all [plain, openQuote, readWithin]
  | case4 rest ih => simp_all [silent, plain, openQuote, readWithin]
  | case5 c rest _ hquote ih =>
    simp_all [silent, openQuote_quote hquote, readWithin_quote hquote]
  | case6 c rest _ _ _ => exact read_of_startsBlank htail
  | case7 c rest hescape hquote hblank ih =>
    simp only [Bool.not_eq_true] at hquote hblank
    rw [plain, openQuote_cons hquote hblank (head?_ne hescape)] at hclosed
    -- the blank behind the token keeps a backslash at its end from escaping anything
    rw [plain, List.cons_append, readWithin_cons hquote hblank
      (head?_append_ne hescape (head?_ne_of_startsBlank htail)), ih hclosed, plain]

/-! ## The first token of a text -/

/-- A token is the first one of the text that starts with it and goes on with the given rest. -/
structure Before (token : Token) (rest : Text) : Prop where
  read_eq : read (token.raw ++ rest) = token
  not_blank : Text.startsBlank token.raw = false

/-- The token of a text that starts with no blank starts with the same character. -/
theorem exists_raw_eq_cons (h : Text.isBlank c = false) (text : Text) :
    ∃ raw, (read (c :: text)).raw = c :: raw := by
  have hwritten : (read (c :: text)).raw ++ (c :: text).drop (read (c :: text)).width = c :: text :=
    raw_append_drop none _
  have hpos : 0 < (read (c :: text)).width := width_pos h
  cases hraw : (read (c :: text)).raw with
  | nil => simp [width, hraw] at hpos
  | cons d raw =>
    rw [hraw] at hwritten
    rw [(List.cons.inj hwritten).1]
    exact ⟨raw, rfl⟩

/-- It is the first one of that text. -/
theorem before_drop (h : Text.startsBlank text = false) :
    (read text).Before (text.drop (read text).width) := by
  have hwritten : (read text).raw ++ text.drop (read text).width = text := raw_append_drop none text
  refine ⟨by rw [hwritten], ?_⟩
  cases text with
  | nil => cases h
  | cons c text =>
    obtain ⟨raw, hraw⟩ := exists_raw_eq_cons (show Text.isBlank c = false from h) text
    rw [hraw]
    exact h

namespace Before

variable {token : Token}

theorem drop_width (h : token.Before rest) :
    (token.raw ++ rest).drop (read (token.raw ++ rest)).width = rest := by
  rw [h.read_eq, width, List.drop_left]

theorem raw_length_pos (h : token.Before rest) : 0 < token.raw.length := by
  have hblank := h.not_blank
  cases hraw : token.raw with
  | nil => exact absurd hblank (by simp [hraw, Text.startsBlank])
  | cons c raw => simp

theorem startsBlank (h : token.Before rest) : Text.startsBlank rest = true := by
  have hdrop : Text.startsBlank ((token.raw ++ rest).drop (read (token.raw ++ rest)).width) = true :=
    startsBlank_drop none _
  rwa [h.drop_width] at hdrop

theorem eq_nil_or_isClosed (h : token.Before rest) : rest = [] ∨ token.isClosed = true := by
  have hend := drop_eq_nil_or_closed none (token.raw ++ rest)
  change (token.raw ++ rest).drop (read (token.raw ++ rest)).width = [] ∨
    openQuote none (read (token.raw ++ rest)).raw = none at hend
  rw [h.drop_width, h.read_eq] at hend
  simpa [isClosed] using hend

/-- What stands behind a closed token may change, as long as a blank is in between. -/
theorem change (h : token.Before rest) (htail : Text.startsBlank tail = true)
    (hclosed : tail = [] ∨ token.isClosed = true) : token.Before tail := by
  refine ⟨?_, h.not_blank⟩
  have hend : tail = [] ∨ openQuote none (read (token.raw ++ rest)).raw = none := by
    rw [h.read_eq]
    simpa [isClosed] using hclosed
  have hread : read ((read (token.raw ++ rest)).raw ++ tail) = read (token.raw ++ rest) :=
    readWithin_append none _ htail hend
  rwa [h.read_eq] at hread

/-- The text of a token is read as the token. -/
theorem read_raw (h : token.Before rest) : read token.raw = token := by
  have hread := (h.change rfl (.inl rfl)).read_eq
  rwa [List.append_nil] at hread

end Before

/-! ## Names and groups -/

/-- Whether a character always stands for itself: it is no blank, no quote and no backslash. -/
def isPlainChar (c : Char) : Bool :=
  !Text.isBlank c && !isQuote c && c != '\\'

/-- Puts a text in front that stands for itself. -/
def behind (name : Text) (rest : Token) : Token :=
  ⟨name ++ rest.raw, name ++ rest.value⟩

/-- A name without blanks, quotes and backslashes is read as it stands. -/
theorem read_append_of_plain {name : Text} (h : name.all isPlainChar = true) (rest : Text) :
    read (name ++ rest) = behind name (read rest) := by
  induction name with
  | nil => rfl
  | cons c name ih =>
    simp only [List.all_cons, Bool.and_eq_true, isPlainChar, Bool.not_eq_true', bne_iff_ne] at h
    obtain ⟨⟨⟨hblank, hquote⟩, hescape⟩, hname⟩ := h
    have hcons : read (c :: (name ++ rest)) = plain c (read (name ++ rest)) :=
      readWithin_cons hquote hblank fun hc => absurd hc hescape
    rw [List.cons_append, hcons, ih (by simpa [isPlainChar] using hname)]
    rfl

/-- A name at the start of a text does not go beyond its first token. -/
theorem Before.eq_behind {token : Token} {name after : Text} (h : token.Before rest)
    (hname : name.all isPlainChar = true) (htext : token.raw ++ rest = name ++ after) :
    token = behind name (read after) ∧ after = (read after).raw ++ rest := by
  have htoken : token = behind name (read after) := by
    rw [← h.read_eq, htext, read_append_of_plain hname]
  refine ⟨htoken, ?_⟩
  rw [htoken, behind, List.append_assoc] at htext
  exact (List.append_cancel_left htext).symm

/-- A plain text in front of a blank is a token. -/
theorem Before.eq_of_plain {token : Token} {name : Text} (h : token.Before rest)
    (hname : name.all isPlainChar = true) (htail : Text.startsBlank tail = true)
    (htext : token.raw ++ rest = name ++ tail) : token = ⟨name, name⟩ := by
  rw [(h.eq_behind hname htext).1, read_of_startsBlank htail]
  simp [behind, empty]

/-- A group goes on to its quote, whatever stands in between. -/
theorem readWithin_group {q : Char} {inside : Text} (h : q ∉ inside) (rest : Text) :
    readWithin (some q) (inside ++ q :: rest) = behind inside (silent q (read rest)) := by
  induction inside with
  | nil => simp [readWithin, behind, read]
  | cons c inside ih =>
    simp only [List.mem_cons, not_or] at h
    have hc : (c == q) = false := by simpa using fun hc => h.1 hc.symm
    rw [List.cons_append, readWithin, if_neg (by simp [hc]), ih h.2]
    rfl

end Token
end BuildLog
