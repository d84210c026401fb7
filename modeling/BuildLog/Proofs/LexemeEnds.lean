import BuildLog.Pattern.Compile
import BuildLog.Proofs.EscapeEnds

/-!
# Where lexemes end

A lexeme is read as far as it goes. If it is whole, a text behind it that breaks off does not change it.

* `Lexeme.isWhole`: a lexeme is neither a fault nor a comment that any text behind it would go on with;
* one lemma for each kind of lexeme, from `withGreed_append` to `readLoose_append`: if it is whole, it is read
  in the same way in front of a text that breaks off, and it does not reach into that text.
-/

namespace BuildLog.Lexeme

open Pattern (BreaksOff)

/-- Whether a lexeme is a fault. -/
def isFault : Lexeme → Bool
  | fault .. => true
  | _ => false

/-- Whether a lexeme is neither a fault nor an open comment. -/
def isWhole : Lexeme → Bool
  | fault .. => false
  | filler isOpen => !isOpen
  | _ => true

@[simp] theorem isFault_fault (fault : PatternFault) (offset : Nat) :
    (Lexeme.fault fault offset).isFault = true := rfl

@[simp] theorem isWhole_fault (fault : PatternFault) (offset : Nat) :
    (Lexeme.fault fault offset).isWhole = false := rfl

theorem isWhole_iff {lexeme : Lexeme} :
    lexeme.isWhole = true ↔ lexeme.isFault = false ∧ lexeme ≠ filler true := by
  cases lexeme <;> simp [isWhole, isFault]

theorem isFault_of_isWhole {lexeme : Lexeme} (h : lexeme.isWhole = true) : lexeme.isFault = false :=
  (isWhole_iff.1 h).1

variable {text rest : Text}

/-! ## Quantifiers -/

theorem withGreed_append (h : BreaksOff rest) (least : Nat) (most : Option Nat) (width : Nat)
    (text : Text) : withGreed least most width (text ++ rest) = withGreed least most width text := by
  cases text with
  | nil =>
    obtain ⟨c, tail, rfl, hc⟩ := h.exists_cons
    rcases hc with rfl | rfl | ⟨rfl, -⟩ <;> rfl
  | cons c text =>
    rw [List.cons_append]
    unfold withGreed
    split <;> split <;> simp_all

theorem withGreed_width (least : Nat) (most : Option Nat) (width : Nat) (text : Text) :
    (withGreed least most width text).2 ≤ width + text.length := by
  unfold withGreed
  split <;> simp

/-- A quantifier of one sign. -/
theorem readGreed_append (h : BreaksOff rest) (least : Nat) (most : Option Nat) (text : Text) :
    withGreed least most 1 (text ++ rest) = withGreed least most 1 text ∧
      (withGreed least most 1 text).2 ≤ text.length + 1 := by
  have hwidth := withGreed_width least most 1 text
  exact ⟨withGreed_append h least most 1 text, by omega⟩

/-- What is behind a number of characters of a text, with more text behind it. -/
theorem drop_takeWhile_append (p : Char → Bool) (text rest : Text) :
    (text ++ rest).drop (text.takeWhile p).length =
      text.drop (text.takeWhile p).length ++ rest :=
  List.drop_append_of_le_length (List.takeWhile_prefix p).length_le

/-- The numbers between braces as they are written, whether there is a comma, and the text behind. -/
structure Bounds where
  low : Text
  comma : Bool
  high : Text
  behind : Text

/-- The bounds behind an opening brace. -/
def boundsOf (text : Text) : Bounds :=
  let low := text.takeWhile (·.isDigit)
  let afterLow := text.drop low.length
  let comma := afterLow.head? == some ','
  let high := if comma then afterLow.tail.takeWhile (·.isDigit) else low
  ⟨low, comma, high, if comma then afterLow.tail.drop high.length else afterLow⟩

/-- The greatest number of repetitions, if there is one. -/
def Bounds.most (bounds : Bounds) : Option Nat :=
  if bounds.high.isEmpty then none else some (Pattern.digitsValue 10 bounds.high)

/-- The quantifier with some bounds in a text of the given length. -/
def Bounds.lexeme (bounds : Bounds) (length : Nat) : Lexeme × Nat :=
  match bounds.behind with
  | '}' :: rest =>
    let least := Pattern.digitsValue 10 bounds.low
    let width := length - rest.length + 1
    if bounds.low.isEmpty && !bounds.comma then (part (.char '\x7b'), 1)
    else
      match (boundFault? bounds.low).or (boundFault? bounds.high) with
      | some wrong => (fault wrong 0, width)
      | none =>
        if bounds.most.any (· < least) then (fault .boundsReversed 1, width)
        else withGreed least bounds.most width rest
  | _ => (part (.char '\x7b'), 1)

theorem readBounds_eq (text : Text) : readBounds text = (boundsOf text).lexeme text.length := rfl

/-- The bounds end in front of a text that breaks off. -/
theorem boundsOf_append (h : BreaksOff rest) (text : Text) :
    boundsOf (text ++ rest) = { boundsOf text with behind := (boundsOf text).behind ++ rest } := by
  have hdigit : ∀ c ∈ rest.head?, c.isDigit = false := h.head rfl rfl rfl
  unfold boundsOf
  dsimp only
  rw [Pattern.takeWhile_append_of_head text hdigit, drop_takeWhile_append]
  cases hcase : text.drop (text.takeWhile Char.isDigit).length with
  | nil =>
    have hcomma : (rest.head? == some ',') = false := by
      obtain ⟨c, tail, rfl, hc⟩ := h.exists_cons
      rcases hc with rfl | rfl | ⟨rfl, -⟩ <;> rfl
    simp [hcomma]
  | cons c tail =>
    by_cases hcomma : c = ','
    · simp [hcomma, Pattern.takeWhile_append_of_head tail hdigit, drop_takeWhile_append]
    · simp [hcomma]

theorem length_behind_le (text : Text) : (boundsOf text).behind.length ≤ text.length := by
  unfold boundsOf
  dsimp only
  split <;> simp only [List.length_drop, List.length_tail] <;> omega

/-- Bounds that are in order are the same quantifier in front of a text that breaks off. -/
theorem Bounds.lexeme_append (h : BreaksOff rest) (bounds : Bounds) {length : Nat}
    (hlength : bounds.behind.length ≤ length) (hwhole : (bounds.lexeme length).1.isWhole = true) :
    { bounds with behind := bounds.behind ++ rest }.lexeme (length + rest.length) =
        bounds.lexeme length ∧
      (bounds.lexeme length).2 ≤ length + 1 := by
  have hmost : { bounds with behind := bounds.behind ++ rest }.most = bounds.most := rfl
  unfold lexeme at hwhole ⊢
  rw [hmost]
  generalize bounds.most = most at hwhole ⊢
  split at hwhole
  · rename_i tail htail
    rw [htail, List.length_cons] at hlength
    have hwidth := withGreed_width (Pattern.digitsValue 10 bounds.low) most
      (length - tail.length + 1) tail
    simp only [htail, List.cons_append, List.length_append, Nat.add_sub_add_right,
      withGreed_append h]
    split
    · exact ⟨trivial, by simp⟩
    · split
      · simp_all
      · split
        · simp_all
        · exact ⟨trivial, by omega⟩
  · rename_i hopen
    have hbrace : ∀ tail, bounds.behind ++ rest ≠ '}' :: tail := by
      intro tail htail
      rcases List.append_eq_cons_iff.1 htail with ⟨-, hrest⟩ | ⟨front, hfront, -⟩
      · obtain ⟨c, _, hcons, hc⟩ := h.exists_cons
        rw [hrest] at hcons
        cases hcons
        simp at hc
      · exact hopen front hfront
    split
    · rename_i tail htail
      exact absurd htail (hbrace tail)
    · exact ⟨rfl, by simp⟩

theorem readBounds_append (h : BreaksOff rest) (hwhole : (readBounds text).1.isWhole = true) :
    readBounds (text ++ rest) = readBounds text ∧ (readBounds text).2 ≤ text.length + 1 := by
  rw [readBounds_eq, readBounds_eq, boundsOf_append h, List.length_append]
  exact Bounds.lexeme_append h _ (length_behind_le text) hwhole

/-! ## Flags -/

/-- Flags that are set end with a sign, which is left. -/
theorem readOn_append (rest : Text) {offset width : Nat} {on flags back : Text}
    (h : readOn offset on text = (.ok (flags, back), width)) :
    readOn offset on (text ++ rest) = (.ok (flags, back ++ rest), width) ∧ back ≠ [] ∧
      width + back.length = offset + text.length := by
  induction text generalizing offset on with
  | nil => cases h
  | cons c text ih =>
    rw [List.cons_append]
    unfold readOn at h ⊢
    split at h
    · split at h
      · cases h
      · split at h
        · cases h
        · obtain ⟨hsame, hne, hlength⟩ := ih h
          simp only [*, if_true]
          exact ⟨by simp_all, hne, by rw [List.length_cons]; omega⟩
    · split at h
      · cases h
        simp only [*, if_true]
        exact ⟨by simp_all, by simp, by simp⟩
      · cases h

/-- Flags that are cleared are read with the sign behind them. -/
theorem readOff_append (rest : Text) {offset width : Nat} {off flags : Text}
    (h : readOff offset off text = (.ok flags, width)) :
    readOff offset off (text ++ rest) = (.ok flags, width) ∧ width ≤ offset + text.length := by
  induction text generalizing offset off with
  | nil => cases h
  | cons c text ih =>
    rw [List.cons_append, List.length_cons]
    unfold readOff at h ⊢
    split at h
    · split at h
      · cases h
      · obtain ⟨hsame, hlength⟩ := ih h
        simp only [*, if_true]
        exact ⟨by simp_all, by omega⟩
    · split at h
      · cases h
        simp only [*, if_true]
        exact ⟨by simp_all, by omega⟩
      · cases h

theorem readCleared_append (rest : Text) {offset : Nat} {on : Text}
    (hwhole : (readCleared offset on text).1.isWhole = true) :
    readCleared offset on (text ++ rest) = readCleared offset on text ∧
      (readCleared offset on text).2 ≤ offset + text.length := by
  unfold readCleared at hwhole ⊢
  match hoff : readOff offset [] text with
  | (.error (wrong, place), width) => simp [hoff] at hwhole
  | (.ok off, width) =>
    obtain ⟨hsame, hwidth⟩ := readOff_append rest hoff
    rw [hsame]
    refine ⟨rfl, ?_⟩
    dsimp only
    split
    · exact hwidth
    · split <;> exact hwidth

theorem readFlagSign_append (rest : Text) {offset : Nat} {on : Text} (hne : text ≠ [])
    (hwhole : (readFlagSign offset on text).1.isWhole = true) :
    readFlagSign offset on (text ++ rest) = readFlagSign offset on text ∧
      (readFlagSign offset on text).2 ≤ offset + text.length := by
  unfold readFlagSign at hwhole
  split at hwhole
  · exact absurd rfl hne
  · exact ⟨rfl, by simp [readFlagSign]⟩
  · rename_i sign tail hsign
    have hother (back : Text) : readFlagSign offset on (sign :: back) =
        if on.contains 't' then (fault .globalOn offset, offset + 1)
        else if sign == ':' then (opening (.flagged on []), offset + 1)
        else readCleared (offset + 1) on back := by
      rw [readFlagSign]
      exact hsign
    rw [List.cons_append, hother, hother, List.length_cons]
    split
    · simp_all
    · split
      · exact ⟨rfl, by dsimp only; omega⟩
      · rw [if_neg ‹_›, if_neg ‹_›] at hwhole
        obtain ⟨hsame, hwidth⟩ := readCleared_append rest hwhole
        exact ⟨hsame, by omega⟩

theorem readFlags_append (rest : Text) (hwhole : (readFlags text).1.isWhole = true) :
    readFlags (text ++ rest) = readFlags text ∧ (readFlags text).2 ≤ text.length + 2 := by
  unfold readFlags at hwhole ⊢
  match hon : readOn 2 [] text with
  | (.error (wrong, place), width) => simp [hon] at hwhole
  | (.ok (on, back), width) =>
    obtain ⟨hsame, hne, hlength⟩ := readOn_append rest hon
    rw [hon] at hwhole
    rw [hsame]
    obtain ⟨hsign, hwidth⟩ := readFlagSign_append rest hne hwhole
    exact ⟨hsign, by dsimp only; omega⟩

/-! ## Groups -/

theorem readNamedCapture_append (rest : Text) (hwhole : (readNamedCapture text).1.isWhole = true) :
    readNamedCapture (text ++ rest) = readNamedCapture text ∧
      (readNamedCapture text).2 ≤ text.length + 4 := by
  unfold readNamedCapture at hwhole ⊢
  match hname : Pattern.readName '>' "group name" text with
  | (.error wrong, width) => simp [hname] at hwhole
  | (.ok name, width) =>
    obtain ⟨hsame, hwidth⟩ := Pattern.readName_append rest (by decide) hname
    rw [hsame]
    refine ⟨rfl, ?_⟩
    dsimp only
    split <;> exact Nat.add_le_add_right hwidth 4

theorem readNamedReference_append (rest : Text)
    (hwhole : (readNamedReference text).1.isWhole = true) :
    readNamedReference (text ++ rest) = readNamedReference text ∧
      (readNamedReference text).2 ≤ text.length + 4 := by
  unfold readNamedReference at hwhole ⊢
  match hname : Pattern.readName ')' "group name" text with
  | (.error wrong, width) => simp [hname] at hwhole
  | (.ok name, width) =>
    obtain ⟨hsame, hwidth⟩ := Pattern.readName_append rest (by decide) hname
    rw [hsame]
    refine ⟨rfl, ?_⟩
    dsimp only
    split <;> exact Nat.add_le_add_right hwidth 4

theorem readCondition_append (rest : Text) (hwhole : (readCondition text).1.isWhole = true) :
    readCondition (text ++ rest) = readCondition text ∧
      (readCondition text).2 ≤ text.length + 3 := by
  unfold readCondition at hwhole ⊢
  match hname : Pattern.readName ')' "group name" text with
  | (.error wrong, width) => simp [hname] at hwhole
  | (.ok name, width) =>
    obtain ⟨hsame, hwidth⟩ := Pattern.readName_append rest (by decide) hname
    rw [hsame]
    refine ⟨rfl, ?_⟩
    dsimp only
    split <;> exact Nat.add_le_add_right hwidth 3

theorem readComment_append (rest : Text) (hwhole : (readComment text).1.isWhole = true) :
    readComment (text ++ rest) = readComment text ∧ (readComment text).2 ≤ text.length + 3 := by
  unfold readComment at hwhole ⊢
  dsimp only at hwhole ⊢
  split at hwhole
  · rename_i hended
    have hhead : (Pattern.beforeSign ')' text).2.head? = some ')' := by simpa using hended
    have hlonger : ((Pattern.beforeSign ')' text).2 ++ rest).head? = some ')' := by
      rw [List.head?_append, hhead]
      rfl
    have hlength := Pattern.length_beforeSign_lt hhead
    rw [Pattern.beforeSign_append rest hhead (by decide), hlonger, hhead]
    exact ⟨rfl, by simp; omega⟩
  · simp at hwhole

theorem isWhole_unknownGroupKind (front text : Text) :
    (unknownGroupKind front text).1.isWhole = false := by
  unfold unknownGroupKind
  split <;> rfl

/-- A flag or a minus sign is no other sign of a group. -/
theorem readExtension_of_flag {c : Char} (h : c ∈ flagLetters ∨ c = '-') (tail : Text) :
    readExtension (c :: tail) = readFlags (c :: tail) := by
  have hletters : c ∈ ['a', 'i', 'L', 'm', 's', 't', 'u', 'x', '-'] := by
    rcases h with h | rfl
    · exact List.mem_append_left ['-'] h
    · decide
  simp only [List.mem_cons, List.not_mem_nil, or_false] at hletters
  rcases hletters with rfl | rfl | rfl | rfl | rfl | rfl | rfl | rfl | rfl <;> rfl

theorem readExtension_append (rest : Text) (hwhole : (readExtension text).1.isWhole = true) :
    readExtension (text ++ rest) = readExtension text ∧
      (readExtension text).2 ≤ text.length + 2 := by
  unfold readExtension at hwhole
  split at hwhole
  · exact ⟨rfl, by simp [readExtension]⟩
  · exact ⟨rfl, by simp [readExtension]⟩
  · exact ⟨rfl, by simp [readExtension]⟩
  · exact ⟨rfl, by simp [readExtension]⟩
  · exact ⟨rfl, by simp [readExtension]⟩
  · rw [isWhole_unknownGroupKind] at hwhole
    cases hwhole
  · exact ⟨rfl, by simp [readExtension]⟩
  · exact readComment_append rest hwhole
  · exact readCondition_append rest hwhole
  · exact readNamedCapture_append rest hwhole
  · exact readNamedReference_append rest hwhole
  · rw [isWhole_unknownGroupKind] at hwhole
    cases hwhole
  · split at hwhole
    · rename_i hflag
      obtain ⟨c, tail, rfl⟩ : ∃ c tail, text = c :: tail := by
        cases text with
        | nil => simp at hflag
        | cons c tail => exact ⟨c, tail, rfl⟩
      have hsign : c ∈ flagLetters ∨ c = '-' := by simpa using hflag
      rw [List.cons_append, readExtension_of_flag hsign, readExtension_of_flag hsign]
      exact readFlags_append rest hwhole
    · rw [isWhole_unknownGroupKind] at hwhole
      cases hwhole

/-! ## Escapes and sets -/

/-- The character with an octal number, as a lexeme. -/
def octalLexeme (digits : Text) : Lexeme × Nat :=
  match Pattern.readOctal digits with
  | (.ok code, width) => (part (.ofCode code), width)
  | (.error (wrong, offset), width) => (fault wrong offset, width)

theorem octalLexeme_width (digits : Text) : (octalLexeme digits).2 = digits.length + 1 := by
  have hwidth := Pattern.readOctal_width digits
  unfold octalLexeme
  split <;> simp_all

/-- The reference to a group with a number. -/
def numberLexeme (digits : Text) : Lexeme × Nat :=
  (reference (.number (Pattern.digitsValue 10 digits)) (digits.length + 1), digits.length + 1)

/-- A digit that the text behind does not go on. -/
theorem readNumber_single {digit c : Char} (hdigit : digit ≠ '0') (hoctal : Pattern.isOctal c = false)
    (hc : c.isDigit = false) (tail : Text) :
    readNumber digit (c :: tail) = numberLexeme [digit] := by
  unfold readNumber numberLexeme
  cases tail <;> simp [hdigit, hoctal, hc]

/-- Two digits that the text behind does not go on. -/
theorem readNumber_pair {digit second c : Char} (hdigit : digit ≠ '0')
    (hoctal : Pattern.isOctal c = false) (tail : Text) :
    readNumber digit (second :: c :: tail) = readNumber digit [second] := by
  unfold readNumber
  simp [hdigit, hoctal]

theorem readNumber_append (h : BreaksOff rest) {digit : Char} (text : Text) :
    readNumber digit (text ++ rest) = readNumber digit text ∧
      (readNumber digit text).2 ≤ text.length + 2 := by
  by_cases hzero : digit = '0'
  · subst hzero
    have hchar (body : Text) : readNumber '0' body =
        octalLexeme ('0' :: (body.take 2).takeWhile Pattern.isOctal) := rfl
    have hlength := Pattern.length_takeWhile_isOctal_le text
    rw [hchar, hchar, Pattern.takeWhile_isOctal_append h, octalLexeme_width, List.length_cons]
    exact ⟨rfl, by omega⟩
  · obtain ⟨c, tail, rfl, -⟩ := id h.exists_cons
    have hoctal : Pattern.isOctal c = false := h.head (p := Pattern.isOctal) rfl rfl rfl c rfl
    have hc : c.isDigit = false := h.head (p := Char.isDigit) rfl rfl rfl c rfl
    match text with
    | [] =>
      have hnone : readNumber digit [] = numberLexeme [digit] := by
        simp [readNumber, numberLexeme, hzero]
      rw [List.nil_append, readNumber_single hzero hoctal hc, hnone]
      exact ⟨rfl, by simp [numberLexeme]⟩
    | [second] =>
      rw [List.singleton_append, readNumber_pair hzero hoctal]
      unfold readNumber
      by_cases hsecond : second.isDigit = true <;> simp [hzero, hsecond]
    | second :: third :: text =>
      have hthree (body : Text) : readNumber digit (second :: third :: body) =
          if Pattern.isOctal digit && Pattern.isOctal second && Pattern.isOctal third then
            octalLexeme [digit, second, third]
          else if second.isDigit then numberLexeme [digit, second]
          else numberLexeme [digit] := by
        unfold readNumber
        rw [if_neg (by simpa using hzero)]
        rfl
      rw [List.cons_append, List.cons_append, hthree, hthree]
      refine ⟨rfl, ?_⟩
      split
      · simp [octalLexeme_width]
      · split <;> simp [numberLexeme]

theorem readEscape_append (h : BreaksOff rest) (letter : Char) (text : Text)
    (hwhole : (readEscape letter text).1.isWhole = true) :
    readEscape letter (text ++ rest) = readEscape letter text ∧
      (readEscape letter text).2 ≤ text.length + 2 := by
  unfold readEscape at hwhole ⊢
  split at hwhole
  · exact ⟨rfl, by simp⟩
  · exact ⟨rfl, by simp⟩
  · by_cases hdigit : letter.isDigit = true
    · simp only [hdigit, if_true] at hwhole ⊢
      exact readNumber_append h text
    · simp only [hdigit] at hwhole ⊢
      match hchar : Pattern.readChar letter text with
      | (.ok code, width) =>
        obtain ⟨hsame, -, hwidth⟩ := Pattern.readChar_append rest hchar
        rw [hsame]
        exact ⟨rfl, hwidth⟩
      | (.error wrong, width) =>
        rw [hchar] at hwhole
        simp at hwhole

theorem readBracket_append (h : BreaksOff rest) (text : Text)
    (hwhole : (readBracket text).1.isWhole = true) :
    readBracket (text ++ rest) = readBracket text ∧ (readBracket text).2 ≤ text.length + 1 := by
  unfold readBracket at hwhole ⊢
  match hset : Pattern.readSet text with
  | (.ok set, width) =>
    obtain ⟨hsame, hwidth⟩ := Pattern.readSet_append h hset
    rw [hsame]
    exact ⟨rfl, hwidth⟩
  | (.error wrong, width) =>
    rw [hset] at hwhole
    simp at hwhole

/-! ## All lexemes -/

/-- The characters that start something else than a character that stands for itself. -/
def signs : Text := ['\\', '.', '^', '$', '|', '(', ')', '[', '*', '+', '?', '\x7b']

theorem readSign_plain {c : Char} (h : c ∉ signs) (tail : Text) :
    readSign (c :: tail) = (part (.char c), 1) := by
  simp only [signs, List.mem_cons, not_or] at h
  obtain ⟨hslash, hdot, hcaret, hdollar, hbar, hopen, hclose, hbracket, hstar, hplus, hquestion,
    hbrace, -⟩ := h
  simp [readSign, *]

theorem readSign_capture (h : text.head? ≠ some '?') :
    readSign ('(' :: text) = (opening (.capture none), 1) := by
  cases text with
  | nil => rfl
  | cons c tail =>
    have hc : c ≠ '?' := by simpa using h
    simp [readSign, hc]

/-- A sign that is whole is the same in front of a text that breaks off, and it does not reach into that
text. -/
theorem readSign_append (h : BreaksOff rest) (hne : text ≠ [])
    (hwhole : (readSign text).1.isWhole = true) :
    readSign (text ++ rest) = readSign text ∧ (readSign text).2 ≤ text.length := by
  unfold readSign at hwhole
  split at hwhole
  · exact absurd rfl hne
  · simp at hwhole
  · rename_i letter tail
    exact readEscape_append h letter tail hwhole
  · exact ⟨rfl, by simp [readSign]⟩
  · exact ⟨rfl, by simp [readSign]⟩
  · exact ⟨rfl, by simp [readSign]⟩
  · exact ⟨rfl, by simp [readSign]⟩
  · exact ⟨rfl, by simp [readSign]⟩
  · rename_i tail
    exact readExtension_append rest hwhole
  · rename_i tail hquestion
    have hhead : tail.head? ≠ some '?' := by
      intro hhead
      obtain ⟨behind, hbehind⟩ := List.head?_eq_some_iff.1 hhead
      exact hquestion behind hbehind
    rw [List.cons_append, readSign_capture hhead,
      readSign_capture (h.head?_append_ne (by decide) (by decide) (by decide) hhead)]
    exact ⟨rfl, by simp⟩
  · rename_i tail
    exact readBracket_append h tail hwhole
  · rename_i tail
    exact readGreed_append h 0 none tail
  · rename_i tail
    exact readGreed_append h 1 none tail
  · rename_i tail
    exact readGreed_append h 0 (some 1) tail
  · exact readBounds_append h hwhole
  · rename_i c tail hlone hescape hdot hcaret hdollar hbar hclose _ hopen hbracket hstar hplus
      hquestion hbrace
    have hplain : c ∉ signs := by
      have hslash : c ≠ '\\' := by
        rintro rfl
        cases tail with
        | nil => exact hlone rfl rfl
        | cons letter tail => exact hescape letter tail rfl rfl
      simp only [signs, List.mem_cons, List.not_mem_nil, or_false, not_or]
      exact ⟨hslash, hdot, hcaret, hdollar, hbar, hopen, hclose, hbracket, hstar, hplus, hquestion,
        hbrace⟩
    rw [List.cons_append, readSign_plain hplain, readSign_plain hplain]
    exact ⟨rfl, by simp⟩

/-- Where blanks are left out, all but a comment and a blank is read as elsewhere. -/
theorem readLoose_of_ne {c : Char} (hc : c ≠ '#') (tail : Text) :
    readLoose (c :: tail) =
      if looseBlanks.contains c then (filler false, 1) else readSign (c :: tail) := by
  simp [readLoose, hc]

theorem readLoose_append (h : BreaksOff rest) (hne : text ≠ [])
    (hwhole : (readLoose text).1.isWhole = true) :
    readLoose (text ++ rest) = readLoose text ∧ (readLoose text).2 ≤ text.length := by
  obtain ⟨c, tail, rfl⟩ := List.exists_cons_of_ne_nil hne
  by_cases hc : c = '#'
  · subst hc
    simp only [List.cons_append, readLoose] at hwhole ⊢
    split at hwhole
    · rename_i hended
      have hhead : (Pattern.beforeSign '\n' tail).2.head? = some '\n' := by simpa using hended
      have hlonger : ((Pattern.beforeSign '\n' tail).2 ++ rest).head? = some '\n' := by
        rw [List.head?_append, hhead]
        rfl
      have hlength := Pattern.length_beforeSign_lt hhead
      rw [Pattern.beforeSign_append rest hhead (by decide), hlonger, hhead]
      exact ⟨rfl, by simp; omega⟩
    · simp [isWhole] at hwhole
  · rw [readLoose_of_ne hc] at hwhole ⊢
    rw [List.cons_append, readLoose_of_ne hc]
    split
    · exact ⟨rfl, by simp⟩
    · rw [if_neg ‹_›] at hwhole
      exact readSign_append h hne hwhole

end BuildLog.Lexeme
