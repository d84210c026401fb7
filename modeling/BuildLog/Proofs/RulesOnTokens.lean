import BuildLog.OptionRule
import BuildLog.Proofs.WordRows
import Mathlib.Data.List.Basic

/-!
# Rules read tokens

An option with its value is one token, or two with blanks in between, as long as the names of options
have no blanks, quotes and backslashes.

* `OptionRule.hasPlainNames`: a rule with such names; `OptionRule.separateNames`: the names that may be
  tokens of their own, with a value behind them;
* `OptionForm.matchTokens?`: the value of an option, read from the first token and the token behind it.
  `OptionForm.match?_eq`: it is the value that is read from the text;
* `OptionRule.claim?`: what a rule says about two tokens. `OptionRule.take?_eq`: it is what the rule says
  about the text;
* `OptionRule.claim?_of_not_mem_separateNames`: the second token counts only behind a separate name.
-/

namespace BuildLog

/-! ## Names of options -/

/-- Whether a text can name an option: it is not empty, and every character stands for itself. -/
def isPlainName (name : Text) : Bool :=
  !name.isEmpty && name.all Token.isPlainChar

theorem all_of_isPlainName {name : Text} (h : isPlainName name = true) :
    name.all Token.isPlainChar = true :=
  (Bool.and_eq_true_iff.1 h).2

/-- The name of an option starts with no blank and no quote. -/
theorem exists_cons_of_isPlainName {name : Text} (h : isPlainName name = true) :
    ∃ c rest, name = c :: rest ∧ Text.isBlank c = false ∧ Token.isQuote c = false := by
  have hall := all_of_isPlainName h
  cases name with
  | nil => cases h
  | cons c rest =>
    simp only [List.all_cons, Bool.and_eq_true, Token.isPlainChar, Bool.not_eq_true'] at hall
    exact ⟨c, rest, rfl, hall.1.1.1, hall.1.1.2⟩

namespace OptionRule

/-- The names and flags of a rule. -/
def names : OptionRule → List Text
  | valued form _ => form.names
  | flag flags => flags
  | machine => []

/-- Whether all names and flags of a rule are free of blanks, quotes and backslashes. -/
def hasPlainNames (rule : OptionRule) : Bool :=
  rule.names.all isPlainName

/-- The names of a rule behind which the value may be the next token. -/
def separateNames : OptionRule → List Text
  | valued form _ => if form.separate then form.names else []
  | _ => []

end OptionRule

/-! ## Values -/

/-- The value of an option, and whether it is a token of its own. -/
structure TokenMatch where
  value : Text
  separate : Bool
  deriving DecidableEq

namespace OptionForm

/-- The value behind a name: in what the first token has behind the name, or in the token behind it. -/
def valueIn? (form : OptionForm) (name : Text) (rest : Token) (next : Option Token) :
    Except ArgumentError (Option TokenMatch) :=
  if form.equals && rest.raw.head? == some '=' then .ok (some ⟨rest.value.tail, false⟩)
  else if !rest.raw.isEmpty then .ok (if form.joined then some ⟨rest.value, false⟩ else none)
  else if !form.separate then .ok none
  else
    match next with
    | none => .error (.missingValue name)
    | some next => .ok (some ⟨next.value, true⟩)

/-- The value behind the first of some names that the token starts with and that has a value. -/
def firstIn? (form : OptionForm) (token : Token) (next : Option Token) :
    List Text → Except ArgumentError (Option TokenMatch)
  | [] => .ok none
  | name :: names =>
    match name.isPrefixOf? token.raw with
    | none => form.firstIn? token next names
    | some rest =>
      match form.valueIn? name ⟨rest, token.value.drop name.length⟩ next with
      | .ok none => form.firstIn? token next names
      | found => found

/-- The value of the option that a token stands for, or this token and the next. -/
def matchTokens? (form : OptionForm) (token : Token) (next : Option Token) :
    Except ArgumentError (Option TokenMatch) :=
  if token.raw.head?.any Token.isQuote then
    ({ form with separate := false }.firstMatch? true token.value form.names).map
      (Option.map fun found : OptionMatch => ⟨found.value, false⟩)
  else form.firstIn? token next form.names

end OptionForm

namespace OptionForm

variable {form : OptionForm} {name rest : Text} {token : Token}

/-- What is found in tokens, measured in the text. -/
def measured (token : Token) (words : List Word) (found : TokenMatch) : OptionMatch :=
  ⟨found.value, (Word.written token words found.separate).length⟩

/-- Where a name stands alone, the value is the next token. -/
theorem valueAfter?_of_startsBlank (form : OptionForm) (name : Text) {rest : Text}
    (hrest : Text.startsBlank rest = true) :
    form.valueAfter? false name rest =
      (form.valueIn? name Token.empty (Word.next? (Word.list rest))).map
        (Option.map (measured (Token.behind name Token.empty) (Word.list rest))) := by
  have hequals : (rest.head? == some '=') = false := by
    rw [beq_eq_false_iff_ne]
    intro hhead
    obtain ⟨tail, rfl⟩ := List.head?_eq_some_iff.1 hhead
    have hblank : Text.isBlank '=' = true := hrest
    exact absurd hblank (by decide)
  have hafter : form.valueAfter? false name rest =
      if !form.separate then .ok none
      else if Text.isAllBlank rest then .error (.missingValue name)
      else .ok (some (behind (name.length + Text.leadingBlanks rest)
        (valueOf false (Text.trimStart rest)))) := by
    rw [valueAfter?, if_neg (by simp [hequals]), if_neg (by simp [hrest])]
  have hin : form.valueIn? name Token.empty (Word.next? (Word.list rest)) =
      if !form.separate then .ok none
      else
        match Word.next? (Word.list rest) with
        | none => .error (.missingValue name)
        | some next => .ok (some ⟨next.value, true⟩) := by
    unfold valueIn?
    rw [if_neg (by simp [Token.empty]), if_neg (by simp [Token.empty])]
  rw [hafter, hin]
  cases hseparate : form.separate with
  | false => rfl
  | true =>
    induction rest using Text.wordInduction with
    | blank gap hgap =>
      have hall : Text.isAllBlank gap = true := hgap
      simp [hall, Word.list_of_blanks hgap, Word.next?, Except.map]
    | word gap token rest hgap h _ =>
      have hblank := Text.startsBlank_append h.not_blank rest
      have hread : Token.read (token.raw ++ rest) = token := h.read_eq
      simp [Text.isAllBlank_gap_append gap hblank, Text.leadingBlanks_gap_append hgap hblank,
        Text.trimStart_gap_append hgap, Text.trimStart_of_not_blank hblank, valueOf, hread,
        Word.list_append hgap h, Word.next?, Except.map, measured, Word.written, Word.spelled,
        OptionForm.behind, Token.behind, Token.empty, Token.width, Nat.add_assoc]

/-- Where more stands behind a name, the value is in the same token. -/
theorem valueAfter?_of_not_blank (form : OptionForm) (name : Text) {after : Text}
    (hafter : Text.startsBlank after = false) (words : List Word) :
    form.valueAfter? false name after =
      (form.valueIn? name (Token.read after) (Word.next? words)).map
        (Option.map (measured (Token.behind name (Token.read after)) words)) := by
  cases after with
  | nil => cases hafter
  | cons c after =>
    obtain ⟨raw, hraw⟩ := Token.exists_raw_eq_cons (show Text.isBlank c = false from hafter) after
    unfold valueAfter? valueIn?
    simp only [hraw, hafter, List.head?_cons, List.tail_cons, List.isEmpty_cons, Bool.not_false,
      if_true]
    by_cases hequals : (form.equals && some c == some '=') = true
    · have hc : c = '=' := by simp_all
      subst hc
      have hread : Token.read ('=' :: after) = Token.plain '=' (Token.read after) :=
        Token.readWithin_cons (by decide) (by decide) nofun
      rw [if_pos hequals, if_pos hequals]
      simp [Except.map, measured, OptionForm.behind, valueOf, Word.written, Token.behind, Token.width,
        hread, Token.plain]
      omega
    · rw [if_neg hequals, if_neg hequals]
      cases form.joined with
      | false => rfl
      | true =>
        simp [Except.map, measured, OptionForm.behind, valueOf, Word.written, Token.behind, Token.width]

/-- The value behind a name is found in the tokens. -/
theorem valueAfter?_eq (form : OptionForm) (name : Text) {after rest : Text}
    (hafter : after = (Token.read after).raw ++ rest) (hrest : Text.startsBlank rest = true) :
    form.valueAfter? false name after =
      (form.valueIn? name (Token.read after) (Word.next? (Word.list rest))).map
        (Option.map (measured (Token.behind name (Token.read after)) (Word.list rest))) := by
  cases hblank : Text.startsBlank after with
  | false => exact valueAfter?_of_not_blank form name hblank _
  | true =>
    have hread := Token.read_of_startsBlank hblank
    rw [hread] at hafter ⊢
    rw [hafter]
    exact valueAfter?_of_startsBlank form name hrest

/-- What follows a name in a token is found in the text. -/
theorem firstMatch?_eq (form : OptionForm) {names : List Text} (hnames : names.all isPlainName = true)
    (h : token.Before rest) :
    form.firstMatch? false (token.raw ++ rest) names =
      (form.firstIn? token (Word.next? (Word.list rest)) names).map
        (Option.map (measured token (Word.list rest))) := by
  induction names with
  | nil => rfl
  | cons name names ih =>
    simp only [List.all_cons, Bool.and_eq_true] at hnames
    rw [firstMatch?, firstIn?]
    cases hstart : name.isPrefixOf? (token.raw ++ rest) with
    | none =>
      have hnone : name.isPrefixOf? token.raw = none := by
        cases hraw : name.isPrefixOf? token.raw with
        | none => rfl
        | some after =>
          have hlonger : name.isPrefixOf? (token.raw ++ rest) = some (after ++ rest) := by
            rw [List.isPrefixOf?_eq_some_iff_append_eq] at hraw ⊢
            rw [← hraw, List.append_assoc]
          rw [hstart] at hlonger
          cases hlonger
      rw [hnone]
      exact ih hnames.2
    | some after =>
      have hafter : name ++ after = token.raw ++ rest := by simpa using hstart
      obtain ⟨htoken, hrest⟩ := h.eq_behind (all_of_isPlainName hnames.1) hafter.symm
      have hraw : name.isPrefixOf? token.raw = some (Token.read after).raw := by
        rw [List.isPrefixOf?_eq_some_iff_append_eq, htoken]
        rfl
      have hvalue : token.value.drop name.length = (Token.read after).value := by
        rw [htoken]
        exact List.drop_left
      rw [hraw, hvalue]
      dsimp only
      rw [valueAfter?_eq form name hrest h.startsBlank, ← htoken]
      cases form.valueIn? name (Token.read after) (Word.next? (Word.list rest)) with
      | error error => rfl
      | ok found =>
        cases found with
        | none => exact ih hnames.2
        | some found => rfl

/-- The value of an option, read from the text, is the value read from its tokens. -/
theorem match?_eq (hnames : form.names.all isPlainName = true) (h : token.Before rest) :
    form.match? (token.raw ++ rest) =
      (form.matchTokens? token (Word.next? (Word.list rest))).map
        (Option.map (measured token (Word.list rest))) := by
  cases htext : token.raw with
  | nil => exact absurd h.not_blank (by simp [htext, Text.startsBlank])
  | cons c raw =>
    have hread : Token.read (c :: (raw ++ rest)) = token := by
      rw [← h.read_eq, htext, List.cons_append]
    rw [List.cons_append, match?, matchTokens?, htext]
    by_cases hquote : Token.isQuote c = true
    · simp only [hquote, List.head?_cons, Option.any_some, if_true, matchQuoted?, hread]
      cases ({ form with separate := false } : OptionForm).firstMatch? true token.value form.names with
      | error error => rfl
      | ok found => cases found <;> rfl
    · simp only [hquote, List.head?_cons, Option.any_some]
      have hfirst := firstMatch?_eq form hnames h
      rwa [htext, List.cons_append] at hfirst

end OptionForm

/-! ## What rules say -/

/-- What an option says, apart from the text it is written with. -/
inductive Sense where
  /-- A fact about the source file. -/
  | entry (entry : Entry)
  /-- The option is kept as it is written. -/
  | verbatim
  deriving DecidableEq

/-- What an option says, given the text it is written with. -/
def Sense.finding (written : Text) : Sense → Finding
  | .entry fact => .entry fact
  | .verbatim => .builtin written

/-- What a value says, apart from the text that the option is written with. -/
def ValueMeaning.sense? (meaning : ValueMeaning) (directory value : Text) : Option Sense :=
  match meaning.finding directory value [] with
  | .ok (.entry entry) => some (.entry entry)
  | .ok (.builtin _) => some .verbatim
  | .error _ => none

/-- What a rule says about the first of some tokens, and whether it takes the second one with it. -/
structure Claim where
  sense : Sense
  pair : Bool
  deriving DecidableEq

namespace OptionRule

/-- What a rule says about a token and the token behind it. -/
def claim? (rule : OptionRule) (directory : Text) (token : Token) (next : Option Token) :
    Option Claim :=
  match rule with
  | valued form meaning =>
    (form.matchTokens? token next).toOption.join.bind fun found =>
      if found.value.isEmpty then none
      else (meaning.sense? directory found.value).map (⟨·, found.separate⟩)
  | flag flags => if flags.contains token.raw then some ⟨.verbatim, false⟩ else none
  | machine => (machineOptionWidth? token.raw).map fun _ => ⟨.verbatim, false⟩

end OptionRule

/-- What rules say about a token and the token behind it: the first one that says something counts. -/
def claimOf (rules : List OptionRule) (directory : Text) (token : Token) (next : Option Token) :
    Option Claim :=
  rules.findSome? fun rule => rule.claim? directory token next

/-- What is found with a claim, in the text. -/
def Claim.finding (token : Token) (words : List Word) (claim : Claim) : Finding :=
  claim.sense.finding (Word.written token words claim.pair)

/-- The number of characters that a claim takes. -/
def Claim.width (token : Token) (words : List Word) (claim : Claim) : Nat :=
  (Word.written token words claim.pair).length

/-! ## Options with a value -/

theorem ValueMeaning.finding_eq (meaning : ValueMeaning) (directory value written : Text) :
    (meaning.finding directory value written).toOption =
      (meaning.sense? directory value).map (Sense.finding written) := by
  cases meaning <;> simp only [sense?, finding, named] <;> (try split) <;> rfl

/-- An option with a value says what its value says, if that is not empty. -/
theorem OptionRule.take?_valued (form : OptionForm) (meaning : ValueMeaning) (directory text : Text) :
    ((OptionRule.valued form meaning).take? directory text).toOption.join =
      (form.match? text).toOption.join.bind fun found =>
        if found.value.isEmpty then none
        else (meaning.finding directory found.value (text.take found.width)).toOption.map
          fun finding => (finding, found.width) := by
  rw [take?]
  cases form.match? text with
  | error error => rfl
  | ok found =>
    cases found with
    | none => rfl
    | some found =>
      by_cases hempty : found.value = []
      · simp [hempty, bind, Except.bind, throw, throwThe, MonadExceptOf.throw, Except.toOption]
      · cases hfinding : meaning.finding directory found.value (text.take found.width) <;>
          simp [hempty, hfinding, bind, Except.bind, pure, Except.pure, Except.toOption]

/-- What an option with a value says, read from the text, is what it says about the tokens. -/
theorem OptionRule.take?_valued_eq {form : OptionForm} (meaning : ValueMeaning) (directory : Text)
    {token : Token} {rest : Text} (hnames : form.names.all isPlainName = true)
    (h : token.Before rest) :
    ((OptionRule.valued form meaning).take? directory (token.raw ++ rest)).toOption.join =
      ((OptionRule.valued form meaning).claim? directory token (Word.next? (Word.list rest))).map
        fun claim => (claim.finding token (Word.list rest), claim.width token (Word.list rest)) := by
  have hmatch : (form.match? (token.raw ++ rest)).toOption.join =
      (form.matchTokens? token (Word.next? (Word.list rest))).toOption.join.map
        (OptionForm.measured token (Word.list rest)) := by
    rw [OptionForm.match?_eq hnames h]
    cases form.matchTokens? token (Word.next? (Word.list rest)) <;> rfl
  rw [take?_valued, hmatch, claim?, Option.bind_map, Option.map_bind]
  congr 1
  funext found
  have htake := Word.take_length_written token rest found.separate
  simp only [Function.comp_apply, OptionForm.measured, htake, meaning.finding_eq]
  by_cases hempty : found.value.isEmpty = true
  · rw [if_pos hempty, if_pos hempty, Option.map_none]
  · rw [if_neg hempty, if_neg hempty, Option.map_map, Option.map_map]
    rfl

/-! ## Flags and options of the target machine -/

/-- No character belongs to spans of both kinds, if none of them overlap. -/
theorem Text.Span.not_covers {spans others : List Span}
    (h : ∀ span ∈ spans, ∀ other ∈ others, span.2 < other.1 ∨ other.2 < span.1) {c : Char}
    (hc : covers spans c = true) : covers others c = false := by
  obtain ⟨span, hspan, hholds⟩ := List.any_eq_true.1 hc
  rw [covers, List.any_eq_false]
  intro other hother
  have hapart := h span hspan other hother
  simp only [holds, Bool.and_eq_true, decide_eq_true_eq] at hholds ⊢
  omega

theorem Text.covers_of_isAlphanum {c : Char} (h : c.isAlphanum = true) :
    Span.covers [(48, 57), (65, 90), (97, 122)] c = true := by
  change (decide (c.val ≥ 'A'.val ∧ c.val ≤ 'Z'.val) ||
    decide (c.val ≥ 'a'.val) && decide (c.val ≤ 'z'.val) ||
    decide (c.val ≥ '0'.val) && decide (c.val ≤ '9'.val)) = true at h
  simp only [Bool.or_eq_true, Bool.and_eq_true, decide_eq_true_eq, UInt32.le_iff_toNat_le, ge_iff_le,
    Char.reduceVal, UInt32.reduceToNat] at h
  simp only [Span.covers, Span.holds, List.any_cons, List.any_nil, Bool.or_eq_true, Bool.and_eq_true,
    decide_eq_true_eq, Char.toNat]
  omega

/-- No part of a word is a blank. -/
theorem Text.isBlank_eq_false_of_isWordChar {c : Char} (h : Text.isWordChar c = true) :
    Text.isBlank c = false := by
  simp only [isWordChar, isAlphanumeric, Bool.or_eq_true, beq_iff_eq] at h
  rcases h with (halphanum | hspan) | rfl
  · exact Span.not_covers (by decide) (covers_of_isAlphanum halphanum)
  · exact Span.not_covers (by decide +kernel) hspan
  · decide

theorem isPlainChar_of_isMachineChar {c : Char} (h : isMachineChar c = true) :
    Token.isPlainChar c = true := by
  have hblank : Text.isBlank c = false := by
    simp only [isMachineChar, Bool.or_eq_true] at h
    rcases h with hword | hsign
    · exact Text.isBlank_eq_false_of_isWordChar hword
    · simp only [List.contains_eq_mem, List.mem_cons, List.not_mem_nil, or_false,
        decide_eq_true_eq] at hsign
      rcases hsign with rfl | rfl | rfl | rfl | rfl <;> decide
  have hquote : Token.isQuote c = false := by
    cases hquote : Token.isQuote c with
    | false => rfl
    | true =>
      simp only [Token.isQuote, Bool.or_eq_true, beq_iff_eq] at hquote
      rcases hquote with rfl | rfl <;> exact absurd h (by decide +kernel)
  have hescape : c ≠ '\\' := by
    rintro rfl
    exact absurd h (by decide +kernel)
  simp [Token.isPlainChar, hblank, hquote, hescape]

namespace OptionRule

variable {rule : OptionRule} {directory rest : Text} {token : Token}

/-- A text starts with a plain word exactly if that is its first token. -/
theorem takeWhile_eq_iff_of_plain {word : Text} (h : token.Before rest)
    (hword : word.all Token.isPlainChar = true) :
    (token.raw ++ rest).takeWhile (!Text.isBlank ·) = word ↔ token.raw = word := by
  constructor
  · rintro rfl
    have hsplit : token.raw ++ rest = (token.raw ++ rest).takeWhile (!Text.isBlank ·) ++
      (token.raw ++ rest).dropWhile (!Text.isBlank ·) := List.takeWhile_append_dropWhile.symm
    exact congrArg Token.raw (h.eq_of_plain hword (Text.startsBlank_dropWhile _) hsplit)
  · rintro rfl
    have hletters : ∀ c ∈ token.raw, (!Text.isBlank c) = true := by
      intro c hc
      have hchar := List.all_eq_true.1 hword c hc
      simp only [Token.isPlainChar, Bool.and_eq_true] at hchar
      exact hchar.1.1
    apply Text.takeWhile_append_of_stop hletters
    intro c hc
    simpa using Text.startsBlank_iff.1 h.startsBlank c hc

/-- A flag is a token. -/
theorem take?_flag_eq {flags : List Text} (directory : Text) (hflags : flags.all isPlainName = true)
    (h : token.Before rest) :
    ((flag flags).take? directory (token.raw ++ rest)).toOption.join =
      ((flag flags).claim? directory token (Word.next? (Word.list rest))).map fun claim =>
        (claim.finding token (Word.list rest), claim.width token (Word.list rest)) := by
  let word := (token.raw ++ rest).takeWhile (!Text.isBlank ·)
  have htake : ((flag flags).take? directory (token.raw ++ rest)).toOption.join =
      if flags.contains word then some (.builtin word, word.length) else none := rfl
  have hflag : ∀ flag ∈ flags, word = flag ↔ token.raw = flag := fun flag hmem =>
    takeWhile_eq_iff_of_plain h (all_of_isPlainName (List.all_eq_true.1 hflags flag hmem))
  rw [htake, claim?]
  by_cases hraw : token.raw ∈ flags
  · have hword : word = token.raw := (hflag token.raw hraw).2 rfl
    rw [hword, if_pos (List.contains_iff_mem.2 hraw), if_pos (List.contains_iff_mem.2 hraw)]
    rfl
  · have hword : word ∉ flags := fun hmem => hraw ((hflag word hmem).1 rfl ▸ hmem)
    rw [if_neg (mt List.contains_iff_mem.1 hword), if_neg (mt List.contains_iff_mem.1 hraw)]
    rfl

/-- An option of the target machine is its sign and a run of characters, and a blank stands behind it. -/
theorem machineOptionWidth?_eq_some_iff {text : Text} {width : Nat} :
    machineOptionWidth? text = some width ↔
      ∃ run tail, text = '-' :: 'm' :: run ++ tail ∧ run ≠ [] ∧
        (∀ c ∈ run, isMachineChar c = true) ∧ Text.startsBlank tail = true ∧
        width = run.length + 2 := by
  constructor
  · intro h
    unfold machineOptionWidth? at h
    split at h
    · rename_i rest
      simp only [Option.ite_none_right_eq_some, Bool.and_eq_true, Option.some.injEq] at h
      obtain ⟨⟨hrun, hblank⟩, hwidth⟩ := h
      obtain ⟨tail, htail⟩ := List.takeWhile_prefix isMachineChar (l := rest)
      generalize hlong : rest.takeWhile isMachineChar = run at *
      subst htail
      rw [List.drop_left] at hblank
      refine ⟨run, tail, rfl, by simpa using hrun, ?_, hblank, hwidth.symm⟩
      rw [← hlong]
      exact List.all_eq_true.1 List.all_takeWhile
    · cases h
  · rintro ⟨run, tail, rfl, hrun, hchars, hblank, rfl⟩
    have hstop : ∀ c ∈ tail.head?, isMachineChar c = false := by
      intro c hc
      cases hchar : isMachineChar c with
      | false => rfl
      | true =>
        have hplain := isPlainChar_of_isMachineChar hchar
        simp [Token.isPlainChar, Text.startsBlank_iff.1 hblank c hc] at hplain
    have htake := Text.takeWhile_append_of_stop hchars hstop
    simp [machineOptionWidth?, htake, hrun, hblank]

/-- An option of the target machine is a token. -/
theorem take?_machine_eq (directory : Text) (h : token.Before rest) :
    (machine.take? directory (token.raw ++ rest)).toOption.join =
      (machine.claim? directory token (Word.next? (Word.list rest))).map fun claim =>
        (claim.finding token (Word.list rest), claim.width token (Word.list rest)) := by
  have htake : (machine.take? directory (token.raw ++ rest)).toOption.join =
      (machineOptionWidth? (token.raw ++ rest)).map fun width =>
        (.builtin ((token.raw ++ rest).take width), width) := rfl
  rw [htake, claim?]
  cases hwidth : machineOptionWidth? (token.raw ++ rest) with
  | some width =>
    obtain ⟨run, tail, htext, hrun, hchars, hblank, rfl⟩ := machineOptionWidth?_eq_some_iff.1 hwidth
    have hplain : ('-' :: 'm' :: run).all Token.isPlainChar = true := by
      have hrunPlain : run.all Token.isPlainChar = true :=
        List.all_eq_true.2 fun c hc => isPlainChar_of_isMachineChar (hchars c hc)
      rw [List.all_cons, List.all_cons, hrunPlain]
      decide
    have htoken := h.eq_of_plain hplain hblank htext
    have hraw : machineOptionWidth? token.raw = some (run.length + 2) :=
      machineOptionWidth?_eq_some_iff.2 ⟨run, [], by simp [htoken], hrun, hchars, rfl, rfl⟩
    have hlength : token.raw.length = run.length + 2 := by simp [htoken]
    rw [hraw, Option.map_some, ← hlength, List.take_left]
    rfl
  | none =>
    cases hraw : machineOptionWidth? token.raw with
    | none => rfl
    | some width =>
      obtain ⟨run, tail, htext, hrun, hchars, hblank, -⟩ := machineOptionWidth?_eq_some_iff.1 hraw
      have hsome : machineOptionWidth? (token.raw ++ rest) = some (run.length + 2) := by
        refine machineOptionWidth?_eq_some_iff.2 ⟨run, tail ++ rest, by simp [htext], hrun, hchars, ?_,
          rfl⟩
        cases tail with
        | nil => exact h.startsBlank
        | cons c tail => exact hblank
      rw [hwidth] at hsome
      cases hsome

/-- What a rule takes from a text is what it says about the tokens. -/
theorem take?_eq (hplain : rule.hasPlainNames = true) (h : token.Before rest) :
    (rule.take? directory (token.raw ++ rest)).toOption.join =
      (rule.claim? directory token (Word.next? (Word.list rest))).map fun claim =>
        (claim.finding token (Word.list rest), claim.width token (Word.list rest)) := by
  cases rule with
  | valued form meaning => exact take?_valued_eq meaning directory hplain h
  | flag flags => exact take?_flag_eq directory hplain h
  | machine => exact take?_machine_eq directory h

end OptionRule

/-! ## The second token -/

theorem eq_ok_some_of_join {α : Type} {result : Except ArgumentError (Option α)} {found : α}
    (h : result.toOption.join = some found) : result = .ok (some found) := by
  match result with
  | .error _ => cases h
  | .ok none => cases h
  | .ok (some _) =>
    cases h
    rfl

namespace OptionForm

variable {form : OptionForm} {token : Token} {next other : Option Token} {found : TokenMatch}

/-- What stands behind the first token counts only if that is a name alone. -/
theorem firstIn?_of_not_mem {names : List Text}
    (h : form.separate = true → token.raw ∉ names) :
    form.firstIn? token next names = form.firstIn? token other names := by
  induction names with
  | nil => rfl
  | cons name names ih =>
    have hnames := ih fun hseparate hmem => h hseparate (List.mem_cons_of_mem _ hmem)
    rw [firstIn?, firstIn?, hnames]
    cases hstart : name.isPrefixOf? token.raw with
    | none => rfl
    | some rest =>
      have hvalue : form.valueIn? name ⟨rest, token.value.drop name.length⟩ next =
          form.valueIn? name ⟨rest, token.value.drop name.length⟩ other := by
        unfold valueIn?
        cases hseparate : form.separate with
        | false => rfl
        | true =>
          have hrest : rest.isEmpty = false := by
            cases rest with
            | cons c rest => rfl
            | nil =>
              have hname : name ++ [] = token.raw := by simpa using hstart
              rw [List.append_nil] at hname
              exact absurd (hname ▸ List.mem_cons_self ..) (h hseparate)
          simp [hrest]
      simp only [hvalue]

theorem matchTokens?_of_not_mem (h : form.separate = true → token.raw ∉ form.names) :
    form.matchTokens? token next = form.matchTokens? token other := by
  rw [matchTokens?, matchTokens?, firstIn?_of_not_mem h]

/-- A value is part of the first token, which goes on behind the name, or it is the second one. -/
theorem valueIn?_eq_some {name : Text} {rest : Token}
    (h : form.valueIn? name rest next = .ok (some found)) :
    (found.separate = false ∧ rest.raw ≠ []) ∨
      (found.separate = true ∧ rest.raw = [] ∧ ∃ second, next = some second) := by
  unfold valueIn? at h
  split at h
  · rename_i hequals
    cases h
    refine .inl ⟨rfl, ?_⟩
    intro hrest
    simp [hrest] at hequals
  · split at h
    · rename_i hrest
      cases hjoined : form.joined <;> simp only [hjoined] at h <;> cases h
      exact .inl ⟨rfl, by simpa using hrest⟩
    · rename_i hrest
      cases next with
      | none => split at h <;> cases h
      | some second =>
        split at h
        · cases h
        · cases h
          exact .inr ⟨rfl, by simpa using hrest, second, rfl⟩

/-- A value that is found stands behind one of the names. -/
theorem exists_of_firstIn?_eq_some {names : List Text}
    (h : form.firstIn? token next names = .ok (some found)) :
    ∃ name ∈ names, ∃ rest, name ++ rest = token.raw ∧
      form.valueIn? name ⟨rest, token.value.drop name.length⟩ next = .ok (some found) := by
  induction names with
  | nil => cases h
  | cons name names ih =>
    rw [firstIn?] at h
    split at h
    · obtain ⟨other, hmem, hother⟩ := ih h
      exact ⟨other, List.mem_cons_of_mem _ hmem, hother⟩
    · rename_i rest hstart
      split at h
      · obtain ⟨other, hmem, hother⟩ := ih h
        exact ⟨other, List.mem_cons_of_mem _ hmem, hother⟩
      · exact ⟨name, List.mem_cons_self .., rest, by simpa using hstart, h⟩

/-- The value of an option in quotes is in the same token. -/
theorem separate_of_isQuote (hquote : token.raw.head?.any Token.isQuote = true)
    (h : form.matchTokens? token next = .ok (some found)) : found.separate = false := by
  rw [matchTokens?, if_pos hquote] at h
  cases hmatch : ({ form with separate := false } : OptionForm).firstMatch? true token.value
    form.names with
  | error error =>
    rw [hmatch] at h
    cases h
  | ok value =>
    rw [hmatch] at h
    cases value with
    | none => cases h
    | some value =>
      cases h
      rfl

/-- Without a second token, a value is part of the first. -/
theorem separate_of_matchTokens?_none (h : form.matchTokens? token none = .ok (some found)) :
    found.separate = false := by
  by_cases hquote : token.raw.head?.any Token.isQuote = true
  · exact separate_of_isQuote hquote h
  · rw [matchTokens?, if_neg hquote] at h
    obtain ⟨name, -, rest, -, hvalue⟩ := exists_of_firstIn?_eq_some h
    rcases valueIn?_eq_some hvalue with ⟨hseparate, -⟩ | ⟨-, -, second, hsecond⟩
    · exact hseparate
    · cases hsecond

end OptionForm

namespace OptionRule

variable {rule : OptionRule} {directory : Text} {token : Token} {next other : Option Token}

/-- What a rule says about a token does not depend on the token behind it, unless the first is a name
behind which the value may be the next token. -/
theorem claim?_of_not_mem_separateNames (h : token.raw ∉ rule.separateNames) :
    rule.claim? directory token next = rule.claim? directory token other := by
  cases rule with
  | valued form meaning =>
    have hmatch : form.matchTokens? token next = form.matchTokens? token other := by
      refine OptionForm.matchTokens?_of_not_mem fun hseparate => ?_
      simpa [separateNames, hseparate] using h
    rw [claim?, claim?, hmatch]
  | flag flags => rfl
  | machine => rfl

/-- Without a second token, a claim is for the first one alone. -/
theorem pair_of_claim?_none {claim : Claim}
    (h : rule.claim? directory token none = some claim) : claim.pair = false := by
  cases rule with
  | valued form meaning =>
    simp only [claim?, Option.bind_eq_some_iff, Option.ite_none_left_eq_some, Option.map_eq_some_iff] at h
    obtain ⟨found, hfound, -, sense, -, rfl⟩ := h
    exact OptionForm.separate_of_matchTokens?_none (eq_ok_some_of_join hfound)
  | flag flags =>
    simp only [claim?, Option.ite_none_right_eq_some, Option.some.injEq] at h
    rw [← h.2]
  | machine =>
    obtain ⟨width, -, rfl⟩ := Option.map_eq_some_iff.1 h
    rfl

end OptionRule

variable {rules : List OptionRule} {directory : Text} {token : Token} {next other : Option Token}

/-- What rules say about a token does not depend on the token behind it, unless the first is a name of
one of them behind which the value may be the next token. -/
theorem claimOf_of_not_mem_separateNames
    (h : ∀ rule ∈ rules, token.raw ∉ rule.separateNames) :
    claimOf rules directory token next = claimOf rules directory token other := by
  induction rules with
  | nil => rfl
  | cons rule rules ih =>
    have hrule : rule.claim? directory token next = rule.claim? directory token other :=
      OptionRule.claim?_of_not_mem_separateNames (h rule (List.mem_cons_self ..))
    have hrules := ih fun rule hmem => h rule (List.mem_cons_of_mem _ hmem)
    simp only [claimOf, List.findSome?_cons, hrule] at hrules ⊢
    rw [hrules]

theorem pair_of_claimOf_none {claim : Claim} (h : claimOf rules directory token none = some claim) :
    claim.pair = false := by
  obtain ⟨rule, -, hrule⟩ := List.exists_of_findSome?_eq_some h
  exact OptionRule.pair_of_claim?_none hrule

end BuildLog
