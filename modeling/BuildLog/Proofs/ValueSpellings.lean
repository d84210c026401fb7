import BuildLog.Proofs.WrittenTokens

/-!
# Spellings of a value

The value of an option can be spelled in eight ways: joined to the name, as the next token, or with the
name in one group; bare, or in quotes of either kind. All of them say the same.

* `Text.enclosed`, `Text.CanStand`: a value as it is or in quotes, and when it can stand so.
  `Token.before_enclosed`: it is a token then;
* `OptionSpelling`: the spellings of an option, and `OptionSpelling.text`, what is written;
* `OptionForm.Admits`: the names and values for which a form reads all spellings;
* `OptionForm.match?_spelling`: each of them is read as the value, to its end.
-/

namespace BuildLog

/-! ## Values in quotes -/

/-- A text as it is, or in quotes. -/
def Text.enclosed : Option Char → Text → Text
  | none, text => text
  | some quote, text => quote :: (text ++ [quote])

/-- Whether a text can stand between such quotes; without quotes, it has to have no blanks. -/
def Text.CanStand (quote : Option Char) (text : Text) : Prop :=
  match quote with
  | none => text.any isBlank = false
  | some quote => Token.isQuote quote = true

namespace Token

variable {quote : Option Char} {name value rest : Text} {token : Token}

/-- A value that can stand between quotes is read from them. -/
theorem read_enclosed (hvalue : ∀ c ∈ value, isQuote c = false) (h : Text.CanStand quote value)
    (hrest : Text.startsBlank rest = true) :
    read (Text.enclosed quote value ++ rest) = ⟨Text.enclosed quote value, value⟩ := by
  cases quote with
  | none => exact readWithin_append_of_bare h hvalue hrest
  | some quote =>
    have hquote : isQuote quote = true := h
    have hinside : quote ∉ value := by
      intro hmem
      rw [hvalue quote hmem] at hquote
      cases hquote
    have hgroup := read_group hquote hinside hrest
    simpa [Text.enclosed] using hgroup

/-- It is a token then. -/
theorem before_enclosed (hvalue : ∀ c ∈ value, isQuote c = false) (h : Text.CanStand quote value)
    (hblank : Text.startsBlank value = false) (hrest : Text.startsBlank rest = true) :
    (⟨Text.enclosed quote value, value⟩ : Token).Before rest := by
  refine ⟨read_enclosed hvalue h hrest, ?_⟩
  cases quote with
  | none => exact hblank
  | some quote => exact not_isBlank_of_isQuote h

/-- A name in front of a token is part of it. -/
theorem Before.behind (h : token.Before rest) (hname : isPlainName name = true) :
    (behind name token).Before rest := by
  constructor
  · show read (name ++ token.raw ++ rest) = _
    rw [List.append_assoc, read_append_of_plain (all_of_isPlainName hname), h.read_eq]
  · obtain ⟨c, tail, rfl, hblank, -⟩ := exists_cons_of_isPlainName hname
    exact hblank

end Token

/-! ## Spellings -/

/-- A way to write an option with its value. -/
inductive OptionSpelling where
  /-- The value follows the name at once, bare or in quotes. -/
  | joined (quote : Option Char)
  /-- The name and the value stand in quotes together. -/
  | whole (quote : Char)
  /-- The value is a token of its own behind some blanks, bare or in quotes. -/
  | separate (gap : Text) (quote : Option Char)
  deriving DecidableEq

namespace OptionSpelling

/-- What is written for a name and a value. -/
def text (name value : Text) : OptionSpelling → Text
  | joined quote => name ++ Text.enclosed quote value
  | whole quote => Text.enclosed (some quote) (name ++ value)
  | separate gap quote => name ++ (gap ++ Text.enclosed quote value)

/-- Whether a value can be written so: quotes are quotes, blanks are blanks, and a bare value has no
blanks. -/
def IsFor (value : Text) : OptionSpelling → Prop
  | joined quote => Text.CanStand quote value
  | whole quote => Token.isQuote quote = true
  | separate gap quote =>
    (gap ≠ [] ∧ gap.all Text.isBlank = true) ∧ Text.CanStand quote value

end OptionSpelling

namespace OptionForm

/-- A name and a value that a form reads in all spellings. -/
structure Admits (form : OptionForm) (name value : Text) : Prop where
  joined : form.joined = true
  separate : form.separate = true
  plain : form.names.all isPlainName = true
  mem : name ∈ form.names
  /-- No other name stands at the start of the option. -/
  eq_of_isPrefix : ∀ other ∈ form.names, other <+: name ++ value → other = name
  /-- The value is not empty, and does not start with a blank. -/
  not_blank : Text.startsBlank value = false
  not_quote : ∀ c ∈ value, Token.isQuote c = false
  /-- An equals sign is not part of the value if it may stand in front of one. -/
  not_equals : form.equals = true → value.head? ≠ some '='

variable {form : OptionForm} {name value rest : Text} {names : List Text} {token : Token}
  {next : Option Token}

/-! ## The name that counts -/

/-- The value behind a name is found in a text without quotes if no other name fits the text. -/
theorem firstMatch?_of_mem {unquoted : Bool} {found : OptionMatch} (hmem : name ∈ names)
    (hother : ∀ other ∈ names, other <+: name ++ rest → other = name)
    (hvalue : form.valueAfter? unquoted name rest = .ok (some found)) :
    form.firstMatch? unquoted (name ++ rest) names = .ok (some found) := by
  induction names with
  | nil => cases hmem
  | cons first names ih =>
    rw [firstMatch?]
    by_cases hfirst : first = name
    · have hstart : name.isPrefixOf? (name ++ rest) = some rest := by simp
      rw [hfirst, hstart]
      simp only [hvalue]
    · rw [isPrefixOf?_eq_none (mt (hother first (List.mem_cons_self ..)) hfirst)]
      have hmem : name ∈ names := (List.mem_cons.1 hmem).resolve_left (Ne.symm hfirst)
      exact ih hmem fun other hmem => hother other (List.mem_cons_of_mem _ hmem)

/-- A plain name does not go on into a group. -/
theorem isPrefix_of_isPrefix_enclosed {quote : Option Char} {other : Text}
    (hother : isPlainName other = true) (hstand : Text.CanStand quote value)
    (h : other <+: name ++ Text.enclosed quote value) : other <+: name ++ value := by
  cases quote with
  | none => exact h
  | some quote =>
    rcases List.prefix_or_prefix_of_prefix h (List.prefix_append name _) with hshort | ⟨tail, rfl⟩
    · exact hshort.trans (List.prefix_append name value)
    · rw [List.prefix_append_right_inj] at h
      cases tail with
      | nil => simp
      | cons c tail =>
        -- the name would hold the quote
        obtain ⟨rfl, -⟩ := List.cons_prefix_cons.1 h
        have hplain := List.all_eq_true.1 (all_of_isPlainName hother) c (by simp)
        have hquote : Token.isQuote c = true := hstand
        simp [Token.isPlainChar, hquote] at hplain

/-! ## Each spelling -/

namespace Admits

variable (h : form.Admits name value)

include h

theorem plainName : isPlainName name = true :=
  List.all_eq_true.1 h.plain name h.mem

theorem value_ne_nil : value ≠ [] := by
  rintro rfl
  cases h.not_blank

/-- A value that follows its name at once. -/
theorem matchTokens?_joined {quote : Option Char} (hstand : Text.CanStand quote value)
    (next : Option Token) :
    form.matchTokens? (.behind name ⟨Text.enclosed quote value, value⟩) next =
      .ok (some ⟨value, false⟩) := by
  have hequals : (form.equals && (Text.enclosed quote value).head? == some '=') = false := by
    rw [Bool.and_eq_false_imp]
    intro hequals
    rw [beq_eq_false_iff_ne]
    cases quote with
    | none => exact h.not_equals hequals
    | some quote =>
      have hne : quote ≠ '=' := by
        rintro rfl
        exact absurd (show Token.isQuote '=' = true from hstand) (by decide)
      simpa [Text.enclosed] using hne
  have hne : (Text.enclosed quote value).isEmpty = false := by
    cases quote with
    | none => simpa [Text.enclosed] using h.value_ne_nil
    | some quote => rfl
  have hvalue : form.valueIn? name ⟨Text.enclosed quote value, value⟩ next =
      .ok (some ⟨value, false⟩) := by
    simp [valueIn?, hequals, hne, h.joined]
  refine matchTokens?_of_mem h.mem h.plainName ?_ hvalue
  intro other hmem hstarts
  have hplain := List.all_eq_true.1 h.plain other hmem
  exact h.eq_of_isPrefix other hmem (isPrefix_of_isPrefix_enclosed hplain hstand hstarts)

/-- A name and a value in quotes together. -/
theorem matchTokens?_whole {quote : Char} (hquote : Token.isQuote quote = true)
    (next : Option Token) :
    form.matchTokens? ⟨Text.enclosed (some quote) (name ++ value), name ++ value⟩ next =
      .ok (some ⟨value, false⟩) := by
  have hequals : (form.equals && value.head? == some '=') = false := by
    rw [Bool.and_eq_false_imp]
    intro hequals
    rw [beq_eq_false_iff_ne]
    exact h.not_equals hequals
  have hvalue : ({ form with separate := false } : OptionForm).valueAfter? true name value =
      .ok (some (behind name.length ⟨value, value.length⟩)) := by
    simp [valueAfter?, hequals, h.not_blank, h.joined, valueOf]
  rw [matchTokens?, if_pos (by simp [Text.enclosed, hquote]),
    firstMatch?_of_mem h.mem h.eq_of_isPrefix hvalue]
  rfl

/-- A value that is the next token. -/
theorem matchTokens?_separate {second : Token} (hsecond : second.value = value) :
    form.matchTokens? ⟨name, name⟩ (some second) = .ok (some ⟨value, true⟩) := by
  have hvalue : form.valueIn? name ⟨[], []⟩ (some second) = .ok (some ⟨value, true⟩) := by
    simp [valueIn?, h.separate, hsecond]
  have hother : ∀ other ∈ form.names, other <+: name ++ [] → other = name := by
    intro other hmem hstarts
    rw [List.append_nil] at hstarts
    exact h.eq_of_isPrefix other hmem (hstarts.trans (List.prefix_append name value))
  have hmatch := matchTokens?_of_mem h.mem h.plainName hother hvalue
  rwa [List.append_nil] at hmatch

end Admits

/-! ## All spellings -/

/-- The value of an option that stands in one token is read to the end of the token. -/
theorem match?_of_token (hplain : form.names.all isPlainName = true) (hbefore : token.Before rest)
    (h : ∀ next, form.matchTokens? token next = .ok (some ⟨value, false⟩)) :
    form.match? (token.raw ++ rest) = .ok (some ⟨value, token.raw.length⟩) := by
  rw [match?_eq hplain hbefore, h]
  rfl

/-- **All spellings of a value say the same.** In front of a blank, or at the end of the text, each of
them is read as the value, and it is read to its end. -/
theorem match?_spelling (h : form.Admits name value) (spelling : OptionSpelling)
    (hspelling : spelling.IsFor value) (rest : Text) (hrest : Text.startsBlank rest = true) :
    form.match? (spelling.text name value ++ rest) =
      .ok (some ⟨value, (spelling.text name value).length⟩) := by
  cases spelling with
  | joined quote =>
    have hbefore := (Token.before_enclosed h.not_quote hspelling h.not_blank hrest).behind h.plainName
    exact match?_of_token h.plain hbefore (h.matchTokens?_joined hspelling)
  | whole quote =>
    have hquote : Token.isQuote quote = true := hspelling
    have hname := all_of_isPlainName h.plainName
    have hletters : ∀ c ∈ name ++ value, Token.isQuote c = false := by
      intro c hc
      rcases List.mem_append.1 hc with hc | hc
      · have hplain := List.all_eq_true.1 hname c hc
        simp only [Token.isPlainChar, Bool.and_eq_true, Bool.not_eq_true'] at hplain
        exact hplain.1.2
      · exact h.not_quote c hc
    have hblank : Text.startsBlank (name ++ value) = false := by
      obtain ⟨c, tail, rfl, hblank, -⟩ := exists_cons_of_isPlainName h.plainName
      exact hblank
    have hstand : Text.CanStand (some quote) (name ++ value) := hquote
    have hbefore := Token.before_enclosed hletters hstand hblank hrest
    exact match?_of_token h.plain hbefore (h.matchTokens?_whole hquote)
  | separate gap quote =>
    obtain ⟨⟨hne, hgap⟩, hstand⟩ := hspelling
    have hsecond := Token.before_enclosed h.not_quote hstand h.not_blank hrest
    have hfirst : (⟨name, name⟩ : Token).Before (gap ++ (Text.enclosed quote value ++ rest)) :=
      Token.before_of_plain h.plainName (Text.startsBlank_gap_append hgap hne _)
    have hlist : Word.list (gap ++ (Text.enclosed quote value ++ rest)) =
        ⟨gap, ⟨Text.enclosed quote value, value⟩⟩ :: Word.list rest := Word.list_append hgap hsecond
    have hmatch := match?_eq h.plain hfirst
    rw [hlist] at hmatch
    have htext : OptionSpelling.text name value (.separate gap quote) ++ rest =
        name ++ (gap ++ (Text.enclosed quote value ++ rest)) := by
      simp [OptionSpelling.text]
    rw [htext, hmatch]
    show (form.matchTokens? ⟨name, name⟩ (some ⟨Text.enclosed quote value, value⟩)).map _ = _
    rw [h.matchTokens?_separate rfl]
    simp [Except.map, measured, Word.written, Word.spelled, OptionSpelling.text]

/-- A value with a blank in it, an equals sign and a backslash at its end, in quotes of both kinds. -/
theorem match?_spelling_quoted :
    let form : OptionForm := { names := ["-isystem".toList, "-idirafter".toList], equals := true }
    let name := "-idirafter".toList
    let value := "/a b=\\".toList
    let spellings : List OptionSpelling := [.joined (some '"'), .joined (some '\''), .whole '"',
      .whole '\'', .separate "\t ".toList (some '"'), .separate " ".toList (some '\'')]
    form.Admits name value ∧
    ∀ spelling ∈ spellings,
      spelling.IsFor value ∧
      form.match? (spelling.text name value ++ "\n-c".toList) =
        .ok (some ⟨value, (spelling.text name value).length⟩) := by
  intro form name value spellings
  have hquote : value.any Token.isQuote = false := by decide
  have h : form.Admits name value := by
    constructor
    case not_quote => simpa using hquote
    all_goals decide
  refine ⟨h, ?_⟩
  intro spelling hmem
  have hspelling : spelling.IsFor value := by
    simp only [spellings, List.mem_cons, List.not_mem_nil, or_false] at hmem
    rcases hmem with rfl | rfl | rfl | rfl | rfl | rfl
    · exact (by decide : Token.isQuote '"' = true)
    · exact (by decide : Token.isQuote '\'' = true)
    · exact (by decide : Token.isQuote '"' = true)
    · exact (by decide : Token.isQuote '\'' = true)
    · exact ⟨by decide, (by decide : Token.isQuote '"' = true)⟩
    · exact ⟨by decide, (by decide : Token.isQuote '\'' = true)⟩
  exact ⟨hspelling, match?_spelling h spelling hspelling "\n-c".toList (by decide)⟩

end OptionForm

end BuildLog
