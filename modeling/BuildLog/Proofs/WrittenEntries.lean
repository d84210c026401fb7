import BuildLog.Proofs.JoinedLines
import Mathlib.Data.List.TakeWhile

/-!
# Entries written as options

Entries can be written as options of the GNU compilers, and reading a line of such options gives back
the entries.

* `Entry.gnuOption`: an entry as an option, with its path or value in double quotes;
* `Entry.IsWritable`: paths are absolute, names are those of C, and there are no double quotes;
* `Entry.findings_gnuOption`: what is found in one option, and `Toolchain.parse_gnuOptions`, in a line.
-/

namespace BuildLog

/-! ## Options -/

/-- A text in double quotes. -/
def Text.quoted (text : Text) : Text :=
  '"' :: text ++ ['"']

/-- Whether a text is a name of C, in ASCII. -/
def isIdentifier : Text → Bool
  | [] => false
  | c :: rest => (c.isAlpha || c == '_') && rest.all fun c => c.isAlphanum || c == '_'

namespace Entry

/-- An entry as an option of the GNU compilers. -/
def gnuOption : Entry → Text
  | includePath path false => "-I".toList ++ Text.quoted path
  | includePath path true => "-isystem ".toList ++ Text.quoted path
  | includeFile path => "-include ".toList ++ Text.quoted path
  | definitionsFile path => "-imacros ".toList ++ Text.quoted path
  | define name value => "-D".toList ++ Text.quoted (name ++ '=' :: value)
  | undefine name => "-U".toList ++ name

/-- Whether an entry can be written as an option: its path is absolute, its name is one of C, and it has
no double quotes. -/
def IsWritable : Entry → Prop
  | includePath path _ => Path.isAbsolute path = true ∧ '"' ∉ path
  | includeFile path => Path.isAbsolute path = true ∧ '"' ∉ path
  | definitionsFile path => Path.isAbsolute path = true ∧ '"' ∉ path
  | define name value => isIdentifier name = true ∧ '"' ∉ value
  | undefine name => isIdentifier name = true

end Entry

/-! ## Tokens of options -/

namespace Token

/-- A name with a group in double quotes behind it. -/
def withGroup (name inside : Text) : Token :=
  ⟨name ++ Text.quoted inside, name ++ inside⟩

theorem before_of_plain {name rest : Text} (hname : isPlainName name = true)
    (hrest : Text.startsBlank rest = true) : (⟨name, name⟩ : Token).Before rest := by
  constructor
  · rw [read_append_of_plain (all_of_isPlainName hname), read_of_startsBlank hrest]
    simp [behind, empty]
  · obtain ⟨c, name, rfl, hblank, -⟩ := exists_cons_of_isPlainName hname
    exact hblank

/-- A group is a token in front of every blank. -/
theorem read_group {q : Char} {inside rest : Text} (hq : isQuote q = true) (hinside : q ∉ inside)
    (hrest : Text.startsBlank rest = true) :
    read (q :: (inside ++ q :: rest)) = ⟨q :: (inside ++ [q]), inside⟩ := by
  have hopen : read (q :: (inside ++ q :: rest)) =
      silent q (readWithin (some q) (inside ++ q :: rest)) := readWithin_quote hq
  rw [hopen, readWithin_group hinside, read_of_startsBlank hrest]
  simp [behind, silent, empty]

/-- A name with a group behind it is a token in front of every blank. -/
theorem withGroup_before {name inside rest : Text} (hname : name.all isPlainChar = true)
    (hinside : '"' ∉ inside) (hrest : Text.startsBlank rest = true) :
    (withGroup name inside).Before rest := by
  constructor
  · have htext : (withGroup name inside).raw ++ rest = name ++ '"' :: (inside ++ '"' :: rest) := by
      simp [withGroup, Text.quoted]
    rw [htext, read_append_of_plain hname, read_group rfl hinside hrest]
    rfl
  · cases name with
    | nil => exact (by decide : Text.isBlank '"' = false)
    | cons c name =>
      simp only [List.all_cons, Bool.and_eq_true, isPlainChar, Bool.not_eq_true'] at hname
      exact hname.1.1.1

end Token

/-! ## Claims -/

variable {directory : Text} {token : Token} {next : Option Token} {claim : Claim}

/-- The first rule that says something counts, whatever the rules behind it say. -/
theorem claimOf_append_cons {front : List OptionRule} (back : List OptionRule) {rule : OptionRule}
    (hfront : (front.all fun rule => (rule.claim? directory token next).isNone) = true)
    (hrule : rule.claim? directory token next = some claim) :
    claimOf (front ++ rule :: back) directory token next = some claim := by
  refine List.findSome?_eq_some_iff.2 ⟨front, rule, back, rfl, hrule, ?_⟩
  intro other hmem
  exact Option.isNone_iff_eq_none.1 (List.all_eq_true.1 hfront other hmem)

/-- A text that starts with a name starts with no quote. -/
theorem not_isQuote_head? {name : Text} (h : isPlainName name = true) (rest : Text) :
    ¬ (name ++ rest).head?.any Token.isQuote = true := by
  obtain ⟨c, name, rfl, -, hquote⟩ := exists_cons_of_isPlainName h
  simp [hquote]

namespace OptionForm

variable {form : OptionForm} {name rest value : Text} {names : List Text} {found : TokenMatch}

theorem isPrefixOf?_eq_none {text : Text} (h : ¬ name <+: text) : name.isPrefixOf? text = none := by
  cases hafter : name.isPrefixOf? text with
  | none => rfl
  | some after =>
    rw [List.isPrefixOf?_eq_some_iff_append_eq] at hafter
    exact absurd ⟨after, hafter⟩ h

/-- The value behind a name is found if no other name fits the token. -/
theorem firstIn?_of_mem (hmem : name ∈ names)
    (hother : ∀ other ∈ names, other <+: name ++ rest → other = name)
    (hvalue : form.valueIn? name ⟨rest, value⟩ next = .ok (some found)) :
    form.firstIn? ⟨name ++ rest, name ++ value⟩ next names = .ok (some found) := by
  induction names with
  | nil => cases hmem
  | cons first names ih =>
    rw [firstIn?]
    by_cases hfirst : first = name
    · have hstart : name.isPrefixOf? (name ++ rest) = some rest := by simp
      rw [hfirst, hstart]
      simp only [List.drop_left, hvalue]
    · rw [isPrefixOf?_eq_none (mt (hother first (List.mem_cons_self ..)) hfirst)]
      have hmem : name ∈ names := (List.mem_cons.1 hmem).resolve_left (Ne.symm hfirst)
      exact ih hmem fun other hmem => hother other (List.mem_cons_of_mem _ hmem)

/-- So it is for the names of a form. -/
theorem matchTokens?_of_mem (hmem : name ∈ form.names) (hname : isPlainName name = true)
    (hother : ∀ other ∈ form.names, other <+: name ++ rest → other = name)
    (hvalue : form.valueIn? name ⟨rest, value⟩ next = .ok (some found)) :
    form.matchTokens? ⟨name ++ rest, name ++ value⟩ next = .ok (some found) := by
  rw [matchTokens?, if_neg (not_isQuote_head? hname rest)]
  exact firstIn?_of_mem hmem hother hvalue

end OptionForm

namespace OptionRule

/-- What a rule says about a value that is found and is not empty. -/
theorem claim?_of_matchTokens? {form : OptionForm} {meaning : ValueMeaning} {found : TokenMatch}
    {sense : Sense} (hmatch : form.matchTokens? token next = .ok (some found))
    (hvalue : found.value ≠ []) (hsense : meaning.sense? directory found.value = some sense) :
    (valued form meaning).claim? directory token next = some ⟨sense, found.separate⟩ := by
  simp [claim?, hmatch, Except.toOption, hvalue, hsense]

/-- A value that follows its name at once. -/
theorem claim?_short_joined {name : String} {meaning : ValueMeaning} {rest value : Text}
    {sense : Sense} (hname : isPlainName name.toList = true) (hrest : rest ≠ []) (hvalue : value ≠ [])
    (hsense : meaning.sense? directory value = some sense) :
    (OptionRule.short [name] meaning).claim? directory ⟨name.toList ++ rest, name.toList ++ value⟩ next =
      some ⟨sense, false⟩ := by
  have hmatch : OptionForm.matchTokens? { names := [name.toList] }
      ⟨name.toList ++ rest, name.toList ++ value⟩ next = .ok (some ⟨value, false⟩) := by
    refine OptionForm.matchTokens?_of_mem (List.mem_singleton_self _) hname ?_ ?_
    · intro other hmem _
      exact List.mem_singleton.1 hmem
    · simp [OptionForm.valueIn?, hrest]
  exact claim?_of_matchTokens? hmatch hvalue hsense

/-- A value that is the next token. -/
theorem claim?_short_separate {name : String} {names : List String} {meaning : ValueMeaning}
    {second : Token} {sense : Sense} (hname : isPlainName name.toList = true) (hvalue : second.value ≠ [])
    (hsense : meaning.sense? directory second.value = some sense) :
    (OptionRule.short (name :: names) meaning).claim? directory ⟨name.toList, name.toList⟩
      (some second) = some ⟨sense, true⟩ := by
  have hquote := not_isQuote_head? hname []
  rw [List.append_nil] at hquote
  have hstart : name.toList.isPrefixOf? name.toList = some [] := by simp
  have hmatch : OptionForm.matchTokens? { names := (name :: names).map (·.toList) }
      ⟨name.toList, name.toList⟩ (some second) = .ok (some ⟨second.value, true⟩) := by
    rw [OptionForm.matchTokens?, if_neg hquote]
    simp [OptionForm.firstIn?, hstart, OptionForm.valueIn?]
  exact claim?_of_matchTokens? hmatch hvalue hsense

end OptionRule

/-! ## Findings -/

section Findings

variable {name : String} {names : List String} {meaning : ValueMeaning} {entry : Entry} {tail : Text}

/-- An option whose value follows its name at once gives an entry, if the rules in front of its own say
nothing. -/
theorem findings_short_joined (front back : List OptionRule) {rest value : Text}
    (hbefore : (⟨name.toList ++ rest, name.toList ++ value⟩ : Token).Before tail)
    (hfront : (front.all fun rule => (rule.claim? directory ⟨name.toList ++ rest, name.toList ++ value⟩
      (Word.next? (Word.list tail))).isNone) = true)
    (hname : isPlainName name.toList = true) (hrest : rest ≠ []) (hvalue : value ≠ [])
    (hsense : meaning.sense? directory value = some (.entry entry)) :
    findings (front ++ .short [name] meaning :: back) directory
        (Word.list (name.toList ++ rest ++ tail)) =
      .entry entry :: findings (front ++ .short [name] meaning :: back) directory (Word.list tail) := by
  have hclaim := claimOf_append_cons back hfront
    (OptionRule.claim?_short_joined hname hrest hvalue hsense)
  exact findings_append_of_claim hbefore hclaim

/-- So does an option whose value is the next token. -/
theorem findings_short_separate (front back : List OptionRule) {second : Token}
    (hbefore : second.Before tail)
    (hfront : (front.all fun rule => (rule.claim? directory ⟨name.toList, name.toList⟩
      (some second)).isNone) = true)
    (hname : isPlainName name.toList = true) (hvalue : second.value ≠ [])
    (hsense : meaning.sense? directory second.value = some (.entry entry)) :
    findings (front ++ .short (name :: names) meaning :: back) directory
        (Word.list (name.toList ++ ([' '] ++ (second.raw ++ tail)))) =
      .entry entry ::
        findings (front ++ .short (name :: names) meaning :: back) directory (Word.list tail) := by
  have hlist : Word.list ([' '] ++ (second.raw ++ tail)) = ⟨[' '], second⟩ :: Word.list tail :=
    Word.list_append rfl hbefore
  have hclaim : claimOf (front ++ .short (name :: names) meaning :: back) directory
      ⟨name.toList, name.toList⟩ (Word.next? (Word.list ([' '] ++ (second.raw ++ tail)))) =
        some ⟨.entry entry, true⟩ := by
    rw [hlist]
    exact claimOf_append_cons back hfront (OptionRule.claim?_short_separate hname hvalue hsense)
  rw [findings_append_of_claim (Token.before_of_plain hname rfl) hclaim, hlist]
  rfl

end Findings

/-! ## Values of options -/

/-- A name of C has letters, digits and underscores only. -/
theorem isAlphanum_or_eq_of_isIdentifier {name : Text} (h : isIdentifier name = true) :
    ∀ c ∈ name, c.isAlphanum = true ∨ c = '_' := by
  cases name with
  | nil => cases h
  | cons c name =>
    simp only [isIdentifier, Bool.and_eq_true, Bool.or_eq_true, beq_iff_eq, List.all_eq_true] at h
    intro d hd
    rcases List.mem_cons.1 hd with rfl | hd
    · exact h.1.imp_left fun halpha => by simp [Char.isAlphanum, halpha]
    · exact h.2 d hd

theorem isWordChar_of_isAlphanum_or_eq {c : Char} (h : c.isAlphanum = true ∨ c = '_') :
    Text.isWordChar c = true := by
  rcases h with halphanum | rfl
  · simp [Text.isWordChar, Text.isAlphanumeric, halphanum]
  · simp [Text.isWordChar]

theorem all_isPlainChar_of_isIdentifier {name : Text} (h : isIdentifier name = true) :
    name.all Token.isPlainChar = true := by
  refine List.all_eq_true.2 fun c hc => isPlainChar_of_isMachineChar ?_
  simp [isMachineChar, isWordChar_of_isAlphanum_or_eq (isAlphanum_or_eq_of_isIdentifier h c hc)]

theorem ne_of_mem_of_isIdentifier {name : Text} (h : isIdentifier name = true) {c sign : Char}
    (hc : c ∈ name) (hsign : (sign.isAlphanum || sign == '_') = false) : c ≠ sign := by
  rintro rfl
  have hword := isAlphanum_or_eq_of_isIdentifier h c hc
  simp only [Bool.or_eq_false_iff, beq_eq_false_iff_ne] at hsign
  rcases hword with halphanum | hunderscore
  · rw [halphanum] at hsign
    cases hsign.1
  · exact hsign.2 hunderscore

theorem isDefinableName_of_isIdentifier {name : Text} (h : isIdentifier name = true) :
    isDefinableName name = true := by
  have hword := isAlphanum_or_eq_of_isIdentifier h
  cases name with
  | nil => cases h
  | cons c name =>
    have htail : name.dropWhile isNameChar = [] := by
      refine List.dropWhile_eq_nil_iff.2 fun d hd => ?_
      have hd := isWordChar_of_isAlphanum_or_eq (hword d (List.mem_cons_of_mem _ hd))
      simp [isNameChar, hd]
    simp only [isIdentifier, Bool.and_eq_true] at h
    simp [isDefinableName, isNameStart, htail, isFinished, h.1]

theorem splitDefinition_of_isIdentifier {name : Text} (h : isIdentifier name = true) (value : Text) :
    ValueMeaning.splitDefinition ['='] (name ++ '=' :: value) = (name, value) := by
  have hname : ∀ c ∈ name, (! ['='].contains c) = true := by
    intro c hc
    have hne : c ≠ '=' := ne_of_mem_of_isIdentifier h hc (by decide)
    simpa using hne
  have hstop : ∀ c ∈ ('=' :: value).head?, (! ['='].contains c) = false := by simp
  have htake := Text.takeWhile_append_of_stop hname hstop
  have hdrop := Text.dropWhile_append_of_stop hname hstop
  simp only [ValueMeaning.splitDefinition, htake, hdrop]

namespace ValueMeaning

theorem sense?_define_of_isIdentifier {name : Text} (h : isIdentifier name = true)
    (directory value : Text) :
    (define ['=']).sense? directory (name ++ '=' :: value) = some (.entry (.define name value)) := by
  simp [sense?, finding, named, splitDefinition_of_isIdentifier h, isDefinableName_of_isIdentifier h]

theorem sense?_undefine_of_isIdentifier {name : Text} (h : isIdentifier name = true)
    (directory : Text) : undefine.sense? directory name = some (.entry (.undefine name)) := by
  simp [sense?, finding, named, isDefinableName_of_isIdentifier h]

theorem sense?_includePath_of_isAbsolute {path : Text} (h : Path.isAbsolute path = true)
    (directory : Text) (system : Bool) :
    (includePath system).sense? directory path = some (.entry (.includePath path system)) := by
  simp [sense?, finding, Path.resolve_of_isAbsolute h]

theorem sense?_includeFile_of_isAbsolute {path : Text} (h : Path.isAbsolute path = true)
    (directory : Text) : includeFile.sense? directory path = some (.entry (.includeFile path)) := by
  simp [sense?, finding, Path.resolve_of_isAbsolute h]

theorem sense?_definitionsFile_of_isAbsolute {path : Text} (h : Path.isAbsolute path = true)
    (directory : Text) :
    definitionsFile.sense? directory path = some (.entry (.definitionsFile path)) := by
  simp [sense?, finding, Path.resolve_of_isAbsolute h]

end ValueMeaning

/-! ## Lines of options -/

namespace Entry

/-- In a line, an option of an entry gives the entry, and what follows is left alone. -/
theorem findings_gnuOption {entry : Entry} (h : entry.IsWritable) {tail : Text}
    (htail : Text.startsBlank tail = true) :
    findings gnuRules directory (Word.list (entry.gnuOption ++ tail)) =
      .entry entry :: findings gnuRules directory (Word.list tail) := by
  -- none of the rules in front of the one that is meant takes such a token, whatever the rest of it is
  cases entry with
  | includePath path system =>
    obtain ⟨habsolute, hquote⟩ := h
    have hpath := Path.ne_nil_of_isAbsolute habsolute
    have hsense := ValueMeaning.sense?_includePath_of_isAbsolute habsolute directory system
    cases system with
    | false =>
      have hbefore : (Token.withGroup "-I".toList path).Before tail :=
        Token.withGroup_before rfl hquote htail
      exact findings_short_joined (gnuRules.take 0) (gnuRules.drop 1) hbefore rfl rfl nofun hpath hsense
    | true =>
      have hbefore : (Token.withGroup [] path).Before tail := Token.withGroup_before rfl hquote htail
      exact findings_short_separate (gnuRules.take 3) (gnuRules.drop 4) hbefore rfl rfl hpath hsense
  | define name value =>
    obtain ⟨hname, hquote⟩ := h
    have hinside : '"' ∉ name ++ '=' :: value := by
      have hmem : '"' ∉ name := fun hc => ne_of_mem_of_isIdentifier hname hc (by decide) rfl
      simpa [hmem] using hquote
    have hbefore : (Token.withGroup "-D".toList (name ++ '=' :: value)).Before tail :=
      Token.withGroup_before rfl hinside htail
    exact findings_short_joined (gnuRules.take 1) (gnuRules.drop 2) hbefore rfl rfl nofun (by simp)
      (ValueMeaning.sense?_define_of_isIdentifier hname directory value)
  | undefine name =>
    have hne : name ≠ [] := by
      rintro rfl
      cases h
    have hplain : isPlainName ("-U".toList ++ name) = true := by
      rw [isPlainName, List.all_append, all_isPlainChar_of_isIdentifier h]
      rfl
    exact findings_short_joined (gnuRules.take 2) (gnuRules.drop 3)
      (Token.before_of_plain hplain htail) rfl rfl hne hne
      (ValueMeaning.sense?_undefine_of_isIdentifier h directory)
  | includeFile path =>
    obtain ⟨habsolute, hquote⟩ := h
    have hbefore : (Token.withGroup [] path).Before tail := Token.withGroup_before rfl hquote htail
    exact findings_short_separate (gnuRules.take 5) (gnuRules.drop 6) hbefore rfl rfl
      (Path.ne_nil_of_isAbsolute habsolute)
      (ValueMeaning.sense?_includeFile_of_isAbsolute habsolute directory)
  | definitionsFile path =>
    obtain ⟨habsolute, hquote⟩ := h
    have hbefore : (Token.withGroup [] path).Before tail := Token.withGroup_before rfl hquote htail
    exact findings_short_separate (gnuRules.take 6) (gnuRules.drop 7) hbefore rfl rfl
      (Path.ne_nil_of_isAbsolute habsolute)
      (ValueMeaning.sense?_definitionsFile_of_isAbsolute habsolute directory)

end Entry

namespace Toolchain

/-- Reading a line of options, each of which was written for an entry, gives the entries, in order and
without anything else. -/
theorem parse_gnuOptions (language : String) (kind : BuiltinsKind) (directory : Text)
    (entries : List Entry) (h : ∀ entry ∈ entries, entry.IsWritable) :
    (ofRules language kind gnuRules).parse directory
      (Text.joined [' '] (entries.map Entry.gnuOption)) = ⟨entries, []⟩ := by
  have hfindings : findings gnuRules directory
      (Word.list (Text.joined [' '] (entries.map Entry.gnuOption))) = entries.map .entry := by
    induction entries with
    | nil =>
      have hlist : Word.list [] = [] := Word.list_of_blanks rfl
      simp [Text.joined, hlist, findings]
    | cons entry entries ih =>
      obtain ⟨tail, hline, htail, -, hsame⟩ :=
        exists_joined_cons entry.gnuOption (entries.map Entry.gnuOption)
      rw [List.map_cons, hline, Entry.findings_gnuOption (h entry (List.mem_cons_self ..)) htail, hsame,
        ih fun entry hmem => h entry (List.mem_cons_of_mem _ hmem), List.map_cons]
  rw [parse_eq language kind (by decide), hfindings, ParsedArguments.ofFindings_map_entry]

/-- Paths and values with spaces, apostrophes and backslashes, and some that look like options. -/
theorem parse_gnuOptions_like_options :
    let entries : List Entry :=
      [.includePath "/a b/-I c".toList false, .includePath "C:\\it's\\".toList true,
        .define "X".toList "'-DY=1\\".toList, .includeFile "\\\\host\\-std=c11".toList,
        .undefine "_Z9".toList, .definitionsFile "/-imacros ".toList, .define "E".toList []]
    (∀ entry ∈ entries, entry.IsWritable) ∧
    gnuC.parse "/b".toList (Text.joined [' '] (entries.map Entry.gnuOption)) = ⟨entries, []⟩ := by
  intro entries
  have h : ∀ entry ∈ entries, entry.IsWritable := by
    simp only [entries, List.forall_mem_cons, List.not_mem_nil, false_imp_iff, implies_true, and_true,
      Entry.IsWritable]
    decide
  exact ⟨h, parse_gnuOptions "c" .gcc "/b".toList entries h⟩

end Toolchain

end BuildLog
