import BuildLog.Proofs.LexemeEnds

/-!
# Rows of lexemes

* `Lexeme.read_append`: a lexeme that is whole is the same in front of a text that breaks off;
* `Layout.Nests`: a row of lexemes closes no group that it has not opened itself, so that a layout around it
  does not matter;
* `Layout.bottom`: whether blanks are left out where no group is open;
* `Lexeme.listFrom_append`: the lexemes of two texts are those of the first, and behind them those of
  the second;
* `Lexeme.isSimple_listFrom`: a pattern that is a lexeme in itself has no parts;
* `Lexeme.listFrom_escape`: an escaped text is read as its characters, one by one;
* `Lexeme.listFrom_append_of_open`: behind an open comment, an escaped text is not read at all.
-/

namespace BuildLog

open Pattern (BreaksOff)

/-- A pattern without parts of its own. -/
def Pattern.isAtom : Pattern → Bool
  | empty | char _ | anyChar | set .. | anchor _ => true
  | _ => false

/-! ## Layouts -/

namespace Layout

/-- The layout behind a row of lexemes. -/
def behindAll (layout : Layout) (entries : List (Nat × Lexeme)) : Layout :=
  entries.foldl (fun layout entry => layout.behind entry.2) layout

/-- A layout with further groups around it. -/
def around (layout : Layout) (outer : List Bool) : Layout :=
  { layout with outer := layout.outer ++ outer }

/-- Every group that is closed by a row of lexemes is one of the layout or of the row. -/
def Nests : Layout → List (Nat × Lexeme) → Prop
  | _, [] => True
  | layout, entry :: entries =>
    (entry.2 = .closing → layout.outer ≠ []) ∧ Nests (layout.behind entry.2) entries

theorem around_nil (layout : Layout) : layout.around [] = layout := by
  rw [around, List.append_nil]

/-- What is around a layout stays where it is. -/
theorem behind_around {layout : Layout} {lexeme : Lexeme} (outer : List Bool)
    (h : lexeme = .closing → layout.outer ≠ []) :
    (layout.around outer).behind lexeme = (layout.behind lexeme).around outer := by
  cases lexeme with
  | closing =>
    obtain ⟨loose, groups⟩ := layout
    obtain ⟨inner, groups', rfl⟩ := List.exists_cons_of_ne_nil (h rfl)
    rfl
  | _ => rfl

/-- Whether blanks are left out where no group is open. -/
def bottom (layout : Layout) : Bool :=
  layout.outer.getLastD layout.loose

/-- That changes with flags for the whole pattern only. -/
theorem bottom_behind (layout : Layout) {lexeme : Lexeme}
    (h : ∀ flags, lexeme = .wholeFlags flags → flags.contains 'x' = false) :
    bottom (layout.behind lexeme) = bottom layout := by
  obtain ⟨loose, outer⟩ := layout
  cases lexeme with
  | opening kind => exact List.getLastD_cons ..
  | closing =>
    cases outer with
    | nil => rfl
    | cons inner outer => exact (List.getLastD_cons ..).symm
  | wholeFlags flags =>
    have hstrict : (flags.contains 'x' || loose) = loose := by rw [h flags rfl, Bool.false_or]
    show outer.getLastD (flags.contains 'x' || loose) = outer.getLastD loose
    rw [hstrict]
  | _ => rfl

theorem bottom_behindAll (layout : Layout) {entries : List (Nat × Lexeme)}
    (h : ∀ entry ∈ entries, ∀ flags, entry.2 = .wholeFlags flags → flags.contains 'x' = false) :
    bottom (layout.behindAll entries) = bottom layout := by
  induction entries generalizing layout with
  | nil => rfl
  | cons entry entries ih =>
    have hrest := ih (layout.behind entry.2) fun other hother => h other (List.mem_cons_of_mem _ hother)
    exact hrest.trans (bottom_behind layout (h entry (by simp)))

end Layout

namespace Lexeme

variable {text rest : Text} {layout : Layout}

/-! ## Single lexemes -/

theorem append_ne_slash (h : BreaksOff rest) (text : Text) : text ++ rest ≠ ['\\'] := by
  intro hlone
  obtain ⟨c, tail, rfl, hc⟩ := h.exists_cons
  rcases List.append_eq_singleton_iff.1 hlone with ⟨-, hrest⟩ | ⟨-, hrest⟩
  · rw [List.cons.injEq] at hrest
    rcases hc with rfl | rfl | ⟨-, htail⟩
    · simp at hrest
    · simp at hrest
    · exact htail hrest.2
  · cases hrest

/-- The lexeme at the start of a text, whatever is behind it. -/
def readIn (loose : Bool) (text : Text) : Lexeme × Nat :=
  if loose then readLoose text else readSign text

theorem read_eq (loose : Bool) (text : Text) :
    read loose text =
      if text.drop (readIn loose text).2 == ['\\'] && !(readIn loose text).1.isPlacedFirst then
        (fault .danglingEscape (readIn loose text).2, (readIn loose text).2)
      else readIn loose text := rfl

theorem readIn_append (h : BreaksOff rest) {loose : Bool} (hne : text ≠ [])
    (hwhole : (readIn loose text).1.isWhole = true) :
    readIn loose (text ++ rest) = readIn loose text ∧ (readIn loose text).2 ≤ text.length := by
  cases loose with
  | false => exact readSign_append h hne hwhole
  | true => exact readLoose_append h hne hwhole

/-- A lexeme that is whole is the same in front of a text that breaks off, and it does not reach into that
text. -/
theorem read_append (h : BreaksOff rest) {loose : Bool} (hne : text ≠ [])
    (hwhole : (read loose text).1.isWhole = true) :
    read loose (text ++ rest) = read loose text ∧ (read loose text).2 ≤ text.length := by
  rw [read_eq] at hwhole ⊢
  rw [read_eq]
  by_cases hslash : (text.drop (readIn loose text).2 == ['\\'] &&
      !(readIn loose text).1.isPlacedFirst) = true
  · rw [if_pos hslash] at hwhole
    simp at hwhole
  · rw [if_neg hslash] at hwhole ⊢
    obtain ⟨hsame, hwidth⟩ := readIn_append h hne hwhole
    have hbehind : (text ++ rest).drop (readIn loose text).2 ≠ ['\\'] := by
      rw [List.drop_append_of_le_length hwidth]
      exact append_ne_slash h _
    rw [hsame, if_neg (by simp [hbehind])]
    exact ⟨rfl, hwidth⟩

/-! ## Rows -/

/-- A lexeme at another place. -/
def moved (offset : Nat) (entry : Nat × Lexeme) : Nat × Lexeme :=
  (entry.1 + offset, entry.2)

theorem listFrom_cons_of_read {position width : Nat} {c : Char} {text : Text} {sign : Lexeme}
    (h : read layout.loose (c :: text) = (sign, width)) (hfault : sign.isFault = false) :
    listFrom position 0 layout (c :: text) =
      (position, sign) :: listFrom (position + 1) (width - 1) (layout.behind sign) text := by
  rw [listFrom, h]
  cases sign <;> first | rfl | cases hfault

theorem listFrom_cons_of_fault {position offset width : Nat} {c : Char} {text : Text}
    {wrong : PatternFault} (h : read layout.loose (c :: text) = (fault wrong offset, width)) :
    listFrom position 0 layout (c :: text) = [(position, fault wrong (position + offset))] := by
  rw [listFrom, h]

theorem exists_fault_of_isFault {lexeme : Lexeme} (h : lexeme.isFault = true) :
    ∃ wrong offset, lexeme = fault wrong offset := by
  cases lexeme with
  | fault wrong offset => exact ⟨wrong, offset, rfl⟩
  | _ => cases h

/-- A row without a fault starts with a lexeme that is none. -/
theorem exists_read_of_not_isFault {position : Nat} {c : Char} {text : Text}
    (h : ∀ entry ∈ listFrom position 0 layout (c :: text), entry.2.isFault = false) :
    ∃ sign width, read layout.loose (c :: text) = (sign, width) ∧ sign.isFault = false := by
  match hread : read layout.loose (c :: text) with
  | (sign, width) =>
    refine ⟨sign, width, rfl, ?_⟩
    by_contra hsign
    obtain ⟨wrong, offset, rfl⟩ := exists_fault_of_isFault (by simpa using hsign)
    rw [listFrom_cons_of_fault hread] at h
    simpa using h _ (List.mem_singleton_self _)

/-- Behind a text whose lexemes are whole, those of a text that breaks off follow. Groups around the layout
do not matter. -/
theorem listFrom_append (h : BreaksOff rest) (offset : Nat) (outer : List Bool)
    {position skip : Nat} {text : Text} (hskip : skip ≤ text.length)
    (hwhole : ∀ entry ∈ listFrom position skip layout text, entry.2.isWhole = true)
    (hnests : layout.Nests (listFrom position skip layout text)) :
    listFrom (position + offset) skip (layout.around outer) (text ++ rest) =
      (listFrom position skip layout text).map (moved offset) ++
        listFrom (position + text.length + offset) 0
          ((layout.behindAll (listFrom position skip layout text)).around outer) rest := by
  induction text generalizing position skip layout with
  | nil =>
    have hzero : skip = 0 := by simpa using hskip
    subst hzero
    simp [listFrom, Layout.behindAll]
  | cons c text ih =>
    have hplace : position + (c :: text).length + offset = position + 1 + text.length + offset := by
      rw [List.length_cons]
      omega
    have hnext : position + offset + 1 = position + 1 + offset := by omega
    cases skip with
    | succ skip =>
      have htail (place : Nat) (layout : Layout) (body : Text) :
          listFrom place (skip + 1) layout (c :: body) = listFrom (place + 1) skip layout body := rfl
      rw [List.cons_append, htail, htail, hplace, hnext]
      rw [htail] at hwhole hnests
      exact ih (by simpa using hskip) hwhole hnests
    | zero =>
      obtain ⟨sign, width, hread, hsign⟩ :=
        exists_read_of_not_isFault fun entry hentry => isFault_of_isWhole (hwhole entry hentry)
      rw [listFrom_cons_of_read hread hsign] at hwhole hnests ⊢
      obtain ⟨hclosing, hnests⟩ := hnests
      obtain ⟨hsame, hwidth⟩ := read_append h (List.cons_ne_nil c text)
        (by rw [hread]; exact hwhole _ (List.mem_cons_self ..))
      rw [hread] at hsame hwidth
      have hskip : width - 1 ≤ text.length := by
        rw [List.length_cons] at hwidth
        omega
      have hrest := ih hskip (fun entry hentry => hwhole entry (List.mem_cons_of_mem _ hentry)) hnests
      rw [List.cons_append] at hsame
      have haround : (layout.around outer).loose = layout.loose := rfl
      rw [List.cons_append, listFrom_cons_of_read (by rw [haround]; exact hsame) hsign, hplace, hnext,
        Layout.behind_around outer hclosing, hrest]
      rfl

/-- As far as the lexemes of a text are whole, they are the same in front of a text that breaks off. -/
theorem listFrom_append_front (h : BreaksOff rest) (offset : Nat) (outer : List Bool)
    {position skip : Nat} {text : Text} {front back : List (Nat × Lexeme)}
    (hlist : listFrom position skip layout text = front ++ back)
    (hwhole : ∀ entry ∈ front, entry.2.isWhole = true) (hnests : layout.Nests front) :
    ∃ more, listFrom (position + offset) skip (layout.around outer) (text ++ rest) =
      front.map (moved offset) ++ more := by
  induction text generalizing position skip layout front with
  | nil =>
    obtain ⟨rfl, -⟩ := List.append_eq_nil_iff.1 hlist.symm
    exact ⟨_, rfl⟩
  | cons c text ih =>
    cases front with
    | nil => exact ⟨_, rfl⟩
    | cons entry front =>
      have hnext : position + offset + 1 = position + 1 + offset := by omega
      cases skip with
      | succ skip =>
        have htail (place : Nat) (layout : Layout) (body : Text) :
            listFrom place (skip + 1) layout (c :: body) = listFrom (place + 1) skip layout body := rfl
        rw [List.cons_append, htail, hnext]
        exact ih hlist hwhole hnests
      | zero =>
        match hread : read layout.loose (c :: text) with
        | (sign, width) =>
          by_cases hsign : sign.isFault = true
          · obtain ⟨wrong, place, rfl⟩ := exists_fault_of_isFault hsign
            rw [listFrom_cons_of_fault hread] at hlist
            obtain ⟨rfl, -⟩ := List.cons.inj hlist
            cases hwhole _ (List.mem_cons_self ..)
          · have hsign : sign.isFault = false := by simpa using hsign
            rw [listFrom_cons_of_read hread hsign] at hlist
            obtain ⟨rfl, hrest⟩ := List.cons.inj hlist
            obtain ⟨hclosing, hnests⟩ := hnests
            obtain ⟨hsame, -⟩ := read_append h (List.cons_ne_nil c text)
              (by rw [hread]; exact hwhole _ (List.mem_cons_self ..))
            rw [hread, List.cons_append] at hsame
            obtain ⟨more, hmore⟩ := ih hrest
              (fun entry hentry => hwhole entry (List.mem_cons_of_mem _ hentry)) hnests
            have haround : (layout.around outer).loose = layout.loose := rfl
            refine ⟨more, ?_⟩
            rw [List.cons_append, listFrom_cons_of_read (by rw [haround]; exact hsame) hsign, hnext,
              Layout.behind_around outer hclosing, hmore]
            rfl

/-- A text whose lexemes are whole at the start, in front of a text that breaks off. -/
theorem list_append (h : BreaksOff rest) (offset : Nat) (outer : List Bool) {text : Text}
    (hwhole : ∀ entry ∈ list text, entry.2.isWhole = true) (hnests : Layout.strict.Nests (list text)) :
    listFrom offset 0 (Layout.strict.around outer) (text ++ rest) =
      (list text).map (moved offset) ++
        listFrom (text.length + offset) 0 ((Layout.strict.behindAll (list text)).around outer) rest := by
  have hrow := listFrom_append h offset outer (Nat.zero_le _) hwhole hnests
  rw [Nat.zero_add, Nat.zero_add] at hrow
  exact hrow

theorem map_moved_zero (entries : List (Nat × Lexeme)) : entries.map (moved 0) = entries :=
  List.map_id _

/-! ## Lexemes that are patterns -/

/-- Whether a lexeme that is a pattern in itself is one without parts. -/
def isSimple : Lexeme → Bool
  | part pattern => pattern.isAtom
  | _ => true

/-- Whether, besides that, a lexeme is no open comment. -/
def isStrict (lexeme : Lexeme) : Bool :=
  lexeme.isSimple && lexeme != filler true

theorem isStrict_of_isAtom {pattern : Pattern} (h : pattern.isAtom = true) :
    (part pattern).isStrict = true := by
  rw [isStrict, isSimple, h]
  rfl

theorem isStrict_ofCode (code : Nat) : (part (.ofCode code)).isStrict = true := by
  apply isStrict_of_isAtom
  unfold Pattern.ofCode
  split <;> rfl

theorem isStrict_withGreed (least : Nat) (most : Option Nat) (width : Nat) (text : Text) :
    (withGreed least most width text).1.isStrict = true := by
  unfold withGreed
  split <;> rfl

theorem isStrict_readBounds (text : Text) : (readBounds text).1.isStrict = true := by
  rw [readBounds_eq]
  unfold Bounds.lexeme
  dsimp only
  repeat' split
  all_goals try rfl
  exact isStrict_withGreed ..

theorem isStrict_readFlags (text : Text) : (readFlags text).1.isStrict = true := by
  have hcleared (offset : Nat) (on text : Text) : (readCleared offset on text).1.isStrict = true := by
    unfold readCleared
    repeat' split
    all_goals rfl
  unfold readFlags
  split
  · rfl
  · unfold readFlagSign
    repeat' split
    all_goals try rfl
    exact hcleared ..

theorem isStrict_readExtension (text : Text) : (readExtension text).1.isStrict = true := by
  have hunknown (front text : Text) : (unknownGroupKind front text).1.isStrict = true := by
    unfold unknownGroupKind
    split <;> rfl
  unfold readExtension
  split
  all_goals try rfl
  · exact hunknown ..
  · unfold readComment
    dsimp only
    split <;> rfl
  · unfold readCondition
    repeat' split
    all_goals rfl
  · unfold readNamedCapture
    repeat' split
    all_goals rfl
  · unfold readNamedReference
    repeat' split
    all_goals rfl
  · exact hunknown ..
  · split
    · exact isStrict_readFlags _
    · exact hunknown ..

theorem isStrict_readBracket (text : Text) : (readBracket text).1.isStrict = true := by
  have hset (complement : Bool) (members : List SetMember) :
      (Pattern.setOf complement members).isAtom = true := by
    unfold Pattern.setOf
    repeat' split
    all_goals rfl
  match hread : Pattern.readSet text with
  | (.error wrong, width) =>
    rw [readBracket, hread]
    rfl
  | (.ok set, width) =>
    rw [readBracket, hread]
    have hfound := congrArg Prod.fst hread
    unfold Pattern.readSet at hfound
    dsimp only at hfound
    generalize (Pattern.readMembers _ _ _ _).1 = members at hfound
    cases members with
    | error wrong => cases hfound
    | ok members =>
      cases hfound
      exact isStrict_of_isAtom (hset ..)

theorem isStrict_readEscape (letter : Char) (text : Text) :
    (readEscape letter text).1.isStrict = true := by
  have hoctal (digits : Text) : (octalLexeme digits).1.isStrict = true := by
    unfold octalLexeme
    split
    · exact isStrict_ofCode _
    · rfl
  have hnumber (digit : Char) (text : Text) : (readNumber digit text).1.isStrict = true := by
    unfold readNumber
    dsimp only
    repeat' split
    all_goals first | rfl | exact isStrict_ofCode _
  unfold readEscape
  repeat' split
  all_goals try rfl
  · exact hnumber ..
  · exact isStrict_ofCode _

/-- A pattern in itself that is read has no parts. -/
theorem isStrict_readSign (text : Text) : (readSign text).1.isStrict = true := by
  unfold readSign
  split
  all_goals try rfl
  · exact isStrict_readEscape ..
  · exact isStrict_readExtension _
  · exact isStrict_readBracket _
  · exact isStrict_withGreed ..
  · exact isStrict_withGreed ..
  · exact isStrict_withGreed ..
  · exact isStrict_readBounds _

theorem isSimple_of_isStrict {lexeme : Lexeme} (h : lexeme.isStrict = true) :
    lexeme.isSimple = true :=
  (Bool.and_eq_true_iff.1 h).1

theorem isSimple_readLoose (text : Text) : (readLoose text).1.isSimple = true := by
  unfold readLoose
  split
  · dsimp only
    split <;> rfl
  · split
    · rfl
    · exact isSimple_of_isStrict (isStrict_readSign _)

theorem isSimple_read (loose : Bool) (text : Text) : (read loose text).1.isSimple = true := by
  rw [read_eq]
  split
  · rfl
  · cases loose with
    | false => exact isSimple_of_isStrict (isStrict_readSign _)
    | true => exact isSimple_readLoose _

theorem isSimple_listFrom {position skip : Nat} {text : Text} :
    ∀ entry ∈ listFrom position skip layout text, entry.2.isSimple = true := by
  induction text generalizing position skip layout with
  | nil => simp [listFrom]
  | cons c text ih =>
    cases skip with
    | succ skip => exact ih
    | zero =>
      match hread : read layout.loose (c :: text) with
      | (sign, width) =>
        have hsimple := isSimple_read layout.loose (c :: text)
        rw [hread] at hsimple
        cases hsign : sign.isFault with
        | true =>
          obtain ⟨wrong, offset, rfl⟩ := exists_fault_of_isFault hsign
          rw [listFrom_cons_of_fault hread]
          intro entry hentry
          rw [List.mem_singleton.1 hentry]
          rfl
        | false =>
          rw [listFrom_cons_of_read hread hsign]
          intro entry hentry
          rcases List.mem_cons.1 hentry with rfl | hentry
          · exact hsimple
          · exact ih entry hentry

/-! ## Escaped texts -/

theorem signs_special : ∀ c ∈ signs, Pattern.specialChars.contains c = true :=
  List.all_eq_true.1 (by decide)

/-- A character that needs no escape is no sign, and no blank that may be left out. -/
theorem plain_of_not_special {c : Char} (h : Pattern.specialChars.contains c = false) :
    c ∉ signs ∧ c ≠ '#' ∧ looseBlanks.contains c = false := by
  refine ⟨?_, ?_, ?_⟩
  · intro hsign
    rw [signs_special c hsign] at h
    cases h
  · rintro rfl
    exact absurd h (by decide)
  · have hblanks : ∀ d ∈ looseBlanks, Pattern.specialChars.contains d = true :=
      List.all_eq_true.1 (by decide)
    rw [← Bool.not_eq_true, List.contains_iff_mem]
    intro hblank
    rw [hblanks c hblank] at h
    cases h

theorem special_meaning : ∀ c ∈ Pattern.specialChars, Pattern.anchorEscape? c = none ∧
    Pattern.classEscape? c = none ∧ c.isDigit = false ∧ Pattern.controlEscape? c = none ∧
    Pattern.hexEscape? c = none ∧ (c == 'N') = false ∧ c.isAlphanum = false ∧
    Pattern.ofCode c.toNat = .char c := by
  intro c hc
  have hall : Pattern.specialChars.all (fun c => decide (Pattern.anchorEscape? c = none ∧
      Pattern.classEscape? c = none ∧ c.isDigit = false ∧ Pattern.controlEscape? c = none ∧
      Pattern.hexEscape? c = none ∧ (c == 'N') = false ∧ c.isAlphanum = false ∧
      Pattern.ofCode c.toNat = .char c)) = true := by decide
  exact of_decide_eq_true (List.all_eq_true.1 hall c hc)

theorem escape_cons (c : Char) (text : Text) :
    Pattern.escape (c :: text) =
      (if Pattern.specialChars.contains c then ['\\', c] else [c]) ++ Pattern.escape text :=
  List.flatMap_cons

/-- No escaped text is a lone backslash. -/
theorem escape_ne_slash (text : Text) : Pattern.escape text ≠ ['\\'] := by
  cases text with
  | nil => nofun
  | cons c text =>
    rw [escape_cons]
    split
    · nofun
    · rename_i hplain
      intro hlone
      rw [List.cons_append, List.cons.injEq] at hlone
      exact hplain (hlone.1 ▸ by decide)

/-- A character behind a backslash that has no other meaning stands for itself. -/
theorem readSign_escaped {c : Char} (h : c ∈ Pattern.specialChars) (tail : Text) :
    readSign ('\\' :: c :: tail) = (part (.char c), 2) := by
  obtain ⟨hanchor, hclass, hdigit, hcontrol, hhex, hnamed, hletter, hcode⟩ := special_meaning c h
  simp [readSign, readEscape, Pattern.readChar, *]

/-- The first character of an escaped text, with blanks left out or not. -/
theorem read_escape_cons (loose : Bool) (c : Char) (text : Text) :
    ∃ first tail width, Pattern.escape (c :: text) = first :: tail ∧
      read loose (first :: tail) = (part (.char c), width) ∧
      ∀ position layout, listFrom position (width - 1) layout tail =
        listFrom (position + (width - 1)) 0 layout (Pattern.escape text) := by
  rw [escape_cons]
  by_cases hspecial : Pattern.specialChars.contains c = true
  · rw [if_pos hspecial]
    have hmem : c ∈ Pattern.specialChars := by simpa using hspecial
    have hread : readIn loose ('\\' :: c :: Pattern.escape text) = (part (.char c), 2) := by
      cases loose with
      | false => exact readSign_escaped hmem _
      | true =>
        have hloose : readLoose ('\\' :: c :: Pattern.escape text) =
            readSign ('\\' :: c :: Pattern.escape text) := rfl
        exact hloose.trans (readSign_escaped hmem _)
    refine ⟨'\\', c :: Pattern.escape text, 2, rfl, ?_, fun _ _ => rfl⟩
    rw [read_eq, hread]
    simp [escape_ne_slash]
  · rw [if_neg hspecial]
    obtain ⟨hsign, hcomment, hblank⟩ := plain_of_not_special (by simpa using hspecial)
    have hread : readIn loose (c :: Pattern.escape text) = (part (.char c), 1) := by
      cases loose with
      | false => exact readSign_plain hsign _
      | true =>
        show readLoose (c :: Pattern.escape text) = _
        rw [readLoose_of_ne hcomment, hblank, if_neg Bool.false_ne_true, readSign_plain hsign]
    refine ⟨c, Pattern.escape text, 1, rfl, ?_, fun _ _ => rfl⟩
    rw [read_eq, hread]
    simp [escape_ne_slash]

/-- An escaped text is read as its characters. -/
theorem listFrom_escape (position : Nat) (layout : Layout) (text : Text) :
    (listFrom position 0 layout (Pattern.escape text)).map (·.2) =
      text.map fun c => part (.char c) := by
  induction text generalizing position with
  | nil => rfl
  | cons c text ih =>
    obtain ⟨first, tail, width, hescape, hread, hrest⟩ := read_escape_cons layout.loose c text
    have hbehind : layout.behind (part (.char c)) = layout := rfl
    rw [hescape, listFrom_cons_of_read hread rfl, List.map_cons, List.map_cons, hrest, hbehind]
    exact congrArg _ (ih _)

/-! ## Open comments -/

/-- A text that goes on with a comment to its end: no line in it ends but behind a backslash. -/
def StaysInLine (text : Text) : Prop :=
  Pattern.beforeSign '\n' text = (text, [])

theorem staysInLine_escape (text : Text) : StaysInLine (Pattern.escape text) := by
  unfold StaysInLine
  induction text with
  | nil => rfl
  | cons c text ih =>
    rw [escape_cons]
    by_cases hspecial : Pattern.specialChars.contains c = true
    · rw [if_pos hspecial]
      show Pattern.beforeSign '\n' ('\\' :: c :: Pattern.escape text) = _
      rw [Pattern.beforeSign, ih]
      rfl
    · rw [if_neg hspecial]
      have hslash : c ≠ '\\' := by
        rintro rfl
        exact hspecial (by decide)
      have hline : (c == '\n') = false := by
        rw [beq_eq_false_iff_ne]
        rintro rfl
        exact hspecial (by decide)
      simp [Pattern.beforeSign, hslash, hline, ih]

/-- A text that ends in front of no sign goes on with what is behind it. -/
theorem beforeSign_append_of_nil {stop : Char} (rest : Text)
    (h : (Pattern.beforeSign stop text).2 = []) :
    Pattern.beforeSign stop (text ++ rest) =
      (text ++ (Pattern.beforeSign stop rest).1, (Pattern.beforeSign stop rest).2) := by
  fun_induction Pattern.beforeSign stop text with
  | case1 => rfl
  | case2 => cases h
  | case3 c tail front back hcut ih =>
    rw [hcut] at ih
    simp [Pattern.beforeSign, ih h]
  | case4 => cases h
  | case5 c tail hlone hescape hc front back hcut ih =>
    have hslash : c ≠ '\\' := by
      rintro rfl
      cases tail with
      | nil => exact hlone rfl rfl
      | cons d tail => exact hescape d tail rfl rfl
    rw [hcut] at ih
    simp [Pattern.beforeSign, hc, hslash, ih h]

/-- Nothing is read where everything is left out. -/
theorem listFrom_of_length_le {position skip : Nat} {text : Text} (h : text.length ≤ skip) :
    listFrom position skip layout text = [] := by
  induction text generalizing position skip with
  | nil => rfl
  | cons c text ih =>
    obtain ⟨less, rfl⟩ : ∃ less, skip = less + 1 := ⟨skip - 1, by simp at h; omega⟩
    exact ih (by simpa using h)

theorem beforeSign_cases (stop : Char) (text : Text) :
    (Pattern.beforeSign stop text).2 = [] ∨ (Pattern.beforeSign stop text).2 = ['\\'] ∨
      (Pattern.beforeSign stop text).2.head? = some stop := by
  fun_induction Pattern.beforeSign stop text with
  | case1 => exact .inl rfl
  | case2 => exact .inr (.inl rfl)
  | case3 c tail front back hcut ih =>
    rw [hcut] at ih
    exact ih
  | case4 c tail hlone hescape hc => exact .inr (.inr (by simpa using hc))
  | case5 c tail hlone hescape hc front back hcut ih =>
    rw [hcut] at ih
    exact ih

/-- An open comment goes to the end of the text. -/
theorem read_open {loose : Bool} {c : Char} {width : Nat}
    (h : read loose (c :: text) = (filler true, width)) :
    loose = true ∧ c = '#' ∧ (Pattern.beforeSign '\n' text).2 = [] ∧ width = text.length + 1 := by
  rw [read_eq] at h
  split at h
  · cases h
  · rename_i hslash
    cases loose with
    | false =>
      have hstrict := isStrict_readSign (c :: text)
      rw [show readSign (c :: text) = (filler true, width) from h] at hstrict
      cases hstrict
    | true =>
      have hread : readLoose (c :: text) = (filler true, width) := h
      rw [show readIn true (c :: text) = (filler true, width) from h] at hslash
      by_cases hc : c = '#'
      · subst hc
        simp only [readLoose] at hread
        split at hread
        · cases hread
        · rename_i hended
          cases hread
          have hdrop : ((Pattern.beforeSign '\n' text).1 ++ (Pattern.beforeSign '\n' text).2).drop
              (Pattern.beforeSign '\n' text).1.length = (Pattern.beforeSign '\n' text).2 :=
            List.drop_left
          rw [Pattern.beforeSign_parts] at hdrop
          have hnil : (Pattern.beforeSign '\n' text).2 = [] := by
            rcases beforeSign_cases '\n' text with hnil | hlone | hhead
            · exact hnil
            · rw [List.drop_succ_cons, hdrop, hlone] at hslash
              exact absurd rfl hslash
            · exact absurd (by simp [hhead]) hended
          have hlength := Pattern.length_beforeSign '\n' text
          rw [hnil, List.length_nil, Nat.add_zero] at hlength
          exact ⟨rfl, rfl, hnil, by rw [hlength]⟩
      · rw [readLoose_of_ne hc] at hread
        split at hread
        · cases hread
        · have hstrict := isStrict_readSign (c :: text)
          rw [hread] at hstrict
          cases hstrict

/-- A comment that is open goes on with a text that stays in its line. -/
theorem read_append_of_open (hline : StaysInLine rest) {loose : Bool} {c : Char} {width : Nat}
    (h : read loose (c :: text) = (filler true, width)) :
    read loose (c :: (text ++ rest)) = (filler true, (text ++ rest).length + 1) := by
  obtain ⟨rfl, rfl, hnil, -⟩ := read_open h
  have hcut : Pattern.beforeSign '\n' (text ++ rest) = (text ++ rest, []) := by
    rw [beforeSign_append_of_nil rest hnil, hline]
  rw [read_eq, readIn, if_pos rfl, readLoose, hcut]
  simp

/-- Behind an open comment, nothing is read of a text that stays in its line. -/
theorem listFrom_append_of_open (hrest : BreaksOff rest) (hline : StaysInLine rest)
    {position skip : Nat} {text : Text} (hskip : skip ≤ text.length)
    (hfaults : ∀ entry ∈ listFrom position skip layout text, entry.2.isFault = false)
    (hopen : ∃ entry ∈ listFrom position skip layout text, entry.2 = filler true) :
    listFrom position skip layout (text ++ rest) = listFrom position skip layout text := by
  induction text generalizing position skip layout with
  | nil => simp [listFrom] at hopen
  | cons c text ih =>
    cases skip with
    | succ skip =>
      exact ih (by simpa using hskip) hfaults hopen
    | zero =>
      obtain ⟨sign, width, hread, hsign⟩ := exists_read_of_not_isFault hfaults
      by_cases hfiller : sign = filler true
      · subst hfiller
        obtain ⟨-, -, -, rfl⟩ := read_open hread
        rw [List.cons_append, listFrom_cons_of_read (read_append_of_open hline hread) rfl,
          listFrom_cons_of_read hread rfl, listFrom_of_length_le (by simp),
          listFrom_of_length_le (by simp)]
      · have hwhole : sign.isWhole = true := by
          cases sign with
          | fault wrong offset => cases hsign
          | filler isOpen =>
            cases isOpen
            · rfl
            · exact absurd rfl hfiller
          | _ => rfl
        obtain ⟨hsame, hwidth⟩ := read_append hrest (List.cons_ne_nil c text)
          (by rw [hread]; exact hwhole)
        rw [hread] at hsame hwidth
        rw [listFrom_cons_of_read hread hsign] at hfaults hopen ⊢
        obtain ⟨entry, hmem, hentry⟩ := hopen
        have htail : ∃ entry ∈ listFrom (position + 1) (width - 1) (layout.behind sign) text,
            entry.2 = filler true := by
          rcases List.mem_cons.1 hmem with rfl | hmem
          · exact absurd hentry hfiller
          · exact ⟨entry, hmem, hentry⟩
        have hskip : width - 1 ≤ text.length := by
          rw [List.length_cons] at hwidth
          omega
        rw [List.cons_append] at hsame
        rw [List.cons_append, listFrom_cons_of_read hsame hsign,
          ih hskip (fun entry hentry => hfaults entry (List.mem_cons_of_mem _ hentry)) htail]

end Lexeme
end BuildLog
