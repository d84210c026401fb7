import BuildLog.Json.Reader
import BuildLog.Json.Writer
import Mathlib.Data.List.Nodup
import Mathlib.Tactic.SplitIfs

/-!
# JSON as it is written

An object of texts and truth values may be written in many ways: with fillers between its parts, and with
characters as they are or as escapes.

* `Json.CharText`, `Json.Spells`: a character and a text as they may stand inside quotes;
* `Json.ValueText`, `Json.MembersText`, `Json.ObjectText`: a value, members and an object as they may be
  written;
* `Json.read_objectText`: whichever way an object is written, it is read as that object, and it takes no room
  but that of the object itself;
* `Json.objectText_render`: the layouts of this library are such ways, so what is written in one of them is
  read back (`Json.read_pretty`, `Json.read_compact`).
-/

namespace BuildLog.Json

theorem ok_bind {ε α β : Type} (a : α) (next : α → Except ε β) : (.ok a >>= next) = next a := rfl

/-! ## Values with their code points -/

mutual

/-- A value is had back from its code points. -/
theorem map_codes_text : ∀ value : Json, (value.map Text.codes).map Codes.text = value
  | null | bool _ | int _ | double _ => rfl
  | string value => by simp [map]
  | array items => by rw [map, map, mapItems_codes_text items]
  | object members => by rw [map, map, mapMembers_codes_text members]

theorem mapItems_codes_text : ∀ items : List Json,
    mapItems Codes.text (mapItems Text.codes items) = items
  | [] => rfl
  | item :: items => by rw [mapItems, mapItems, map_codes_text item, mapItems_codes_text items]

theorem mapMembers_codes_text : ∀ members : List (Text × Json),
    mapMembers Codes.text (mapMembers Text.codes members) = members
  | [] => rfl
  | (name, value) :: members => by
    rw [mapMembers, mapMembers, map_codes_text value, mapMembers_codes_text members, Codes.text_codes]

end

/-! ## Escapes of units -/

theorem hexValue?_digitChar {digit : Nat} (h : digit < 16) :
    hexValue? (Nat.digitChar digit) = some digit := by
  decide +revert

theorem hexDigits_one {n : Nat} (h : n < 16) : hexDigits 1 n = [Nat.digitChar n] := by
  simp [hexDigits, Nat.toDigits_of_lt_base h]

/-- The digits of a number in front of its last one are those of its sixteenth part. -/
theorem hexDigits_add_two (width n : Nat) :
    hexDigits (width + 2) n = hexDigits (width + 1) (n / 16) ++ [Nat.digitChar (n % 16)] := by
  by_cases h : n < 16
  · have hzero : n / 16 = 0 := by omega
    rw [hexDigits, hexDigits, Nat.toDigits_of_lt_base h, hzero, Nat.mod_eq_of_lt h]
    simp [List.replicate_succ']
  · rw [hexDigits, hexDigits, Nat.toDigits_of_base_le (by omega) (by omega)]
    simp

theorem unitEscape_append (unit : Nat) (rest : Text) :
    unitEscape unit ++ rest = '\\' :: 'u' :: (hexDigits 4 unit ++ rest) := rfl

theorem readUnit?_hexDigits {n : Nat} (h : n < 0x10000) (rest : Text) :
    readUnit? (hexDigits 4 n ++ rest) = some (n, rest) := by
  rw [hexDigits_add_two, hexDigits_add_two, hexDigits_add_two, hexDigits_one (by omega)]
  simp only [List.cons_append, List.nil_append, readUnit?]
  rw [hexValue?_digitChar (by omega), hexValue?_digitChar (by omega), hexValue?_digitChar (by omega),
    hexValue?_digitChar (by omega)]
  simp
  omega

/-- A unit that is no first half of a pair is a code point of its own. -/
theorem readUnicode?_hexDigits {n : Nat} (h : n < 0x10000) (hhigh : isHigh n = false) (rest : Text) :
    readUnicode? (hexDigits 4 n ++ rest) = some (n, rest) := by
  rw [readUnicode?, readUnit?_hexDigits h]
  simp [hhigh]

/-- Two halves of a pair are one code point. -/
theorem readUnicode?_pair {high low : Nat} (hhigh : isHigh high = true) (hlow : isLow low = true)
    (rest : Text) :
    readUnicode? (hexDigits 4 high ++ '\\' :: 'u' :: (hexDigits 4 low ++ rest)) =
      some (pairedCode high low, rest) := by
  have hfirst : high < 0x10000 := by simp [isHigh] at hhigh; omega
  have hsecond : low < 0x10000 := by simp [isLow] at hlow; omega
  rw [readUnicode?, readUnit?_hexDigits hfirst]
  simp [hhigh, hlow, readUnit?_hexDigits hsecond]

/-- A character beyond the first plane is read from its two halves. -/
theorem readUnicode?_halves {c : Char} (h : 0x10000 ≤ c.toNat) (rest : Text) :
    readUnicode? (hexDigits 4 (0xD800 + (c.toNat - 0x10000) / 0x400) ++ '\\' :: 'u' ::
      (hexDigits 4 (0xDC00 + (c.toNat - 0x10000) % 0x400) ++ rest)) = some (c.toNat, rest) := by
  have hvalid : c.toNat < 0xD800 ∨ 0xDFFF < c.toNat ∧ c.toNat < 0x110000 := c.valid
  have hcode : pairedCode (0xD800 + (c.toNat - 0x10000) / 0x400)
      (0xDC00 + (c.toNat - 0x10000) % 0x400) = c.toNat := by
    unfold pairedCode
    omega
  have hhigh : isHigh (0xD800 + (c.toNat - 0x10000) / 0x400) = true := by simp [isHigh]; omega
  have hlow : isLow (0xDC00 + (c.toNat - 0x10000) % 0x400) = true := by simp [isLow]; omega
  rw [readUnicode?_pair hhigh hlow, hcode]

/-! ## Characters -/

/-- How a character may be written inside quotes. -/
inductive CharText (c : Char) : Text → Prop
  /-- Quotes, backslashes and all but printable ASCII are written as escapes. -/
  | escaped : CharText c (quotedChar c)
  /-- All but controls, quotes and backslashes may be written as they are. -/
  | plain (hcontrol : 0x20 ≤ c.toNat) (hquote : c ≠ '"') (hbackslash : c ≠ '\\') : CharText c [c]

/-- What is read in front of a character that was read already. -/
def withFirst (c : Char) (found : Codes × Text) : Codes × Text :=
  (c.toNat :: found.1, found.2)

variable {bound : Nat} {rest : Text}

theorem readText?_plain {c : Char} (hcontrol : 0x20 ≤ c.toNat) (hquote : c ≠ '"')
    (hbackslash : c ≠ '\\') :
    readText? (bound + 1) (c :: rest) = (readText? bound rest).map (withFirst c) := by
  rw [readText?]
  · rw [if_neg (by simp [hbackslash]; omega)]
    cases readText? bound rest <;> rfl
  all_goals simp [hquote, hbackslash]

theorem readText?_letter {letter c : Char} (h : escaped? letter = some c) :
    readText? (bound + 1) ('\\' :: letter :: rest) = (readText? bound rest).map (withFirst c) := by
  rw [readText?]
  · rw [h]
    cases readText? bound rest <;> rfl
  · rintro rfl
    cases h

theorem readText?_unicode {c : Char} {text : Text} (h : readUnicode? text = some (c.toNat, rest)) :
    readText? (bound + 1) ('\\' :: 'u' :: text) = (readText? bound rest).map (withFirst c) := by
  rw [readText?, h]
  change Json.readText? bound rest >>= _ = _
  cases Json.readText? bound rest <;> rfl

/-- However a character is written, it is read as itself. -/
theorem CharText.readText? {c : Char} {text : Text} (h : CharText c text) :
    readText? (bound + 1) (text ++ rest) = (Json.readText? bound rest).map (withFirst c) := by
  cases h with
  | plain hcontrol hquote hbackslash => exact readText?_plain hcontrol hquote hbackslash
  | escaped =>
    -- a character is no half of a pair
    have hvalid : c.toNat < 0xD800 ∨ 0xDFFF < c.toNat ∧ c.toNat < 0x110000 := c.valid
    simp only [quotedChar, beq_iff_eq, Bool.and_eq_true, decide_eq_true_eq]
    split_ifs with hquote hbackslash hnewline hreturn htab hback hfeed hprintable hplane
    · exact readText?_letter (by rw [hquote]; rfl)
    · exact readText?_letter (by rw [hbackslash]; rfl)
    · exact readText?_letter (by rw [hnewline]; rfl)
    · exact readText?_letter (by rw [hreturn]; rfl)
    · exact readText?_letter (by rw [htab]; rfl)
    · exact readText?_letter (by rw [hback]; rfl)
    · exact readText?_letter (by rw [hfeed]; rfl)
    · exact readText?_plain hprintable.1 hquote hbackslash
    · have hhigh : isHigh c.toNat = false := by simp [isHigh]; omega
      rw [unitEscape_append]
      exact readText?_unicode (readUnicode?_hexDigits hplane hhigh rest)
    · rw [List.append_assoc, unitEscape_append, unitEscape_append]
      exact readText?_unicode (readUnicode?_halves (by omega) rest)

/-! ## Texts and values -/

/-- A text, and how it is written inside quotes. -/
inductive Spells : Text → Text → Prop
  | nil : Spells [] []
  | cons {c : Char} {text first spelling : Text} (hfirst : CharText c first)
      (hrest : Spells text spelling) : Spells (c :: text) (first ++ spelling)

theorem CharText.ne_nil {c : Char} {text : Text} (h : CharText c text) : text ≠ [] := by
  rintro rfl
  -- behind no characters at all, the quote would be read as the end of the text
  have hread : Json.readText? 2 ['"'] = (Json.readText? 1 ['"']).map (withFirst c) := h.readText?
  cases hread

theorem Spells.length_le {text spelling : Text} (h : Spells text spelling) :
    text.length ≤ spelling.length := by
  induction h with
  | nil => exact Nat.le_refl 0
  | cons hfirst hrest ih =>
    have hpos := List.length_pos_iff.2 hfirst.ne_nil
    rw [List.length_cons, List.length_append]
    omega

/-- However a text is written, its code points are read up to the closing quote. -/
theorem Spells.readText? {text spelling : Text} (h : Spells text spelling)
    (hbound : text.length < bound) (rest : Text) :
    Json.readText? bound (spelling ++ '"' :: rest) = some (text.codes, rest) := by
  induction h generalizing bound with
  | nil =>
    obtain ⟨bound, rfl⟩ := Nat.exists_eq_add_one_of_ne_zero (Nat.ne_zero_of_lt hbound)
    rfl
  | cons hfirst hrest ih =>
    obtain ⟨bound, rfl⟩ := Nat.exists_eq_add_one_of_ne_zero (Nat.ne_zero_of_lt hbound)
    rw [List.append_assoc, hfirst.readText?, ih (Nat.lt_of_succ_lt_succ hbound)]
    rfl

/-- A text in quotes is read together with them. -/
theorem Spells.readQuoted {text spelling : Text} (h : Spells text spelling) (rest : Text) :
    Json.readText? ((spelling ++ '"' :: rest).length + 1) (spelling ++ '"' :: rest) =
      some (text.codes, rest) := by
  have hlength := h.length_le
  refine h.readText? ?_ rest
  rw [List.length_append]
  omega

/-- A truth value or a text, and how it is written. -/
inductive ValueText : Json → Text → Prop
  | yes : ValueText (.bool true) "true".toList
  | no : ValueText (.bool false) "false".toList
  | text {text spelling : Text} (h : Spells text spelling) :
      ValueText (.string text) ('"' :: (spelling ++ ['"']))

theorem readScalar_quote (rest : Text) :
    readScalar ('"' :: rest) =
      (orBroken (Json.readText? (rest.length + 1) rest)).map fun found =>
        (.string found.1, found.2) := rfl

/-- A value of that kind takes no room. -/
theorem ValueText.readValue {value : Json} {text : Text} (h : ValueText value text)
    (room bound : Nat) (rest : Text) :
    Json.readValue room (bound + 1) (text ++ rest) = .ok (value.map Text.codes, rest) := by
  cases h with
  | yes => cases room <;> rfl
  | no => cases room <;> rfl
  | @text text spelling h =>
    have hquoted : '"' :: (spelling ++ ['"']) ++ rest = '"' :: (spelling ++ '"' :: rest) := by simp
    rw [hquoted, Json.readValue, readScalar_quote, h.readQuoted]
    · rfl
    all_goals simp

/-! ## Objects -/

/-- What may stand between the parts of a document. -/
def Gap (text : Text) : Prop :=
  ∀ c ∈ text, isFiller c = true

theorem gap_nil : Gap [] := List.forall_mem_nil _

theorem skipFiller_gap {gap : Text} (h : Gap gap) (rest : Text) :
    skipFiller (gap ++ rest) = skipFiller rest :=
  List.dropWhile_append_of_pos h

/-- A character that is no filler stops the skipping. -/
theorem skipFiller_gap_cons {gap : Text} (h : Gap gap) {c : Char} (hc : isFiller c = false)
    (rest : Text) : skipFiller (gap ++ c :: rest) = c :: rest := by
  rw [skipFiller_gap h, skipFiller, List.dropWhile_cons_of_neg (by simp [hc])]

theorem ValueText.skipFiller {value : Json} {text gap : Text} (h : ValueText value text)
    (hgap : Gap gap) (rest : Text) : Json.skipFiller (gap ++ (text ++ rest)) = text ++ rest := by
  cases h with
  | yes => exact skipFiller_gap_cons hgap rfl _
  | no => exact skipFiller_gap_cons hgap rfl _
  | text h => exact skipFiller_gap_cons hgap rfl _

/-- A member, and how it is written: its name in quotes, a colon and its value, with gaps around the
colon. -/
inductive MemberText : Text × Json → Text → Prop
  | mk {name spelling before behind text : Text} {value : Json} (hname : Spells name spelling)
      (hbefore : Gap before) (hbehind : Gap behind) (hvalue : ValueText value text) :
      MemberText (name, value) ('"' :: (spelling ++ '"' :: (before ++ ':' :: (behind ++ text))))

/-- Members, and how they are written, with commas between them and gaps around these. -/
inductive MembersText : List (Text × Json) → Text → Prop
  | last {member : Text × Json} {text gap : Text} (h : MemberText member text) (hgap : Gap gap) :
      MembersText [member] (text ++ gap)
  | more {member : Text × Json} {members : List (Text × Json)} {text gap lead rest : Text}
      (h : MemberText member text) (hgap : Gap gap) (hlead : Gap lead)
      (hrest : MembersText members rest) :
      MembersText (member :: members) (text ++ (gap ++ ',' :: (lead ++ rest)))

/-- A member with its code points. -/
def memberCodes (member : Text × Json) : Codes × Json Codes :=
  (member.1.codes, member.2.map Text.codes)

theorem mapMembers_codes (members : List (Text × Json)) :
    mapMembers Text.codes members = members.map memberCodes := by
  induction members with
  | nil => rfl
  | cons member members ih => rw [mapMembers, ih, List.map_cons, memberCodes]

/-- Behind a member stands the end of the object or the next member. -/
theorem MemberText.readMembers {member : Text × Json} {text : Text} (h : MemberText member text)
    (room bound : Nat) (rest : Text) :
    Json.readMembers room (bound + 2) (text ++ rest) =
      match Json.skipFiller rest with
      | '}' :: tail => .ok ([memberCodes member], tail)
      | ',' :: tail =>
        (Json.readMembers room (bound + 1) (Json.skipFiller tail)).map fun found =>
          (memberCodes member :: found.1, found.2)
      | _ => .error .noDocument := by
  obtain ⟨hname, hbefore, hbehind, hvalue⟩ := h
  simp only [List.cons_append, List.append_assoc]
  rw [Json.readMembers]
  simp only [hname.readQuoted, orBroken, ok_bind, skipFiller_gap_cons (c := ':') hbefore rfl,
    hvalue.skipFiller hbehind, hvalue.readValue]
  rfl

/-- A name in quotes stands in front. -/
theorem MembersText.exists_cons {members : List (Text × Json)} {text : Text}
    (h : MembersText members text) : ∃ rest, text = '"' :: rest := by
  cases h with
  | last h hgap =>
    cases h
    exact ⟨_, rfl⟩
  | more h hgap hlead hrest =>
    cases h
    exact ⟨_, rfl⟩

theorem MembersText.skipFiller {members : List (Text × Json)} {text gap : Text}
    (h : MembersText members text) (hgap : Gap gap) (rest : Text) :
    Json.skipFiller (gap ++ (text ++ rest)) = text ++ rest := by
  obtain ⟨more, rfl⟩ := h.exists_cons
  exact skipFiller_gap_cons hgap rfl _

theorem MembersText.length_le {members : List (Text × Json)} {text : Text}
    (h : MembersText members text) : members.length ≤ text.length := by
  induction h with
  | last h hgap =>
    cases h
    simp
  | more h hgap hlead hrest ih =>
    simp only [List.length_append, List.length_cons]
    omega

/-- However the members of an object are written, they are read up to the closing brace. -/
theorem MembersText.readMembers {members : List (Text × Json)} {text : Text}
    (h : MembersText members text) (room : Nat) (hbound : members.length < bound) (rest : Text) :
    Json.readMembers room bound (text ++ '}' :: rest) = .ok (members.map memberCodes, rest) := by
  induction h generalizing bound with
  | @last member text gap h hgap =>
    obtain ⟨bound, rfl⟩ : ∃ smaller, bound = smaller + 2 := Nat.exists_eq_add_of_le' hbound
    rw [List.append_assoc, h.readMembers, skipFiller_gap_cons hgap rfl]
    rfl
  | @more member members text gap lead rest h hgap hlead hrest ih =>
    rw [List.length_cons] at hbound
    obtain ⟨bound, rfl⟩ : ∃ smaller, bound = smaller + 2 := Nat.exists_eq_add_of_le' (by omega)
    simp only [List.append_assoc, List.cons_append]
    rw [h.readMembers, skipFiller_gap_cons hgap rfl]
    simp only [hrest.skipFiller hlead, ih (Nat.lt_of_succ_lt_succ hbound)]
    rfl

/-- An object with members, and how it is written: in braces, with gaps around them. -/
inductive ObjectText : List (Text × Json) → Text → Prop
  | mk {members : List (Text × Json)} {front inner text behind : Text} (hfront : Gap front)
      (hinner : Gap inner) (h : MembersText members text) (hbehind : Gap behind) :
      ObjectText members (front ++ '{' :: (inner ++ (text ++ '}' :: behind)))

/-- A new name comes last. -/
theorem put_of_notMem {members : List (Codes × Json Codes)} {name : Codes} (value : Json Codes)
    (h : name ∉ members.map (·.1)) : put members name value = members ++ [(name, value)] := by
  induction members with
  | nil => rfl
  | cons entry members ih =>
    obtain ⟨hne, hrest⟩ := List.ne_and_not_mem_of_not_mem_cons h
    have hkey : (entry.1 == name) = false := beq_false_of_ne (Ne.symm hne)
    rw [put, if_neg (by simp [hkey]), ih hrest, List.cons_append]

theorem foldl_put_eq_append {members seen : List (Codes × Json Codes)}
    (h : ((seen ++ members).map (·.1)).Nodup) :
    members.foldl (fun seen entry => put seen entry.1 entry.2) seen = seen ++ members := by
  induction members generalizing seen with
  | nil => simp
  | cons entry members ih =>
    have hnew : entry.1 ∉ seen.map (·.1) := by
      intro hmem
      rw [List.map_append, List.map_cons] at h
      exact (List.nodup_append.1 h).2.2 _ hmem _ (List.mem_cons_self ..) rfl
    rw [List.foldl_cons, put_of_notMem _ hnew, ih (by simpa using h), List.append_assoc,
      List.singleton_append]

/-- Members of different names stay as they are. -/
theorem distinctMembers_of_nodup {members : List (Text × Json)} (h : (members.map (·.1)).Nodup) :
    distinctMembers (members.map memberCodes) = members.map memberCodes := by
  have hnames : ((members.map memberCodes).map (·.1)).Nodup := by
    rw [List.map_map]
    simpa [Function.comp_def, memberCodes] using h.map Text.codes_injective
  exact foldl_put_eq_append hnames

/-- An object is read with its braces. -/
theorem MembersText.readValue {members : List (Text × Json)} {inner text : Text}
    (h : MembersText members text) (hinner : Gap inner) (room : Nat) (hbound : members.length < bound)
    (rest : Text) :
    Json.readValue (room + 1) (bound + 1) ('{' :: (inner ++ (text ++ '}' :: rest))) =
      .ok (.object (distinctMembers (members.map memberCodes)), rest) := by
  have hread := h.readMembers room hbound rest
  have hskip := h.skipFiller hinner ('}' :: rest)
  obtain ⟨more, rfl⟩ := h.exists_cons
  rw [List.cons_append] at hread hskip
  rw [List.cons_append, Json.readValue, hskip]
  change Json.readMembers room bound ('"' :: (more ++ '}' :: rest)) >>= _ = _
  rw [hread]
  rfl

/-- However an object is written whose members have different names, it is read as that object. -/
theorem read_objectText {members : List (Text × Json)} {text : Text} (h : ObjectText members text)
    (hnames : (members.map (·.1)).Nodup) (room : Nat) :
    read room text = .ok ((Json.object members).map Text.codes) := by
  obtain @⟨front, inner, text, behind, hfront, hinner, hmembers, hbehind⟩ := h
  have hend : skipFiller behind = [] := by
    rw [← List.append_nil behind, skipFiller_gap hbehind]
    rfl
  have hlength := hmembers.length_le
  have hbound : members.length <
      2 * (front ++ '{' :: (inner ++ (text ++ '}' :: behind))).length + 1 := by
    simp only [List.length_append, List.length_cons]
    omega
  rw [read, skipFiller_gap_cons hfront rfl, hmembers.readValue hinner room hbound,
    distinctMembers_of_nodup hnames, map, mapMembers_codes]
  exact if_pos (by rw [hend]; rfl)

/-! ## What is written -/

/-- A layout puts nothing but gaps between the parts of a value. -/
structure Layout.HasGaps (layout : Layout) : Prop where
  lead : ∀ depth, Gap (layout.lead depth)
  colon : ∃ behind, layout.colon = ':' :: behind ∧ Gap behind

theorem Layout.hasGaps_lines : Layout.lines.HasGaps where
  lead := by
    intro depth c hc
    rcases List.mem_cons.1 hc with rfl | hspace
    · rfl
    · rw [(List.mem_replicate.1 hspace).2]
      rfl
  colon := ⟨[' '], rfl, by simp [Gap, isFiller]⟩

theorem Layout.hasGaps_line : Layout.line.HasGaps where
  lead := fun _ => gap_nil
  colon := ⟨[], rfl, gap_nil⟩

theorem spells_quotedChar (text : Text) : Spells text (text.flatMap quotedChar) := by
  induction text with
  | nil => exact .nil
  | cons c text ih => exact .cons .escaped ih

/-- A value is a truth value or a text. -/
def IsPlain (value : Json) : Prop :=
  ∃ text, ValueText value text

theorem isPlain_bool (value : Bool) : IsPlain (.bool value) := by
  cases value with
  | true => exact ⟨_, .yes⟩
  | false => exact ⟨_, .no⟩

theorem isPlain_string (text : Text) : IsPlain (.string text) :=
  ⟨_, .text (spells_quotedChar text)⟩

variable {layout : Layout}

theorem IsPlain.valueText_render {value : Json} (h : value.IsPlain) (layout : Layout) (depth : Nat) :
    ValueText value (render layout depth value) := by
  obtain ⟨text, htext⟩ := h
  cases htext with
  | yes => exact .yes
  | no => exact .no
  | @text text spelling _ => exact .text (spells_quotedChar text)

theorem memberText_render (hlayout : layout.HasGaps) (name : Text) {value : Json}
    (h : value.IsPlain) (depth : Nat) :
    MemberText (name, value) (quoted name ++ (layout.colon ++ render layout depth value)) := by
  obtain ⟨behind, hcolon, hbehind⟩ := hlayout.colon
  have hmember := MemberText.mk (spells_quotedChar name) gap_nil hbehind
    (h.valueText_render layout depth)
  simpa [quoted, hcolon] using hmember

theorem membersText_render (hlayout : layout.HasGaps) (depth : Nat) (members : List (Text × Json))
    (name : Text) {gap : Text} {value : Json} (h : value.IsPlain)
    (hmembers : ∀ entry ∈ members, entry.2.IsPlain) (hgap : Gap gap) :
    MembersText ((name, value) :: members)
      (quoted name ++ (layout.colon ++ render layout depth value) ++
        (renderMembers layout depth members ++ gap)) := by
  induction members generalizing name value with
  | nil => exact .last (memberText_render hlayout name h depth) hgap
  | cons entry members ih =>
    obtain ⟨hentry, hrest⟩ := List.forall_mem_cons.1 hmembers
    have hmore := MembersText.more (memberText_render hlayout name h depth) gap_nil
      (hlayout.lead depth) (ih entry.1 hentry hrest)
    simpa [renderMembers] using hmore

/-- An object of texts and truth values is written in one of the ways in which it may be written. -/
theorem objectText_render (hlayout : layout.HasGaps) (depth : Nat) {members : List (Text × Json)}
    (hne : members ≠ []) (hmembers : ∀ entry ∈ members, entry.2.IsPlain) :
    ObjectText members (render layout depth (.object members)) := by
  obtain ⟨entry, members, rfl⟩ := List.exists_cons_of_ne_nil hne
  obtain ⟨hentry, hrest⟩ := List.forall_mem_cons.1 hmembers
  have hobject := ObjectText.mk gap_nil (hlayout.lead (depth + 1))
    (membersText_render hlayout (depth + 1) members entry.1 hentry hrest
      (hlayout.lead depth)) gap_nil
  simpa [render] using hobject

/-- What is written of such an object over several lines is read back. -/
theorem read_pretty {members : List (Text × Json)} (hne : members ≠ [])
    (hmembers : ∀ entry ∈ members, entry.2.IsPlain) (hnames : (members.map (·.1)).Nodup) (room : Nat) :
    read room (pretty (.object members)) = .ok ((Json.object members).map Text.codes) :=
  read_objectText (objectText_render Layout.hasGaps_lines 0 hne hmembers) hnames room

/-- What is written of such an object on one line is read back. -/
theorem read_compact {members : List (Text × Json)} (hne : members ≠ [])
    (hmembers : ∀ entry ∈ members, entry.2.IsPlain) (hnames : (members.map (·.1)).Nodup) (room : Nat) :
    read room (compact (.object members)) = .ok ((Json.object members).map Text.codes) :=
  read_objectText (objectText_render Layout.hasGaps_line 0 hne hmembers) hnames room

end BuildLog.Json
