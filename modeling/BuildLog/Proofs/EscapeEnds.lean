import BuildLog.Pattern.Escape
import Mathlib.Data.List.Basic

/-!
# Where escapes and sets end

What stands in a pattern is read as far as it goes, and that may depend on what is written behind it. There
are signs that never go on with what is in front of them.

* `Pattern.BreaksOff`: a text that starts with such a sign;
* `Pattern.beforeSign_append`: a text is cut in front of the same sign, whatever follows;
* `Pattern.readChar_append`, `Pattern.readMembers_append`: an escape and the members of a set are read in the
  same way in front of a text that breaks off, and they do not reach into it;
* `Pattern.readMembers_cases`: the ways in which the members of a set go on, which is the step of the
  proof for sets.
-/

namespace BuildLog.Pattern

/-- A text that starts with a parenthesis, or with a backslash that does not end it: nothing in front of it
reaches into it. -/
def BreaksOff : Text → Prop
  | '(' :: _ => True
  | ')' :: _ => True
  | '\\' :: _ :: _ => True
  | _ => False

variable {text rest : Text}

theorem BreaksOff.exists_cons (h : BreaksOff rest) :
    ∃ c tail, rest = c :: tail ∧ (c = '(' ∨ c = ')' ∨ c = '\\' ∧ tail ≠ []) := by
  unfold BreaksOff at h
  split at h
  · exact ⟨_, _, rfl, .inl rfl⟩
  · exact ⟨_, _, rfl, .inr (.inl rfl)⟩
  · exact ⟨_, _, rfl, .inr (.inr ⟨rfl, by simp⟩)⟩
  · exact h.elim

/-- A text that breaks off does not start with a character of a class that has none of the signs. -/
theorem BreaksOff.head (h : BreaksOff rest) {p : Char → Bool} (hp : p '(' = false)
    (hp' : p ')' = false) (hp'' : p '\\' = false) : ∀ c ∈ rest.head?, p c = false := by
  obtain ⟨c, tail, rfl, hc⟩ := h.exists_cons
  rintro _ ⟨⟩
  rcases hc with rfl | rfl | ⟨rfl, -⟩ <;> assumption

/-- A text that breaks off does not bring a character to the front that is none of the signs. -/
theorem BreaksOff.head?_append_ne (h : BreaksOff rest) {c : Char} (hc : c ≠ '(') (hc' : c ≠ ')')
    (hc'' : c ≠ '\\') (htext : text.head? ≠ some c) : (text ++ rest).head? ≠ some c := by
  cases text with
  | nil =>
    obtain ⟨d, tail, rfl, hd⟩ := h.exists_cons
    rintro ⟨⟩
    rcases hd with rfl | rfl | ⟨rfl, -⟩ <;> contradiction
  | cons d text => exact htext

/-- A run of characters ends where the text behind does not go on with it. -/
theorem takeWhile_append_of_head {p : Char → Bool} (text : Text) (h : ∀ c ∈ rest.head?, p c = false) :
    (text ++ rest).takeWhile p = text.takeWhile p := by
  induction text with
  | nil =>
    cases rest with
    | nil => rfl
    | cons c tail => simp [h c rfl]
  | cons c text ih =>
    rw [List.cons_append, List.takeWhile_cons, List.takeWhile_cons, ih]

/-! ## Names -/

/-- The two parts of a cut make up the text. -/
theorem beforeSign_parts (stop : Char) (text : Text) :
    (beforeSign stop text).1 ++ (beforeSign stop text).2 = text := by
  fun_induction beforeSign stop text <;> simp_all

/-- A text that is cut in front of a sign is cut there whatever follows. -/
theorem beforeSign_append {stop : Char} (rest : Text)
    (h : (beforeSign stop text).2.head? = some stop) (hstop : stop ≠ '\\') :
    beforeSign stop (text ++ rest) =
      ((beforeSign stop text).1, (beforeSign stop text).2 ++ rest) := by
  fun_induction beforeSign stop text with
  | case1 => simp at h
  | case2 => exact absurd (Option.some.inj h).symm hstop
  | case3 c tail front back hcut ih =>
    rw [hcut] at ih
    simp [beforeSign, ih h]
  | case4 c tail hlone hescape hc =>
    have hslash : c ≠ '\\' := by
      rintro rfl
      exact hstop (eq_of_beq hc).symm
    simp [beforeSign, hc, hslash]
  | case5 c tail hlone hescape hc front back hcut ih =>
    have hslash : c ≠ '\\' := by
      rintro rfl
      cases tail with
      | nil => exact hlone rfl rfl
      | cons d tail => exact hescape d tail rfl rfl
    rw [hcut] at ih
    simp [beforeSign, hc, hslash, ih h]

theorem length_beforeSign (stop : Char) (text : Text) :
    (beforeSign stop text).1.length + (beforeSign stop text).2.length = text.length := by
  rw [← List.length_append, beforeSign_parts]

/-- A cut in front of a sign leaves the sign. -/
theorem length_beforeSign_lt {stop : Char} (h : (beforeSign stop text).2.head? = some stop) :
    (beforeSign stop text).1.length < text.length := by
  have hlength := length_beforeSign stop text
  have hpos : 0 < (beforeSign stop text).2.length := by
    rw [List.length_pos_iff]
    intro hnil
    rw [hnil] at h
    cases h
  omega

/-- A name is read with the sign behind it, whatever follows. -/
theorem readName_append (rest : Text) {stop : Char} (hstop : stop ≠ '\\') {what : String} {name : Text}
    {width : Nat} (h : readName stop what text = (.ok name, width)) :
    readName stop what (text ++ rest) = (.ok name, width) ∧ width ≤ text.length := by
  unfold readName at h ⊢
  dsimp only at h ⊢
  split at h
  · cases h
  · rename_i hne
    split at h
    · rename_i hended
      have hhead : (beforeSign stop text).2.head? = some stop := by simpa using hended
      rw [beforeSign_append rest hhead hstop]
      have hlonger : ((beforeSign stop text).2 ++ rest).head? = some stop := by
        rw [List.head?_append, hhead]
        rfl
      have hlength := length_beforeSign_lt hhead
      cases h
      exact ⟨by simp [hne, hlonger], hlength⟩
    · cases h

/-! ## Escapes -/

theorem readHex_append (rest : Text) {letter : Char} {count code width : Nat}
    (h : readHex letter count text = (.ok code, width)) :
    readHex letter count (text ++ rest) = (.ok code, width) ∧ 0 < width ∧
      width ≤ text.length + 2 := by
  unfold readHex at h ⊢
  dsimp only at h ⊢
  have hshort := (List.takeWhile_prefix (l := text.take count)
    fun c => (Json.hexValue? c).isSome).length_le
  rw [List.length_take] at hshort
  by_cases hdigits :
      ((text.take count).takeWhile fun c => (Json.hexValue? c).isSome).length < count
  · simp [hdigits] at h
  · rw [List.take_append_of_le_length (by omega : count ≤ text.length)]
    refine ⟨h, ?_⟩
    rw [if_neg hdigits] at h
    split at h
    · cases h
      omega
    · split at h <;> cases h

theorem readNamed_append (rest : Text) {code width : Nat} (h : readNamed text = (.ok code, width)) :
    readNamed (text ++ rest) = (.ok code, width) ∧ 0 < width ∧ width ≤ text.length + 2 := by
  unfold readNamed at h
  split at h
  · rename_i tail
    split at h
    · cases h
    · rename_i name taken hname
      obtain ⟨hsame, hwidth⟩ := readName_append rest (by decide) hname
      split at h
      · rename_i c hc
        cases h
        rw [List.cons_append, readNamed, hsame]
        dsimp only
        rw [hc, List.length_cons]
        exact ⟨rfl, by omega, by omega⟩
      · cases h
  · cases h

theorem readChar_append (rest : Text) {letter : Char} {code width : Nat}
    (h : readChar letter text = (.ok code, width)) :
    readChar letter (text ++ rest) = (.ok code, width) ∧ 0 < width ∧ width ≤ text.length + 2 := by
  unfold readChar at h ⊢
  split at h
  · cases h
    exact ⟨rfl, by omega, by omega⟩
  · exact readHex_append rest h
  · split at h
    · rw [if_pos ‹_›]
      exact readNamed_append rest h
    · rw [if_neg ‹_›]
      refine ⟨h, ?_⟩
      split at h
      · cases h
      · cases h
        omega

/-- Digits of octal numbers end in front of a text that breaks off. -/
theorem takeWhile_isOctal_append (h : BreaksOff rest) (text : Text) :
    ((text ++ rest).take 2).takeWhile isOctal = (text.take 2).takeWhile isOctal := by
  have hoctal : ∀ c ∈ rest.head?, isOctal c = false := h.head rfl rfl rfl
  obtain ⟨c, tail, rfl, -⟩ := h.exists_cons
  have hc : isOctal c = false := hoctal c rfl
  match text with
  | [] => simp [hc]
  | [first] => simp [hc, List.takeWhile_cons]
  | first :: second :: text => simp

theorem length_takeWhile_isOctal_le (text : Text) :
    ((text.take 2).takeWhile isOctal).length ≤ text.length := by
  have hshort := (List.takeWhile_prefix (l := text.take 2) isOctal).length_le
  rw [List.length_take] at hshort
  omega

theorem readOctal_width (digits : Text) : (readOctal digits).2 = digits.length + 1 := by
  unfold readOctal
  split <;> rfl

/-! ## Members of sets -/

theorem readMemberEscape_append (h : BreaksOff rest) {letter : Char} {member : SetMember}
    {width : Nat} (hread : readMemberEscape letter text = (.ok member, width)) :
    readMemberEscape letter (text ++ rest) = (.ok member, width) ∧ 0 < width ∧
      width ≤ text.length + 2 := by
  unfold readMemberEscape at hread ⊢
  split at hread
  · cases hread
    exact ⟨rfl, by omega, by omega⟩
  · dsimp only at hread ⊢
    split at hread
    · cases hread
      rw [if_pos ‹_›]
      exact ⟨rfl, by omega, by omega⟩
    · rw [if_neg ‹_›]
      split at hread
      · rw [if_pos ‹_›, takeWhile_isOctal_append h]
        have hlength := length_takeWhile_isOctal_le text
        have hwidth := readOctal_width (letter :: (text.take 2).takeWhile isOctal)
        rw [List.length_cons] at hwidth
        have htaken := congrArg Prod.snd hread
        dsimp only at htaken
        exact ⟨hread, by omega, by omega⟩
      · rw [if_neg ‹_›]
        match hchar : readChar letter text with
        | (.ok c, width') =>
          rw [hchar] at hread
          cases hread
          obtain ⟨hsame, hpos, hwidth⟩ := readChar_append rest hchar
          rw [hsame]
          exact ⟨rfl, hpos, hwidth⟩
        | (.error wrong, width') =>
          rw [hchar] at hread
          cases hread

/-- A member without a fault takes something, and does not reach behind the text. -/
theorem readMember_append (h : BreaksOff rest) {member : SetMember} {width : Nat}
    (hread : readMember text = (.ok member, width)) :
    readMember (text ++ rest) = (.ok member, width) ∧ 0 < width ∧ width ≤ text.length := by
  unfold readMember at hread
  split at hread
  · cases hread
  · cases hread
  · rename_i letter tail
    obtain ⟨hsame, hpos, hwidth⟩ := readMemberEscape_append h hread
    exact ⟨hsame, hpos, by simpa using hwidth⟩
  · rename_i c tail hlone hescape
    cases hread
    refine ⟨?_, by simp, by simp⟩
    have hc : c ≠ '\\' := by
      rintro rfl
      cases tail with
      | nil => exact hlone rfl rfl
      | cons letter tail => exact hescape letter tail rfl rfl
    simp [readMember, hc]

/-! ## Sets -/

/-- A bracket that closes a set. -/
theorem readMembers_closed (bound offset : Nat) {members : List SetMember} (hmembers : members ≠ [])
    (text : Text) :
    readMembers (bound + 1) offset members (']' :: text) = (.ok members, offset + 1) := by
  simp [readMembers, hmembers]

/-- A set is not closed here. -/
def IsOpen (members : List SetMember) (text : Text) : Prop :=
  text ≠ [] ∧ text ≠ ['\\'] ∧ (text.head? == some ']' && !members.isEmpty) = false

theorem IsOpen.append (members : List SetMember) {text : Text} (h : IsOpen members text) (rest : Text) :
    IsOpen members (text ++ rest) := by
  obtain ⟨hne, hslash, hclosed⟩ := h
  obtain ⟨c, tail, rfl⟩ := List.exists_cons_of_ne_nil hne
  refine ⟨by simp, ?_, by simpa using hclosed⟩
  intro hlone
  rw [List.cons_append, List.cons.injEq, List.append_eq_nil_iff] at hlone
  obtain ⟨rfl, rfl, -⟩ := hlone
  exact hslash rfl

variable {member : SetMember} {members : List SetMember} {width : Nat} {tail : Text}

/-- A hyphen in front of the closing bracket stands for itself. -/
theorem readMembers_hyphen (bound offset : Nat) (hopen : IsOpen members text)
    (hread : readMember text = (.ok member, width)) (hdrop : text.drop width = '-' :: ']' :: tail) :
    readMembers (bound + 1) offset members text =
      (.ok (members ++ [member, .single '-'.toNat]), offset + width + 2) := by
  obtain ⟨hne, hslash, hclosed⟩ := hopen
  rw [readMembers, hclosed, if_neg (by nofun), hread]
  · simp [hdrop]
  · exact hne
  · exact hslash

/-- A member that is no start of a range. -/
theorem readMembers_member (bound offset : Nat) (hopen : IsOpen members text)
    (hread : readMember text = (.ok member, width)) (hdrop : (text.drop width).head? ≠ some '-') :
    readMembers (bound + 1) offset members text =
      readMembers bound (offset + width) (members ++ [member]) (text.drop width) := by
  obtain ⟨hne, hslash, hclosed⟩ := hopen
  rw [readMembers, hclosed, if_neg (by nofun), hread]
  · dsimp only
    split <;> simp_all
  · exact hne
  · exact hslash

/-- A range, behind whose hyphen there is a member. -/
theorem readMembers_range (bound offset : Nat) {last range : SetMember} {lastWidth : Nat}
    (hopen : IsOpen members text)
    (hread : readMember text = (.ok member, width)) (hdrop : text.drop width = '-' :: tail)
    (hbehind : IsOpen [member] tail) (hlast : readMember tail = (.ok last, lastWidth))
    (hrange : rangeOf? member last = some range) :
    readMembers (bound + 1) offset members text =
      readMembers bound (offset + width + 1 + lastWidth) (members ++ [range])
        (tail.drop lastWidth) := by
  obtain ⟨hne, hslash, hclosed⟩ := hopen
  obtain ⟨hne', hslash', hclosed'⟩ := hbehind
  rw [readMembers, hclosed, if_neg (by nofun), hread]
  · dsimp only
    rw [hdrop]
    split <;> simp_all
  · exact hne
  · exact hslash

/-- A set that starts with a member goes on unless it is closed or breaks off. -/
theorem IsOpen.of_ne (member : SetMember) (hne : text ≠ []) (hslash : text ≠ ['\\'])
    (hbracket : ∀ tail, text ≠ ']' :: tail) : IsOpen [member] text := by
  refine ⟨hne, hslash, ?_⟩
  obtain ⟨c, tail, rfl⟩ := List.exists_cons_of_ne_nil hne
  have hc : c ≠ ']' := by
    rintro rfl
    exact hbracket tail rfl
  simp [hc]

/-- What is read of a set is closed here, or goes on. -/
theorem closed_or_isOpen_of_readMembers {bound offset finish : Nat} {found : List SetMember}
    (h : readMembers (bound + 1) offset members text = (.ok found, finish)) :
    (∃ tail, text = ']' :: tail ∧ members ≠ [] ∧ found = members ∧ finish = offset + 1) ∨
      IsOpen members text := by
  by_cases hne : text = []
  · subst hne
    cases h
  by_cases hslash : text = ['\\']
  · subst hslash
    cases h
  cases hclosed : text.head? == some ']' && !members.isEmpty with
  | false => exact .inr ⟨hne, hslash, hclosed⟩
  | true =>
    simp only [Bool.and_eq_true, beq_iff_eq, Bool.not_eq_true', List.isEmpty_eq_false_iff] at hclosed
    obtain ⟨hhead, hmembers⟩ := hclosed
    obtain ⟨c, tail, rfl⟩ := List.exists_cons_of_ne_nil hne
    cases hhead
    rw [readMembers_closed _ _ hmembers] at h
    cases h
    exact .inl ⟨tail, rfl, hmembers, rfl, rfl⟩

/-- The ways in which a set goes on that is closed further behind. -/
theorem readMembers_cases {bound offset finish : Nat} {found : List SetMember}
    (hopen : IsOpen members text)
    (h : readMembers (bound + 1) offset members text = (.ok found, finish)) :
    ∃ member width, readMember text = (.ok member, width) ∧
      ((∃ tail, text.drop width = '-' :: ']' :: tail ∧
          found = members ++ [member, .single '-'.toNat] ∧ finish = offset + width + 2) ∨
        (∃ tail last lastWidth range, text.drop width = '-' :: tail ∧ IsOpen [member] tail ∧
          readMember tail = (.ok last, lastWidth) ∧ rangeOf? member last = some range ∧
          readMembers bound (offset + width + 1 + lastWidth) (members ++ [range])
            (tail.drop lastWidth) = (.ok found, finish)) ∨
        ((text.drop width).head? ≠ some '-' ∧
          readMembers bound (offset + width) (members ++ [member]) (text.drop width) =
            (.ok found, finish))) := by
  obtain ⟨hne, hslash, hclosed⟩ := hopen
  match hread : readMember text with
  | (.error wrong, width) =>
    rw [readMembers, hclosed, if_neg (by nofun), hread] at h
    · cases h
    · exact hne
    · exact hslash
  | (.ok member, width) =>
    refine ⟨member, width, rfl, ?_⟩
    rw [readMembers, hclosed, if_neg (by nofun), hread] at h
    · dsimp only at h
      split at h
      · cases h
      · cases h
      · cases h
        exact .inl ⟨_, ‹_›, rfl, rfl⟩
      · rename_i tail hlone hlast hbracket hdrop
        have hbehind : IsOpen [member] tail :=
          .of_ne member (fun heq => hlone (by rw [heq])) (fun heq => hlast (by rw [heq]))
            fun _ heq => hbracket _ (by rw [heq])
        split at h
        · cases h
        · rename_i last lastWidth hreadLast
          split at h
          · rename_i range hrange
            exact .inr (.inl ⟨tail, last, lastWidth, range, hdrop, hbehind, hreadLast, hrange, h⟩)
          · cases h
      · rename_i hhyphen
        refine .inr (.inr ⟨?_, h⟩)
        intro hhead
        obtain ⟨tail, htail⟩ := List.head?_eq_some_iff.1 hhead
        exact hhyphen tail htail
    · exact hne
    · exact hslash

/-- A set that is closed is read in the same way in front of a text that breaks off, with any bound that is
not lower. -/
theorem readMembers_append (h : BreaksOff rest) {bound offset finish : Nat}
    {members found : List SetMember} {text : Text}
    (hread : readMembers bound offset members text = (.ok found, finish)) :
    finish ≤ offset + text.length ∧ ∀ other, bound ≤ other →
      readMembers other offset members (text ++ rest) = (.ok found, finish) := by
  induction bound generalizing offset members text with
  | zero => cases hread
  | succ bound ih =>
    rcases closed_or_isOpen_of_readMembers hread with ⟨tail, rfl, hmembers, rfl, rfl⟩ | hopen
    · refine ⟨by simp, ?_⟩
      intro other hbound
      obtain ⟨further, rfl⟩ : ∃ further, other = further + 1 := ⟨other - 1, by omega⟩
      exact readMembers_closed _ _ hmembers _
    · obtain ⟨member, width, hmember, hcases⟩ := readMembers_cases hopen hread
      obtain ⟨hsame, -, hwidth⟩ := readMember_append h hmember
      have hdropped : (text ++ rest).drop width = text.drop width ++ rest :=
        List.drop_append_of_le_length hwidth
      have hlength : (text.drop width).length = text.length - width := List.length_drop
      rcases hcases with ⟨tail, hdrop, rfl, rfl⟩ |
        ⟨tail, last, lastWidth, range, hdrop, hbehind, hlast, hrange, hmore⟩ | ⟨hhyphen, hmore⟩
      · rw [hdrop, List.length_cons, List.length_cons] at hlength
        refine ⟨by omega, ?_⟩
        intro other hbound
        obtain ⟨further, rfl⟩ : ∃ further, other = further + 1 := ⟨other - 1, by omega⟩
        rw [hdrop] at hdropped
        exact readMembers_hyphen _ _ (hopen.append _ _) hsame hdropped
      · obtain ⟨hsameLast, -, hwidthLast⟩ := readMember_append h hlast
        obtain ⟨hfinish, hall⟩ := ih hmore
        rw [hdrop, List.length_cons] at hlength
        rw [List.length_drop] at hfinish
        refine ⟨by omega, ?_⟩
        intro other hbound
        obtain ⟨lower, rfl⟩ : ∃ lower, other = lower + 1 := ⟨other - 1, by omega⟩
        rw [hdrop, List.cons_append] at hdropped
        rw [readMembers_range _ _ (hopen.append _ _) hsame hdropped (hbehind.append _ _) hsameLast
          hrange, List.drop_append_of_le_length hwidthLast]
        exact hall _ (by omega)
      · obtain ⟨hfinish, hall⟩ := ih hmore
        refine ⟨by omega, ?_⟩
        intro other hbound
        obtain ⟨lower, rfl⟩ : ∃ lower, other = lower + 1 := ⟨other - 1, by omega⟩
        have hhead : ((text ++ rest).drop width).head? ≠ some '-' := by
          rw [hdropped]
          exact h.head?_append_ne (by decide) (by decide) (by decide) hhyphen
        rw [readMembers_member _ _ (hopen.append _ _) hsame hhead, hdropped]
        exact hall _ (by omega)

/-- A set is read in the same way in front of a text that breaks off. -/
theorem readSet_append (h : BreaksOff rest) {set : Pattern} (hread : readSet text = (.ok set, width)) :
    readSet (text ++ rest) = (.ok set, width) ∧ width ≤ text.length + 1 := by
  -- the set without the sign that complements it
  have hbody (start : Nat) (complement : Bool) (body : Text)
      (hbody : ((readMembers (body.length + 1) start [] body).1.map (setOf complement),
        (readMembers (body.length + 1) start [] body).2) = (.ok set, width)) :
      ((readMembers ((body ++ rest).length + 1) start [] (body ++ rest)).1.map (setOf complement),
        (readMembers ((body ++ rest).length + 1) start [] (body ++ rest)).2) = (.ok set, width) ∧
        width ≤ start + body.length := by
    match hmembers : readMembers (body.length + 1) start [] body with
    | (.error wrong, finish) =>
      rw [hmembers] at hbody
      cases hbody
    | (.ok members, finish) =>
      obtain ⟨hfinish, hall⟩ := readMembers_append h hmembers
      rw [hmembers] at hbody
      cases hbody
      rw [hall _ (by simp)]
      exact ⟨rfl, hfinish⟩
  unfold readSet at hread ⊢
  by_cases hcaret : text.head? = some '^'
  · obtain ⟨body, rfl⟩ := List.head?_eq_some_iff.1 hcaret
    obtain ⟨hsame, hwidth⟩ := hbody 2 true body hread
    exact ⟨hsame, by rw [List.length_cons]; omega⟩
  · have hother : (text ++ rest).head? ≠ some '^' :=
      h.head?_append_ne (by decide) (by decide) (by decide) hcaret
    have hfalse : (text.head? == some '^') = false := by simpa using hcaret
    have hfalse' : ((text ++ rest).head? == some '^') = false := by simpa using hother
    rw [hfalse] at hread
    rw [hfalse']
    obtain ⟨hsame, hwidth⟩ := hbody 1 false text hread
    exact ⟨hsame, by omega⟩

end BuildLog.Pattern
