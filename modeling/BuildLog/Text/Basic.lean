/-!
# Text

Command lines, paths and file contents are lists of code points, so every length, offset and count
in this library counts code points.

* `Text`: the type of all text;
* `Codes`: rows of code points among which halves of surrogate pairs may stand;
* `Text.ofNat`, `Text.ofInt`: numbers in decimal;
* `Text.joined`: parts with a separator between them;
* `Text.takeWhile_append_of_stop`, `Text.dropWhile_append_of_stop`: a text is cut where a class of
  characters ends.
-/

namespace BuildLog

/-- A text is the list of its code points. -/
abbrev Text := List Char

namespace Text

/-- A number in decimal, without leading zeros. -/
def ofNat (n : Nat) : Text :=
  Nat.toDigits 10 n

/-- A number in decimal, with a minus sign if it is negative. -/
def ofInt (n : Int) : Text :=
  if n < 0 then '-' :: ofNat n.natAbs else ofNat n.natAbs

/-- The parts in order, with the separator between each two of them. -/
def joined (separator : Text) (parts : List Text) : Text :=
  List.intercalate separator parts

/-! ## Code points -/

/-- The code points of a text. -/
def codes (text : Text) : List Nat :=
  text.map Char.toNat

end Text

/-- A row of code points. Other than a text, it may hold halves of surrogate pairs, which are no
characters. -/
abbrev Codes := List Nat

namespace Codes

/-- The character with a code point; half of a surrogate pair is replaced. -/
def charOf (code : Nat) : Char :=
  if code.isValidChar then Char.ofNat code else '\ufffd'

/-- The characters of a row of code points. -/
def text (codes : Codes) : Text :=
  codes.map charOf

/-- Whether a row of code points is that of a text. -/
def isWhole (codes : Codes) : Bool :=
  codes.all fun code => code.isValidChar

@[simp] theorem text_codes (text : Text) : Codes.text text.codes = text := by
  have hchar (c : Char) : charOf c.toNat = c := by
    have hvalid : c.toNat.isValidChar := c.valid
    rw [charOf, if_pos hvalid, Char.ofNat_toNat]
  simp [Text.codes, Codes.text, Function.comp_def, hchar]

@[simp] theorem isWhole_codes (text : Text) : isWhole text.codes = true := by
  simp only [isWhole, Text.codes, List.all_map, List.all_eq_true, Function.comp_apply, decide_eq_true_eq]
  exact fun c _ => c.valid

end Codes

namespace Text

theorem codes_injective : Function.Injective codes :=
  Function.LeftInverse.injective Codes.text_codes

/-! ## Cuts -/

variable {p : Char → Bool} {front rest : Text}

theorem takeWhile_append_of_stop (hfront : ∀ c ∈ front, p c = true)
    (hstop : ∀ c ∈ rest.head?, p c = false) : (front ++ rest).takeWhile p = front := by
  rw [List.takeWhile_append_of_pos hfront]
  cases rest with
  | nil => simp
  | cons c rest => simp [hstop c rfl]

theorem dropWhile_append_of_stop (hfront : ∀ c ∈ front, p c = true)
    (hstop : ∀ c ∈ rest.head?, p c = false) : (front ++ rest).dropWhile p = rest := by
  rw [List.dropWhile_append_of_pos hfront]
  cases rest with
  | nil => rfl
  | cons c rest => simp [hstop c rfl]

end Text
end BuildLog
