import BuildLog.Text.Span

/-!
# Blanks

Tokens of a command line are separated by blanks, in any script.

* `Text.isBlank c`: whether `c` separates tokens;
* `Text.trimStart`, `Text.leadingBlanks`: a text without its leading blanks, and their number;
* `Text.isSpace c`: the blanks proper, without the four separator controls. Stored values are trimmed
  of these at both ends (`Text.trim`).
-/

namespace BuildLog.Text

/-! ## The classes -/

/-- The blanks of all scripts, with the control characters that count as such. -/
def blankSpans : List Span :=
  [(0x09, 0x0D), (0x1C, 0x20), (0x85, 0x85), (0xA0, 0xA0), (0x1680, 0x1680), (0x2000, 0x200A),
   (0x2028, 0x2029), (0x202F, 0x202F), (0x205F, 0x205F), (0x3000, 0x3000)]

/-- Whether a character is a blank. -/
def isBlank (c : Char) : Bool :=
  Span.covers blankSpans c

/-- Whether a character is white space in the narrow sense: a blank, but none of the four controls
that separate files, groups, records and units. -/
def isSpace (c : Char) : Bool :=
  isBlank c && !Span.holds (0x1C, 0x1F) c

/-- Whether a text holds nothing but blanks. -/
def isAllBlank (text : Text) : Bool :=
  text.all isBlank

/-- Whether a text is empty or starts with a blank. -/
def startsBlank : Text → Bool
  | [] => true
  | c :: _ => isBlank c

/-! ## Trimming -/

/-- A text without its leading blanks. -/
def trimStart (text : Text) : Text :=
  text.dropWhile isBlank

/-- The number of leading blanks. -/
def leadingBlanks (text : Text) : Nat :=
  (text.takeWhile isBlank).length

/-- A text without white space at either end. -/
def trim (text : Text) : Text :=
  ((text.dropWhile isSpace).reverse.dropWhile isSpace).reverse

/-! ## Basic facts -/

theorem takeWhile_append_trimStart (text : Text) :
    text.takeWhile isBlank ++ trimStart text = text :=
  List.takeWhile_append_dropWhile

theorem leadingBlanks_add_length_trimStart (text : Text) :
    leadingBlanks text + (trimStart text).length = text.length := by
  rw [leadingBlanks, ← List.length_append, takeWhile_append_trimStart]

theorem length_trimStart_le (text : Text) : (trimStart text).length ≤ text.length := by
  have := leadingBlanks_add_length_trimStart text
  omega

theorem drop_leadingBlanks (text : Text) : text.drop (leadingBlanks text) = trimStart text := by
  have h := takeWhile_append_trimStart text
  calc text.drop (leadingBlanks text)
      = (text.takeWhile isBlank ++ trimStart text).drop (leadingBlanks text) := by rw [h]
    _ = trimStart text := List.drop_left

theorem startsBlank_iff {text : Text} :
    startsBlank text = true ↔ ∀ c ∈ text.head?, isBlank c = true := by
  cases text <;> simp [startsBlank]

theorem not_isBlank_of_mem_head? {text : Text} (h : startsBlank text = false) :
    ∀ c ∈ text.head?, isBlank c = false := by
  cases text with
  | nil => nofun
  | cons c text => simpa [startsBlank] using h

/-- What follows the first word of a text. -/
theorem startsBlank_dropWhile (text : Text) : startsBlank (text.dropWhile (!isBlank ·)) = true := by
  induction text with
  | nil => rfl
  | cons c text ih =>
    cases hc : isBlank c with
    | false => simpa [hc] using ih
    | true => simp [hc, startsBlank]

end BuildLog.Text
