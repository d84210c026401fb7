import BuildLog.Text.Blank

/-!
# Tokens

Arguments are cut into tokens at blanks. A token may hold groups in double or single quotes; blanks
inside a group belong to the token, and the quotes are no part of its value.

* `Token.read`: the first token of a text, as written and as meant;
* `Token.list`: all tokens of a text;
* `Token.quoteIfNeeded`: a value as a token of its own.

Inside a group nothing is special but the closing quote. Outside, `\"` stands for a double quote. A
group that is never closed extends to the end of the text.
-/

namespace BuildLog

/-- A token: the text that was written and the value it stands for. -/
structure Token where
  raw : Text
  value : Text
  deriving DecidableEq

namespace Token

/-! ## Reading one token -/

/-- The token that stands before a text without blanks and quotes: nothing at all. -/
def empty : Token := ⟨[], []⟩

/-- Puts a character that stands for itself in front. -/
def plain (c : Char) (rest : Token) : Token :=
  ⟨c :: rest.raw, c :: rest.value⟩

/-- Puts a character in front that is written but not meant. -/
def silent (c : Char) (rest : Token) : Token :=
  ⟨c :: rest.raw, rest.value⟩

/-- The number of characters that a token takes. -/
def width (token : Token) : Nat :=
  token.raw.length

/-- Whether a character opens a quoted group. -/
def isQuote (c : Char) : Bool :=
  c == '"' || c == '\''

/-- The token at the start of a text, read inside the given quote or outside of all. -/
def readWithin : Option Char → Text → Token
  | _, [] => empty
  | some quote, c :: rest =>
    if c == quote then silent c (readWithin none rest)
    else plain c (readWithin (some quote) rest)
  | none, '\\' :: '"' :: rest => silent '\\' (plain '"' (readWithin none rest))
  | none, c :: rest =>
    if isQuote c then silent c (readWithin (some c) rest)
    else if Text.isBlank c then empty
    else plain c (readWithin none rest)

/-- The token at the start of a text; it is empty in front of a blank. -/
def read (text : Text) : Token :=
  readWithin none text

/-! ## Reading all tokens -/

/-- The tokens that start behind the first `skip` characters of a text. -/
def listFrom : Nat → Text → List Token
  | _, [] => []
  | skip + 1, _ :: rest => listFrom skip rest
  | 0, c :: rest =>
    if Text.isBlank c then listFrom 0 rest
    else
      let token := read (c :: rest)
      token :: listFrom (token.width - 1) rest

/-- All tokens of a text. -/
def list (text : Text) : List Token :=
  listFrom 0 text

/-- The values of all tokens of a text. -/
def values (text : Text) : List Text :=
  (list text).map value

/-! ## Writing a token -/

/-- A value as a token: in double quotes if it holds a blank. -/
def quoteIfNeeded (text : Text) : Text :=
  if text.any Text.isBlank then '"' :: text ++ ['"'] else text

/-- Values as one line of tokens, with a space between each two. -/
def line (texts : List Text) : Text :=
  Text.joined [' '] (texts.map quoteIfNeeded)

/-! ## Basic facts -/

theorem width_pos {c : Char} {rest : Text} (h : Text.isBlank c = false) :
    0 < (read (c :: rest)).width := by
  unfold read width
  unfold readWithin
  split <;> simp_all [silent, plain]
  split <;> simp

/-- A token is written at the start of the text that it is read from. -/
theorem raw_append_drop (quote : Option Char) (text : Text) :
    (readWithin quote text).raw ++ text.drop (readWithin quote text).width = text := by
  unfold width
  fun_induction readWithin quote text <;> simp_all [silent, plain, empty]

theorem width_read_le (text : Text) : (read text).width ≤ text.length := by
  have h := congrArg List.length (raw_append_drop none text)
  simp only [List.length_append] at h
  have : (read text).width = (readWithin none text).raw.length := rfl
  omega

end Token
end BuildLog
