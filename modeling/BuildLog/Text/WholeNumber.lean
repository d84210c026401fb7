import BuildLog.Text.Blank
import BuildLog.Text.Digit

/-!
# Whole numbers

* `Text.digitLimit`: whole numbers with more digits are neither read nor written;
* `Text.readInt?`: the whole number that a text stands for, with digits of any script.
-/

namespace BuildLog.Text

/-- The greatest number of digits of a whole number that is read or written. -/
def digitLimit : Nat := 4300

/-- What is said about a whole number with too many digits; where it is read, they are counted. -/
def longNumberMessage (digits : Option Nat) : Text :=
  let counted :=
    match digits with
    | some digits => ": value has ".toList ++ ofNat digits ++ " digits".toList
    | none => []
  "Exceeds the limit (".toList ++ ofNat digitLimit ++
    " digits) for integer string conversion".toList ++ counted ++
    "; use sys.set_int_max_str_digits() to increase the limit".toList

/-- Digits of any script as a number; single underscores may stand between them. -/
def readDigits? : Option Nat → Text → Option Nat
  | value, [] => value
  | some value, '_' :: c :: rest => do
    let digit ← digitValue? c
    readDigits? (some (value * 10 + digit)) rest
  | value, c :: rest => do
    let digit ← digitValue? c
    readDigits? (some (value.getD 0 * 10 + digit)) rest

/-- Digits as a number, unless there are too many of them. -/
def readNat? (digits : Text) : Option Nat :=
  if digitLimit < digits.countP isDigit then none else readDigits? none digits

/-- A whole number with white space around it and a sign or none. -/
def readInt? (text : Text) : Option Int :=
  match trim text with
  | '-' :: digits => (readNat? digits).map fun value => -(value : Int)
  | '+' :: digits => (readNat? digits).map fun value => (value : Int)
  | digits => (readNat? digits).map fun value => (value : Int)

end BuildLog.Text
