import BuildLog.Text.Basic

/-!
# Spans of code points

A character class is a list of spans, each given by its first and its last code point.
-/

namespace BuildLog.Text

/-- A span of code points, both ends included. -/
abbrev Span := Nat × Nat

namespace Span

/-- Whether a span holds a character. -/
def holds (span : Span) (c : Char) : Bool :=
  span.1 ≤ c.toNat && c.toNat ≤ span.2

/-- Whether one of the spans holds a character. -/
def covers (spans : List Span) (c : Char) : Bool :=
  spans.any (·.holds c)

/-- The first span that holds a character. -/
def find? (spans : List Span) (c : Char) : Option Span :=
  List.find? (·.holds c) spans

end Span
end BuildLog.Text
