import BuildLog.Token

/-!
# Invocations

A command line is a command, up to the first blank or in one pair of double quotes, and the arguments
behind it, which are left as they are.

* `Invocation.ofLine?`: the two parts of a line. There is none if the line is blank, or if it starts
  with a quote that is not closed, closes at once, or has something other than a blank behind it.
-/

namespace BuildLog

/-- A command and the text of its arguments. -/
structure Invocation where
  command : Text
  arguments : Text
  deriving DecidableEq

namespace Invocation

/-- The invocation behind an opening quote. -/
def ofQuoted? (text : Text) : Option Invocation :=
  let command := text.takeWhile (· != '"')
  match text.dropWhile (· != '"') with
  | [] => none
  | _ :: arguments =>
    if command.isEmpty || !Text.startsBlank arguments then none else some ⟨command, arguments⟩

/-- The command of a line and its arguments. -/
def ofLine? (line : Text) : Option Invocation :=
  match Text.trimStart line with
  | [] => none
  | '"' :: text => ofQuoted? text
  | text => some ⟨text.takeWhile (!Text.isBlank ·), text.dropWhile (!Text.isBlank ·)⟩

end Invocation
end BuildLog
