import Ebnf.Regex.Property

/-!
# Conditions on a place in a text

What may be asked of a place, and when it holds. A place is known by the character before it and
the one after it.
-/

namespace Ebnf.Regex

/-- What may be asked of the words around a place. -/
inductive WordLook where
  /-- One side belongs to a word and the other does not. -/
  | boundary
  /-- Both sides belong to words, or neither does. -/
  | noBoundary
  /-- A word starts here. -/
  | start
  /-- A word ends here. -/
  | stop
  /-- No word lies before. -/
  | startHalf
  /-- No word lies behind. -/
  | stopHalf
deriving DecidableEq, Repr

/-- Whether a condition holds where `before` and `after` say whether a word lies there. -/
def WordLook.holds (l : WordLook) (before after : Bool) : Bool :=
  match l with
  | boundary => before != after
  | noBoundary => before == after
  | start => !before && after
  | stop => before && !after
  | startHalf => !before
  | stopHalf => !after

/-- What may be asked of a place. -/
inductive Look where
  /-- The text starts here. -/
  | textStart
  /-- The text ends here. -/
  | textEnd
  /-- A line starts here. `crlf` says whether a carriage return breaks lines too. -/
  | lineStart (crlf : Bool)
  /-- A line ends here. -/
  | lineEnd (crlf : Bool)
  /-- Something about words. `ascii` says whether only the first 128 characters make words. -/
  | word (look : WordLook) (ascii : Bool)
deriving DecidableEq, Repr

/-- Whether a condition holds between two characters; `none` stands for an end of the text. A
    carriage return and the line feed after it are one line break. -/
def Look.holds (l : Look) (before after : Option Char) : Bool :=
  match l with
  | textStart => before.isNone
  | textEnd => after.isNone
  | lineStart false => before.isNone || before == some '\n'
  | lineStart true =>
    before.isNone || before == some '\n' || (before == some '\r' && after != some '\n')
  | lineEnd false => after.isNone || after == some '\n'
  | lineEnd true =>
    after.isNone || after == some '\r' || (after == some '\n' && before != some '\r')
  | word look ascii =>
    let isWord := if ascii then isAsciiWordChar else isWordChar
    look.holds (before.any isWord) (after.any isWord)

end Ebnf.Regex
