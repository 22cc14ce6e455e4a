import Ebnf.Fault
import Ebnf.Text.Quoted
import Ebnf.Text.Utf8
import Ebnf.Reading.Engine

/-!
# A cursor over a text

The place in a text up to which it has been read. Fixed texts and patterns are read at the cursor,
after what may be passed over. Offsets count bytes and have 32 bits: moving the cursor to a place
that has no offset is a fault. A cursor may be put anywhere else, but reading where no character
starts is a fault too.

* `Source`: a text, and what may be passed over in it;
* `Source.literal`, `Source.pattern`: read a token, or note what was expected;
* `Source.skip`: passes over what may be passed over;
* `Cursor.fail`: only failures at the farthest offset so far are remembered, each once, in the
  order in which they came up.
-/

namespace Ebnf

/-! ## 1. Cursors -/

/-- A place in a text, with the failures at the farthest place so far. -/
structure Cursor where
  /-- How many bytes come before the cursor. -/
  offset : Nat := 0
  /-- The farthest offset at which something failed, or zero. -/
  farthest : Nat := 0
  /-- What was expected at the farthest offset. -/
  expected : List String := []
deriving DecidableEq, Repr

/-- A step of reading. A fault keeps the cursor where it was. -/
abbrev Scan (α : Type) := EStateM Fault Cursor α

namespace Cursor

/-- The cursor at another offset. -/
def moveTo (c : Cursor) (offset : Nat) : Cursor :=
  { c with offset }

/-- The cursor after a failure at its offset. -/
def noteFailure (c : Cursor) (what : String) : Cursor :=
  if c.farthest < c.offset then { c with farthest := c.offset, expected := [what] }
  else if c.offset = c.farthest ∧ what ∉ c.expected then
    { c with expected := c.expected ++ [what] }
  else c

/-- Puts the cursor at an offset. -/
def rewind (offset : Nat) : Scan Unit :=
  modify fun c => c.moveTo offset

/-- Moves the cursor behind a text of the given form, if that place has an offset. -/
def advance (cs : List Char) : Scan Unit := do
  let c ← get
  let offset := c.offset + Text.byteLength cs
  if offset < UInt32.size then set (c.moveTo offset) else throw (.tooManyBytes offset)

/-- Notes that something was expected at the cursor. -/
def fail (what : String) : Scan Unit :=
  modify fun c => c.noteFailure what

end Cursor

/-! ## 2. Reading at the cursor -/

/-- A text to be read, and what may be passed over in it. -/
structure Source where
  /-- The text. -/
  text : List Char
  /-- Finds what may be passed over before every token. -/
  ignore : Option Matcher := none
  /-- The number of bytes of the text. -/
  size : Nat := Text.byteLength text
  /-- The size is that of the text. -/
  size_eq : size = Text.byteLength text := by rfl

namespace Source

/-- The text after the cursor. -/
def rest (src : Source) : Scan (List Char) := do
  let c ← get
  match Text.dropBytes c.offset src.text with
  | some cs => return cs
  | none => throw (.noBoundary c.offset)

/-- Passes over what may be passed over: as many bytes as the first place has at which it is found
    in the rest of the text. -/
def skip (src : Source) : Scan Unit := do
  match src.ignore with
  | none => return
  | some find =>
    match find (← src.rest) with
    | some found => Cursor.advance found.text
    | none => return

/-- Whether nothing is left but what may be passed over. -/
def atEnd (src : Source) : Scan Bool := do
  src.skip
  return (← src.rest).isEmpty

/-- Reads a fixed text. -/
def literal (src : Source) (text : String) : Scan (Option (List Char)) := do
  src.skip
  if text.toList.isPrefixOf (← src.rest) then
    Cursor.advance text.toList
    return some text.toList
  else
    Cursor.fail (Text.quote text)
    return none

/-- Reads what a pattern finds at the cursor. `shown` is how the pattern is spoken of. -/
def pattern (src : Source) (find : Matcher) (shown : String) : Scan (Option (List Char)) := do
  src.skip
  match find (← src.rest) with
  | some ⟨0, found⟩ =>
    Cursor.advance found
    return some found
  | _ =>
    Cursor.fail ("/" ++ shown ++ "/")
    return none

end Source

end Ebnf
