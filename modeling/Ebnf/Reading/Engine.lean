/-!
# Searching with patterns

Reading relies on someone who understands patterns. All that is asked is that a pattern, once
understood, finds its place in a text by that text alone.

* `Match`: where a pattern was found, and what;
* `Engine`: how patterns are understood.
-/

namespace Ebnf

/-- A place where a pattern was found. -/
structure Match where
  /-- How many characters come before. -/
  start : Nat
  /-- The text that was found. -/
  text : List Char
deriving DecidableEq, Repr

/-- Finds the first place of a pattern in a text. -/
abbrev Matcher := List Char → Option Match

/-- Understands patterns: makes a matcher of a pattern, or says what is wrong with it. -/
structure Engine where
  /-- The matcher of a pattern, or what is wrong with the pattern. -/
  compile : String → Except String Matcher

/-- The matcher of a pattern that is only looked for at the start. The pattern is put between
    brackets as it is, so brackets of its own may reach beyond them. -/
def Engine.anchored (engine : Engine) (pattern : String) : Except String Matcher :=
  engine.compile ("\\A(?:" ++ pattern ++ ")")

end Ebnf
