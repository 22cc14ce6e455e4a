import Ebnf.Regex.Error
import Ebnf.Unicode.Character

/-!
# Reading the text of a regular expression

The steps that the parsers of regular expressions are made of. With the flag `x`, blanks and
comments between the parts are passed over (`Input.skipBlanks`).
-/

namespace Ebnf.Regex

/-- Where the reading of a regular expression stands. -/
structure Input where
  /-- What is left to be read. -/
  rest : List Char
  /-- Whether blanks and comments are passed over. -/
  verbose : Bool := false
  /-- The names given to groups so far. -/
  groupNames : List (List Char) := []
deriving DecidableEq, Repr

/-- A step in reading a regular expression. -/
abbrev Parse (α : Type) := StateT Input (Except PatternError) α

namespace Input

/-- The text without the blanks and comments at its start. A comment begins with `#` and ends with
    the line. `comment` says whether one is being read. -/
def dropBlanks (comment : Bool) : List Char → List Char
  | [] => []
  | c :: cs =>
    if comment then dropBlanks (c ≠ '\n') cs
    else if Unicode.isBlank c then dropBlanks false cs
    else if c = '#' then dropBlanks true cs
    else c :: cs

/-- Passes over blanks and comments, if that is wanted. -/
def skipBlanks : Parse Unit :=
  modify fun i => if i.verbose then { i with rest := dropBlanks false i.rest } else i

/-- The next character. -/
def peek? : Parse (Option Char) :=
  return (← get).rest.head?

/-- Whether nothing is left. -/
def atEnd : Parse Bool :=
  return (← get).rest.isEmpty

/-- The next character; the text must not end here. -/
def peek (e : PatternError) : Parse Char := do
  match ← peek? with
  | some c => return c
  | none => throw e

/-- Passes over one character. -/
def bump : Parse Unit :=
  modify fun i => { i with rest := i.rest.drop 1 }

/-- Passes over one character and the blanks after it. -/
def next : Parse Unit := do
  bump
  skipBlanks

/-- Passes over one character and the blanks after it; the text must not end there. -/
def nextOr (e : PatternError) : Parse Unit := do
  next
  if ← atEnd then throw e

/-- Passes over a given text if it comes next, and says whether it did. -/
def accept (text : String) : Parse Bool := do
  match text.toList.isPrefixOf? (← get).rest with
  | some rest =>
    modify fun i => { i with rest }
    return true
  | none => return false

/-- The first character behind the next one that is no blank; the sign of one comment is passed
    over with the blanks. -/
def peekBehind? : Parse (Option Char) := do
  let i ← get
  let behind := i.rest.drop 1
  if i.verbose then
    let found := match behind.dropWhile Unicode.isBlank with
      | '#' :: cs => cs.dropWhile Unicode.isBlank
      | cs => cs
    return (found.head?).or behind.head?
  else return behind.head?

/-- Reads characters with a property, passing over blanks after each. At most `fuel` are read. -/
def collect (p : Char → Bool) : Nat → Parse (List Char)
  | 0 => return []
  | fuel + 1 => do
    match ← peek? with
    | none => return []
    | some c =>
      if p c then
        next
        return c :: (← collect p fuel)
      else return []

/-- Reads as many characters with a property as there are, passing over blanks after each. -/
def takeWhile (p : Char → Bool) : Parse (List Char) := do
  collect p (← get).rest.length

/-- The value of a list of digits in some base. -/
def number (base : Nat) (digit? : Char → Option Nat) (cs : List Char) : Nat :=
  cs.foldl (fun n c => base * n + (digit? c).getD 0) 0

end Input

end Ebnf.Regex
