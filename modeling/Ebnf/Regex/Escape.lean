import Ebnf.Regex.Ast
import Ebnf.Regex.Input

/-!
# What follows a backslash

Reads one escape. An escape stands for a character, a class or a condition on the place, and may
occur inside classes too, where conditions are refused later.

* `Escape`: what an escape stands for;
* `Escape.parse`: reads one, the cursor being at the backslash.
-/

namespace Ebnf.Regex

/-! ## 1. Escapes -/

/-- What an escape stands for. -/
inductive Escape where
  /-- A character. -/
  | literal (l : Literal)
  /-- A class. -/
  | item (i : ClassItem)
  /-- A condition on the place. -/
  | assertion (a : Assertion)

/-- Whether a character has a meaning of its own in expressions. -/
def isMeta (c : Char) : Bool :=
  "\\.+*?()|[]\x7b\x7d^$#&-~".toList.contains c

/-- Whether a backslash before a character leaves the character as it is. -/
def isEscapable (c : Char) : Bool :=
  isMeta c || (c.toNat < 128 && !c.isAlphanum && c ≠ '<' && c ≠ '>')

/-- The control character that a letter stands for. -/
def controlChar? (c : Char) : Option Char :=
  match c with
  | 'a' => some '\x07'
  | 'f' => some '\x0c'
  | 't' => some '\t'
  | 'n' => some '\n'
  | 'r' => some '\r'
  | 'v' => some '\x0b'
  | _ => none

/-- The class that a letter stands for, and whether it is negated. -/
def shortClass? (c : Char) : Option ClassItem :=
  match c with
  | 'd' => some (.short .digit false)
  | 's' => some (.short .space false)
  | 'w' => some (.short .word false)
  | 'D' => some (.short .digit true)
  | 'S' => some (.short .space true)
  | 'W' => some (.short .word true)
  | _ => none

namespace Escape

open Input

/-! ## 2. Characters by number -/

/-- The character with a given code point. -/
def charOfNumber (n : Nat) : Parse Char :=
  if n.isValidChar then return .ofNat n else throw .badEscape

/-- Reads the given number of hexadecimal digits, with blanks between them. -/
def hexDigits : Nat → Parse (List Char)
  | 0 => return []
  | n + 1 => do
    let c ← peek .unexpectedEnd
    if (Unicode.CharSet.hexDigit? c).isNone then throw .badEscape
    next
    return c :: (← hexDigits n)

/-- Reads a character by its number, in brackets or with a fixed number of digits. -/
def hexLiteral (digits : Nat) (isByte : Bool) : Parse Literal := do
  nextOr .unexpectedEnd
  if (← peek?) = some '\x7b' then
    next
    let cs ← Input.takeWhile (· ≠ '\x7d')
    if ← atEnd then throw .unexpectedEnd
    next
    if cs.isEmpty ∨ cs.any (fun c => (Unicode.CharSet.hexDigit? c).isNone) then throw .badEscape
    return { char := ← charOfNumber (number 16 Unicode.CharSet.hexDigit? cs) }
  else
    let cs ← hexDigits digits
    return { char := ← charOfNumber (number 16 Unicode.CharSet.hexDigit? cs), isByte }

/-! ## 3. Properties -/

/-- Splits a text at the first place where a separator stands. -/
def splitAt? (separator : List Char) : List Char → Option (List Char × List Char)
  | [] => none
  | c :: cs =>
    match separator.isPrefixOf? (c :: cs) with
    | some rest => some ([], rest)
    | none => (splitAt? separator cs).map fun (front, rest) => (c :: front, rest)

/-- What is asked for by the text in brackets after `\p`, and whether the question is negated. -/
def propertyQuery (cs : List Char) : PropertyQuery × Bool :=
  let valued (parts : List Char × List Char) : PropertyQuery :=
    .valued (.ofList parts.1) (.ofList parts.2)
  match splitAt? ['!', '='] cs with
  | some parts => (valued parts, true)
  | none =>
    match (splitAt? [':'] cs).or (splitAt? ['='] cs) with
    | some parts => (valued parts, false)
    | none => (.named (.ofList cs), false)

/-- Reads the name of a property; the cursor is at the letter. -/
def property (negated : Bool) : Parse ClassItem := do
  nextOr .unexpectedEnd
  let c ← peek .unexpectedEnd
  if c = '\x7b' then
    next
    let cs ← Input.takeWhile (· ≠ '\x7d')
    if ← atEnd then throw .unexpectedEnd
    bump
    let (query, opposite) := propertyQuery cs
    return .property query (negated ^^ opposite)
  else
    if c = '\\' then throw .badEscape
    next
    return .property (.named (.singleton c)) negated

/-! ## 4. Word boundaries -/

/-- The word boundaries that have a name. -/
def namedBoundary? (name : List Char) : Option Assertion :=
  match String.ofList name with
  | "start" => some .wordStart
  | "end" => some .wordEnd
  | "start-half" => some .wordStartHalf
  | "end-half" => some .wordEndHalf
  | _ => none

/-- Whether the character may stand in the name of a word boundary. -/
def isBoundaryChar (c : Char) : Bool :=
  c.isAlpha || c = '-'

/-- Reads the name of a word boundary in brackets, if there is one. What is no name is left to be
    read as a repetition. -/
def boundary : Parse Assertion := do
  if (← peek?) ≠ some '\x7b' then return .wordBoundary
  let before ← get
  nextOr .unexpectedEnd
  if !isBoundaryChar (← peek .unexpectedEnd) then
    set before
    return .wordBoundary
  let name ← Input.takeWhile isBoundaryChar
  if (← peek?) ≠ some '\x7d' then throw .badEscape
  bump
  match namedBoundary? name with
  | some a => return a
  | none => throw .badEscape

/-! ## 5. Any escape -/

/-- Reads an escape; the cursor is at the backslash. -/
def parse : Parse Escape := do
  bump
  let c ← peek .unexpectedEnd
  if c.isDigit then throw .notSupported
  match c with
  | 'x' => return .literal (← hexLiteral 2 true)
  | 'u' => return .literal (← hexLiteral 4 false)
  | 'U' => return .literal (← hexLiteral 8 false)
  | 'p' => return .item (← property false)
  | 'P' => return .item (← property true)
  | _ =>
    bump
    if isEscapable c then return .literal { char := c }
    if let some d := controlChar? c then return .literal { char := d }
    if let some i := shortClass? c then return .item i
    match c with
    | 'A' => return .assertion .textStart
    | 'z' => return .assertion .textEnd
    | 'b' => return .assertion (← boundary)
    | 'B' => return .assertion .noWordBoundary
    | '<' => return .assertion .wordStart
    | '>' => return .assertion .wordEnd
    | _ => throw .badEscape

end Escape

end Ebnf.Regex
