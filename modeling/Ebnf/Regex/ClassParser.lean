import Ebnf.Regex.Escape
import Ebnf.Regex.Property

/-!
# Reading character classes

Reads a class in brackets. Classes may stand inside each other and be combined by operators, which
all bind alike and from the left.

* `ClassLevel`: a class that is being read;
* `parseClass`: reads a class, the cursor being at its bracket.
-/

namespace Ebnf.Regex

/-! ## 1. Classes in the making -/

/-- A class that is being read. -/
structure ClassLevel where
  /-- Whether the class holds the other characters. -/
  negated : Bool
  /-- What stands before the last operator, with that operator. -/
  left : Option (ClassOp × ClassItem) := none
  /-- The items read since, the last one first. -/
  items : List ClassItem := []

namespace ClassLevel

/-- The items in their order as one item. -/
def joined (items : List ClassItem) : ClassItem :=
  match items with
  | [item] => item
  | _ => .union items.reverse

/-- What has been read, with the last operator applied. -/
def content (l : ClassLevel) : ClassItem :=
  match l.left with
  | none => joined l.items
  | some (op, left) => .op op left (joined l.items)

/-- The class with one more item. -/
def push (l : ClassLevel) (item : ClassItem) : ClassLevel :=
  { l with items := item :: l.items }

/-- The class after an operator. -/
def operate (l : ClassLevel) (op : ClassOp) : ClassLevel :=
  { l with left := some (op, l.content), items := [] }

/-- The finished class. -/
def close (l : ClassLevel) : ClassItem :=
  .bracketed l.negated l.content

end ClassLevel

namespace ClassParser

open Input

/-! ## 2. Single items -/

/-- One side of a range, or an item of its own. -/
def atom : Parse Escape := do
  let c ← peek .unclosedClass
  if c = '\\' then Escape.parse
  else
    bump
    return .literal { char := c }

/-- The item that an escape stands for; a condition on the place is none. -/
def itemOf : Escape → Parse ClassItem
  | .literal l => return .literal l
  | .item i => return i
  | .assertion _ => throw .badEscape

/-- The character that an escape stands for. -/
def literalOf : Escape → Parse Literal
  | .literal l => return l
  | _ => throw .badRange

/-- Reads an item or a range. A dash before the closing bracket or before another dash makes no
    range. -/
def rangeOrItem : Parse ClassItem := do
  let first ← atom
  skipBlanks
  if ← atEnd then throw .unclosedClass
  let behind ← peekBehind?
  if (← peek?) ≠ some '-' ∨ behind = some ']' ∨ behind = some '-' then itemOf first
  else
    nextOr .unclosedClass
    let last ← atom
    let a ← literalOf first
    let b ← literalOf last
    if b.char < a.char then throw .badRange
    return .range a b

/-- The class of the first 128 characters that stands at the start of a text, with what follows it.
    A text that only looks like such a class is none. -/
def asciiItem? (cs : List Char) : Option (ClassItem × List Char) := do
  let inner ← ['[', ':'].isPrefixOf? cs
  let (negated, name) := match inner with
    | '^' :: rest => (true, rest)
    | _ => (false, inner)
  let (name, rest) ← Escape.splitAt? [':'] name
  let after ← [']'].isPrefixOf? rest
  let set ← asciiClass? (.ofList name)
  return (.ascii set negated, after)

/-! ## 3. Brackets -/

/-- Reads literal dashes at the start of a class. At most `fuel` are read. -/
def leadingDashes : Nat → ClassLevel → Parse ClassLevel
  | 0, l => return l
  | fuel + 1, l => do
    if (← peek?) = some '-' then
      nextOr .unclosedClass
      leadingDashes fuel (l.push (.literal { char := '-' }))
    else return l

/-- Opens a class; the cursor is at its bracket. A closing bracket that comes first belongs to the
    class. -/
def openClass : Parse ClassLevel := do
  nextOr .unclosedClass
  let negated := (← peek?) = some '^'
  if negated then nextOr .unclosedClass
  let l ← leadingDashes (← get).rest.length { negated }
  if l.items.isEmpty ∧ (← peek?) = some ']' then
    nextOr .unclosedClass
    return l.push (.literal { char := ']' })
  return l

/-- The operator that is written by doubling a character. -/
def operator? (c : Char) : Option ClassOp :=
  match c with
  | '&' => some .inter
  | '-' => some .diff
  | '~' => some .symmDiff
  | _ => none

/-- Reads on in the class `level`, which stands in the classes `outer`, the innermost first. Every
    step passes over a character, so `fuel` may be the length of the text. -/
def readItems (outer : List ClassLevel) (level : ClassLevel) : Nat → Parse ClassItem
  | 0 => throw .unclosedClass
  | fuel + 1 => do
    skipBlanks
    let c ← peek .unclosedClass
    if c = '[' then
      match asciiItem? (← get).rest with
      | some (item, rest) =>
        modify fun i => { i with rest }
        readItems outer (level.push item) fuel
      | none => readItems (level :: outer) (← openClass) fuel
    else if c = ']' then
      bump
      match outer with
      | [] => return level.close
      | around :: outer => readItems outer (around.push level.close) fuel
    else
      let doubled := ((← get).rest.drop 1).head? = some c
      match (operator? c).filter fun _ => doubled with
      | some op =>
        bump
        bump
        readItems outer (level.operate op) fuel
      | none => readItems outer (level.push (← rangeOrItem)) fuel

end ClassParser

/-- Reads a class; the cursor is at its bracket. -/
def parseClass : Parse ClassItem := do
  let fuel := (← get).rest.length
  let level ← ClassParser.openClass
  ClassParser.readItems [] level fuel

end Ebnf.Regex
