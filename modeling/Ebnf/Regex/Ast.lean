import Ebnf.Unicode.CharSet

/-!
# Regular expressions as they are written

The parts of a regular expression before its flags have been applied.

* `Flag`: what a group can switch on and off;
* `ClassItem`: what stands for one character out of several;
* `Ast`: expressions, with their depth (`Ast.depth`).
-/

namespace Ebnf.Regex

/-! ## 1. Flags and assertions -/

/-- A setting of the reader of regular expressions. -/
inductive Flag where
  /-- `i`: upper and lower case are the same. -/
  | ignoreCase
  /-- `m`: `^` and `$` also match at line breaks. -/
  | multiLine
  /-- `s`: a dot also matches a line break. -/
  | dotAll
  /-- `U`: repetitions are lazy unless marked. -/
  | swapGreed
  /-- `u`: classes hold all characters, not only those below 128. -/
  | unicode
  /-- `R`: a carriage return is a line break too. -/
  | crlf
  /-- `x`: blanks and comments may stand between the parts. -/
  | verbose
deriving DecidableEq, Repr

/-- A flag that is switched on or off. -/
structure FlagItem where
  /-- The flag. -/
  flag : Flag
  /-- Whether it is switched on. -/
  on : Bool
deriving DecidableEq, Repr

/-- A condition on a place in the text. -/
inductive Assertion where
  /-- `^`. -/
  | lineStart
  /-- `$`. -/
  | lineEnd
  /-- `\A`. -/
  | textStart
  /-- `\z`. -/
  | textEnd
  /-- `\b`. -/
  | wordBoundary
  /-- `\B`. -/
  | noWordBoundary
  /-- `\<` or `\b{start}`. -/
  | wordStart
  /-- `\>` or `\b{end}`. -/
  | wordEnd
  /-- `\b{start-half}`. -/
  | wordStartHalf
  /-- `\b{end-half}`. -/
  | wordEndHalf
deriving DecidableEq, Repr

/-! ## 2. Classes -/

/-- A character as it is written. -/
structure Literal where
  /-- The character. -/
  char : Char
  /-- Whether it is written as a byte, `\xHH`. -/
  isByte : Bool := false
deriving DecidableEq, Repr

/-- A class with a letter of its own. -/
inductive ShortClass where
  /-- `\d`. -/
  | digit
  /-- `\s`. -/
  | space
  /-- `\w`. -/
  | word
deriving DecidableEq, Repr

/-- How a property of characters is asked for. -/
inductive PropertyQuery where
  /-- `\p` with a name. -/
  | named (name : String)
  /-- `\p` with a name and a value. -/
  | valued (name value : String)
deriving DecidableEq, Repr

/-- An operation on two classes. -/
inductive ClassOp where
  /-- `&&`. -/
  | inter
  /-- `--`. -/
  | diff
  /-- `~~`. -/
  | symmDiff
deriving DecidableEq, Repr

/-- What stands for one character out of several. -/
inductive ClassItem where
  /-- One character. -/
  | literal (l : Literal)
  /-- The characters between two. -/
  | range (first last : Literal)
  /-- A class of the first 128 characters, such as `[:alpha:]`. -/
  | ascii (set : Unicode.CharSet) (negated : Bool)
  /-- A class with a letter of its own. -/
  | short (kind : ShortClass) (negated : Bool)
  /-- The characters with a property. -/
  | property (query : PropertyQuery) (negated : Bool)
  /-- A class in brackets. -/
  | bracketed (negated : Bool) (inner : ClassItem)
  /-- Several items together. -/
  | union (items : List ClassItem)
  /-- An operation on two classes. -/
  | op (kind : ClassOp) (left right : ClassItem)

/-! ## 3. Expressions -/

/-- How often an expression is repeated, and whether as often as possible. -/
structure Repetition where
  /-- The least number of times. -/
  min : Nat
  /-- The greatest number of times, if there is one. -/
  max : Option Nat
  /-- Whether more is tried before less. -/
  greedy : Bool
deriving DecidableEq, Repr

/-- A regular expression as it is written. -/
inductive Ast where
  /-- Nothing. -/
  | empty
  /-- Flags for what follows in the group. -/
  | flags (items : List FlagItem)
  /-- One character. -/
  | literal (l : Literal)
  /-- Any character. -/
  | dot
  /-- A condition on the place. -/
  | assertion (a : Assertion)
  /-- One character out of several. -/
  | charClass (item : ClassItem)
  /-- A repeated expression. -/
  | repeated (r : Repetition) (inner : Ast)
  /-- A group whose match is remembered. -/
  | capture (inner : Ast)
  /-- A group with flags of its own. -/
  | group (items : List FlagItem) (inner : Ast)
  /-- Alternatives in order. -/
  | alternation (items : List Ast)
  /-- Expressions one after the other. -/
  | concat (items : List Ast)

/-! ## 4. Depth -/

mutual

/-- How deep the parts of a class are nested. -/
def ClassItem.depth : ClassItem → Nat
  | .bracketed _ inner => inner.depth + 1
  | .union items => classItemsDepth items + if 1 < items.length then 1 else 0
  | .op _ left right => max left.depth right.depth + 1
  | _ => 0

/-- The depth of the deepest of several items. -/
def classItemsDepth : List ClassItem → Nat
  | [] => 0
  | item :: items => max item.depth (classItemsDepth items)

end

mutual

/-- How deep the parts of an expression are nested. -/
def Ast.depth : Ast → Nat
  | .charClass item => item.depth
  | .repeated _ inner => inner.depth + 1
  | .capture inner => inner.depth + 1
  | .group _ inner => inner.depth + 1
  | .alternation items => astsDepth items + 1
  | .concat items => astsDepth items + 1
  | _ => 0

/-- The depth of the deepest of several expressions. -/
def astsDepth : List Ast → Nat
  | [] => 0
  | e :: es => max e.depth (astsDepth es)

end

end Ebnf.Regex
