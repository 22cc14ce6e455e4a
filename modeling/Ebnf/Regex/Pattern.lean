import Ebnf.Regex.Ast
import Ebnf.Regex.Look

/-!
# Patterns

A regular expression whose flags have been applied, so that every part means the same wherever it
stands. Patterns are kept in a simple form: neighbouring characters make one text, a choice between
characters is one character out of a set, and what all alternatives begin with stands in front of
them.

* `Pattern`: the patterns;
* `Pattern.isNullable`, `Pattern.isBlank`: whether the empty text, or no other, can be matched;
* `Pattern.ofSet`, `Pattern.times`, `Pattern.sequence`, `Pattern.choice`: patterns made of others,
  in the simple form.
-/

namespace Ebnf.Regex

open Unicode (CharSet)

/-- What a text may be matched against. -/
inductive Pattern where
  /-- The empty text. -/
  | empty
  /-- The given characters, of which there is one at least. -/
  | text (cs : List Char)
  /-- One character out of a set. -/
  | one (set : CharSet)
  /-- The empty text where a condition holds. -/
  | look (l : Look)
  /-- A repeated pattern. -/
  | repeated (r : Repetition) (inner : Pattern)
  /-- A pattern whose match is remembered. -/
  | capture (inner : Pattern)
  /-- Patterns one after the other. -/
  | concat (items : List Pattern)
  /-- Alternatives in order. -/
  | alternation (items : List Pattern)

namespace Pattern

/-! ## 1. What is matched by them -/

mutual

/-- Whether the pattern may match the empty text. -/
def isNullable : Pattern → Bool
  | .empty => true
  | .text cs => cs.isEmpty
  | .one _ => false
  | .look _ => true
  | .repeated r inner => r.min == 0 || inner.isNullable
  | .capture inner => inner.isNullable
  | .concat items => allNullable items
  | .alternation items => anyNullable items

/-- Whether all patterns may match the empty text. -/
def allNullable : List Pattern → Bool
  | [] => true
  | p :: ps => p.isNullable && allNullable ps

/-- Whether one of the patterns may match the empty text. -/
def anyNullable : List Pattern → Bool
  | [] => false
  | p :: ps => p.isNullable || anyNullable ps

end

mutual

/-- Whether the pattern matches nothing but the empty text. -/
def isBlank : Pattern → Bool
  | .empty => true
  | .text cs => cs.isEmpty
  | .one _ => false
  | .look _ => true
  | .repeated _ inner => inner.isBlank
  | .capture inner => inner.isBlank
  | .concat items => allBlank items
  | .alternation items => allBlank items

/-- Whether the patterns match nothing but the empty text. -/
def allBlank : List Pattern → Bool
  | [] => true
  | p :: ps => p.isBlank && allBlank ps

end

/-! ## 2. Comparing them -/

mutual

/-- Whether two patterns are the same. No two matches are remembered together, so patterns with
    such a match differ. -/
def same : Pattern → Pattern → Bool
  | .empty, .empty => true
  | .text cs, .text ds => cs == ds
  | .one s, .one t => s == t
  | .look l, .look m => l == m
  | .repeated r p, .repeated s q => r == s && p.same q
  | .concat ps, .concat qs => sameAll ps qs
  | .alternation ps, .alternation qs => sameAll ps qs
  | _, _ => false

/-- Whether the patterns of two lists are the same one by one. -/
def sameAll : List Pattern → List Pattern → Bool
  | [], [] => true
  | p :: ps, q :: qs => p.same q && sameAll ps qs
  | _, _ => false

end

/-- What two lists of patterns begin with in common. -/
def sharedStart : List Pattern → List Pattern → List Pattern
  | p :: ps, q :: qs => if p.same q then p :: sharedStart ps qs else []
  | _, _ => []

mutual

/-- The number of parts that a pattern has. -/
def parts : Pattern → Nat
  | .repeated _ inner => inner.parts + 1
  | .capture inner => inner.parts + 1
  | .concat items => partsOfAll items + 1
  | .alternation items => partsOfAll items + 1
  | _ => 1

/-- The number of parts that several patterns have. -/
def partsOfAll : List Pattern → Nat
  | [] => 0
  | p :: ps => p.parts + partsOfAll ps

end

/-! ## 3. One character and repetitions -/

/-- One character out of a set. A set with a single character is a text. -/
def ofSet (s : CharSet) : Pattern :=
  match s.ranges with
  | [⟨a, b⟩] => if a = b then .text [Char.ofNat a] else .one s
  | _ => .one s

/-- A repeated pattern. What matches only the empty text need not be repeated, and what occurs
    exactly once is no repetition. -/
def times (p : Pattern) (r : Repetition) : Pattern :=
  let r := if p.isBlank
    then { r with min := min r.min 1, max := some (min (r.max.getD 1) 1) }
    else r
  match r.min, r.max with
  | 0, some 0 => .empty
  | 1, some 1 => p
  | _, _ => .repeated r p

/-! ## 4. Sequences -/

/-- The patterns with the items of nested sequences in their places, and without empty ones. -/
def sequenceItems : List Pattern → List Pattern
  | [] => []
  | .empty :: ps => sequenceItems ps
  | .concat items :: ps => items ++ sequenceItems ps
  | p :: ps => p :: sequenceItems ps

/-- Makes neighbouring texts one. -/
def joinTexts : List Pattern → List Pattern
  | [] => []
  | .text cs :: ps =>
    match joinTexts ps with
    | .text ds :: rest => .text (cs ++ ds) :: rest
    | rest => .text cs :: rest
  | p :: ps => p :: joinTexts ps

/-- Patterns one after the other. -/
def sequence (ps : List Pattern) : Pattern :=
  match joinTexts (sequenceItems ps) with
  | [] => .empty
  | [p] => p
  | items => .concat items

/-! ## 5. Alternatives -/

/-- The patterns with the alternatives of nested choices in their places. -/
def choiceItems : List Pattern → List Pattern
  | [] => []
  | .alternation items :: ps => items ++ choiceItems ps
  | p :: ps => p :: choiceItems ps

/-- The character of a text that has only one. -/
def char? : Pattern → Option Char
  | .text [c] => some c
  | _ => none

/-- The set out of which the pattern is one character. -/
def set? : Pattern → Option CharSet
  | .one s => some s
  | _ => none

/-- The set out of which any of the patterns is one character, if all patterns are characters or
    all are sets of them. -/
def setOfAll? (ps : List Pattern) : Option CharSet :=
  ((ps.mapM char?).map fun cs => .ofPoints (cs.map Char.toNat)).or
    ((ps.mapM set?).map .unions)

/-- The items of a sequence. -/
def items? : Pattern → Option (List Pattern)
  | .concat items => some items
  | _ => none

/-- Alternatives in order. What all begin with is put in front, `fuel` times at most. -/
def choiceWithin (fuel : Nat) (ps : List Pattern) : Pattern :=
  match choiceItems ps with
  | [] => .one ∅
  | [p] => p
  | alternatives =>
    match setOfAll? alternatives with
    | some s => ofSet s
    | none =>
      match fuel, alternatives.mapM items? with
      | fuel + 1, some (first :: others) =>
        match others.foldl sharedStart first with
        | [] => .alternation alternatives
        | start =>
          let rests := (first :: others).map fun items => sequence (items.drop start.length)
          sequence (start ++ [choiceWithin fuel rests])
      | _, _ => .alternation alternatives

/-- Alternatives in order. Each time that something is put in front of them, fewer parts are left to
    look at. -/
def choice (ps : List Pattern) : Pattern :=
  choiceWithin (partsOfAll ps) ps

end Pattern

end Ebnf.Regex
