import Ebnf.Regex.Pattern
import Ebnf.Unicode.CaseFolding

/-!
# Applying flags

Works out what an expression means under the flags in force where its parts stand. A flag set
inside a group holds up to the end of the group, in the alternatives that follow too.

Without the flag `u` an expression speaks of bytes. It is accepted as long as it speaks of the first
128 characters only, which are bytes, so that no part of a longer character is ever matched.

* `Flags`: the flags in force;
* `ClassItem.resolve`: the characters of a class;
* `Pattern.ofAst`: the pattern of an expression.
-/

namespace Ebnf.Regex

open Unicode (CharSet)

/-! ## 1. Flags -/

/-- The flags in force. -/
structure Flags where
  /-- Upper and lower case are the same. -/
  ignoreCase : Bool := false
  /-- `^` and `$` also match at line breaks. -/
  multiLine : Bool := false
  /-- A dot also matches a line break. -/
  dotAll : Bool := false
  /-- Repetitions are lazy unless marked. -/
  swapGreed : Bool := false
  /-- Classes hold all characters, not only those below 128. -/
  unicode : Bool := true
  /-- A carriage return is a line break too. -/
  crlf : Bool := false
deriving DecidableEq, Repr

namespace Flags

/-- The flags after one was switched. -/
def switch (f : Flags) (item : FlagItem) : Flags :=
  match item.flag with
  | .ignoreCase => { f with ignoreCase := item.on }
  | .multiLine => { f with multiLine := item.on }
  | .dotAll => { f with dotAll := item.on }
  | .swapGreed => { f with swapGreed := item.on }
  | .unicode => { f with unicode := item.on }
  | .crlf => { f with crlf := item.on }
  | .verbose => f

/-- The flags after several were switched. -/
def apply (f : Flags) (items : List FlagItem) : Flags :=
  items.foldl switch f

end Flags

/-! ## 2. Classes -/

/-- A letter among the first 128 characters in the other case. -/
def otherCase (c : Char) : Char :=
  if c.isUpper then c.toLower else c.toUpper

/-- Adds to a set its letters in the other case, for letters among the first 128 characters. -/
def foldAsciiCase (s : CharSet) : CharSet :=
  let letters := "ABCDEFGHIJKLMNOPQRSTUVWXYZabcdefghijklmnopqrstuvwxyz".toList
  s.union (.ofPoints ((letters.filter s.has).map fun c => (otherCase c).toNat))

namespace Flags

/-- A set with what counts as the same as its members. -/
def close (f : Flags) (s : CharSet) : CharSet :=
  if !f.ignoreCase then s
  else if f.unicode then s.foldCase
  else foldAsciiCase s

/-- A set or what lies outside of it, with what counts as the same. -/
def finish (f : Flags) (negated : Bool) (s : CharSet) : Except PatternError CharSet :=
  if !negated then .ok (f.close s)
  else if f.unicode then .ok (f.close s).complement
  else .error .notCharacters

/-- A character in a class. -/
def classChar (f : Flags) (l : Literal) : Except PatternError Char :=
  if f.unicode ∨ l.char.toNat < 128 then .ok l.char else .error .notCharacters

/-- The characters of a class with a letter of its own. No fold is needed here. -/
def shortClass (f : Flags) (kind : ShortClass) (negated : Bool) : Except PatternError CharSet :=
  match f.unicode, negated with
  | true, false => .ok kind.chars
  | true, true => .ok kind.chars.complement
  | false, false => .ok kind.asciiChars
  | false, true => .error .notCharacters

end Flags

/-- What an operation makes of two sets. -/
def ClassOp.apply (op : ClassOp) (s t : CharSet) : CharSet :=
  match op with
  | inter => s.inter t
  | diff => s.diff t
  | symmDiff => s.symmDiff t

mutual

/-- The characters of a class. -/
def ClassItem.resolve (f : Flags) : ClassItem → Except PatternError CharSet
  | .literal l => return .singleton (← f.classChar l)
  | .range first last =>
    return ⟨[⟨(← f.classChar first).toNat, (← f.classChar last).toNat⟩]⟩
  | .ascii set negated => f.finish negated set
  | .short kind negated => f.shortClass kind negated
  | .property query negated =>
    if f.unicode then do f.finish negated (← query.chars) else .error .notCharacters
  | .bracketed negated inner => do f.finish negated (← inner.resolve f)
  | .union items => return .unions (← resolveItems f items)
  | .op kind left right => do
    let s ← left.resolve f
    let t ← right.resolve f
    return kind.apply (f.close s) (f.close t)

/-- The characters of several classes, class by class. -/
def resolveItems (f : Flags) : List ClassItem → Except PatternError (List CharSet)
  | [] => return []
  | item :: items => return (← item.resolve f) :: (← resolveItems f items)

end

/-! ## 3. Expressions -/

namespace Flags

/-- The characters that a character outside of classes stands for. A byte that is no character by
    itself stands for none. -/
def literal (f : Flags) (l : Literal) : Except PatternError CharSet :=
  if !f.unicode ∧ l.isByte ∧ 128 ≤ l.char.toNat then .error .notCharacters
  else .ok (f.close (.singleton l.char))

/-- The characters that a dot stands for. -/
def dot (f : Flags) : Except PatternError CharSet :=
  if !f.unicode then .error .notCharacters
  else if f.dotAll then .ok .univ
  else if f.crlf then .ok (CharSet.ofPoints ['\n'.toNat, '\r'.toNat]).complement
  else .ok (CharSet.singleton '\n').complement

/-- What is asked of a place. -/
def assertion (f : Flags) (a : Assertion) : Look :=
  let word (look : WordLook) : Look := .word look !f.unicode
  match a with
  | .lineStart => if f.multiLine then .lineStart f.crlf else .textStart
  | .lineEnd => if f.multiLine then .lineEnd f.crlf else .textEnd
  | .textStart => .textStart
  | .textEnd => .textEnd
  | .wordBoundary => word .boundary
  | .noWordBoundary => word .noBoundary
  | .wordStart => word .start
  | .wordEnd => word .stop
  | .wordStartHalf => word .startHalf
  | .wordEndHalf => word .stopHalf

/-- How an expression is repeated. -/
def repetition (f : Flags) (r : Repetition) : Repetition :=
  { r with greedy := r.greedy ^^ f.swapGreed }

end Flags

mutual

/-- The pattern of an expression, and the flags after it. -/
def Pattern.resolve (f : Flags) : Ast → Except PatternError (Pattern × Flags)
  | .empty => return (.empty, f)
  | .flags items => return (.empty, f.apply items)
  | .literal l => return (.ofSet (← f.literal l), f)
  | .dot => return (.ofSet (← f.dot), f)
  | .assertion a => return (.look (f.assertion a), f)
  | .charClass item => return (.ofSet (← item.resolve f), f)
  | .repeated r inner => do
    let (p, f) ← Pattern.resolve f inner
    return (p.times (f.repetition r), f)
  | .capture inner => return (.capture (← Pattern.resolve f inner).1, f)
  | .group items inner => return ((← Pattern.resolve (f.apply items) inner).1, f)
  | .alternation items => do
    let (ps, f) ← Pattern.resolveAll f items
    return (.choice ps, f)
  | .concat items => do
    let (ps, f) ← Pattern.resolveAll f items
    return (.sequence ps, f)

/-- The patterns of expressions in their order, and the flags after them. -/
def Pattern.resolveAll (f : Flags) : List Ast → Except PatternError (List Pattern × Flags)
  | [] => return ([], f)
  | e :: es => do
    let (p, f) ← Pattern.resolve f e
    let (ps, f) ← Pattern.resolveAll f es
    return (p :: ps, f)

end

/-- The pattern of an expression. -/
def Pattern.ofAst (e : Ast) : Except PatternError Pattern :=
  return (← Pattern.resolve {} e).1

end Ebnf.Regex
