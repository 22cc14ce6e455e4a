/-!
# Sets of characters

A set of characters is a list of ranges of code points (`CharSet`). Sets that an operation builds
are in normal form: ascending, with a gap between neighbouring ranges.

* `CharSet.contains`: membership, the view through which every operation is read;
* `CharSet.union`, `complement`, `inter`, `diff`, `symmDiff`: the set operations. The complement is
  taken within the characters, so it never holds a surrogate;
* `CharSet.ofTable`: a set from its text in hexadecimal, the form in which tables are kept.
-/

namespace Ebnf.Unicode

/-! ## 1. Ranges -/

/-- The code points from `first` to `last`, both included. -/
structure CodeRange where
  /-- The least code point. -/
  first : Nat
  /-- The greatest code point. -/
  last : Nat
deriving DecidableEq, Repr

/-- Whether a code point lies in the range. -/
def CodeRange.contains (r : CodeRange) (n : Nat) : Bool :=
  r.first ≤ n && n ≤ r.last

/-- The greatest code point. -/
def maxCodePoint : Nat := 0x10FFFF

/-- The code points that are no characters. -/
def surrogates : CodeRange := ⟨0xD800, 0xDFFF⟩

/-! ## 2. Sets -/

/-- A set of code points. -/
structure CharSet where
  /-- The ranges whose members make up the set. -/
  ranges : List CodeRange
deriving DecidableEq, Repr

namespace CharSet

instance : EmptyCollection CharSet := ⟨⟨[]⟩⟩

/-- Whether a code point is a member. -/
def contains (s : CharSet) (n : Nat) : Bool :=
  s.ranges.any (·.contains n)

/-- Whether a character is a member. -/
def has (s : CharSet) (c : Char) : Bool :=
  s.contains c.toNat

/-- Joins a range with those of an ascending list that overlap it or follow without a gap. -/
def coalesce (r : CodeRange) : List CodeRange → List CodeRange
  | [] => [r]
  | s :: rest =>
    if s.first ≤ r.last + 1 then coalesce ⟨r.first, max r.last s.last⟩ rest
    else r :: coalesce s rest

/-- The set whose members lie in any of the ranges, in normal form. -/
def ofRanges (rs : List CodeRange) : CharSet :=
  match (rs.filter fun r => r.first ≤ r.last).mergeSort (fun a b => a.first ≤ b.first) with
  | [] => ∅
  | r :: rest => ⟨coalesce r rest⟩

/-- The set of the given code points. -/
def ofPoints (ns : List Nat) : CharSet :=
  ofRanges (ns.map fun n => ⟨n, n⟩)

/-- The set with a single character. -/
def singleton (c : Char) : CharSet :=
  ⟨[⟨c.toNat, c.toNat⟩]⟩

/-- The members of any of the sets. -/
def unions (sets : List CharSet) : CharSet :=
  ofRanges (sets.flatMap CharSet.ranges)

/-- The members of either set. -/
def union (s t : CharSet) : CharSet :=
  ofRanges (s.ranges ++ t.ranges)

/-- What an ascending list of ranges leaves out, from `start` on. -/
def gaps (start : Nat) : List CodeRange → List CodeRange
  | [] => if start ≤ maxCodePoint then [⟨start, maxCodePoint⟩] else []
  | r :: rest =>
    if start < r.first then ⟨start, r.first - 1⟩ :: gaps (r.last + 1) rest
    else gaps (r.last + 1) rest

/-- The characters that are no members. -/
def complement (s : CharSet) : CharSet :=
  ⟨gaps 0 (ofRanges (surrogates :: s.ranges)).ranges⟩

/-- The characters that are members of both sets. -/
def inter (s t : CharSet) : CharSet :=
  (s.complement.union t.complement).complement

/-- The characters of `s` that are not in `t`. -/
def diff (s t : CharSet) : CharSet :=
  (s.complement.union t).complement

/-- The characters that are members of exactly one of the two sets. -/
def symmDiff (s t : CharSet) : CharSet :=
  (s.union t).diff (s.inter t)

/-- Whether the set has no member. -/
def isEmpty (s : CharSet) : Bool :=
  s.ranges.isEmpty

/-- The characters whose code point is below 128. -/
def ascii : CharSet := ⟨[⟨0, 0x7F⟩]⟩

/-- Every character. -/
def univ : CharSet := (∅ : CharSet).complement

/-! ## 3. Tables -/

/-- The value of a hexadecimal digit, if the character is one. -/
def hexDigit? (c : Char) : Option Nat :=
  if '0' ≤ c ∧ c ≤ '9' then some (c.toNat - '0'.toNat)
  else if 'A' ≤ c ∧ c ≤ 'F' then some (c.toNat - 'A'.toNat + 10)
  else if 'a' ≤ c ∧ c ≤ 'f' then some (c.toNat - 'a'.toNat + 10)
  else none

/-- The range that ends with the given number, if there is one. `first` is its start, unless it is a
    single code point. -/
def rangeTo (first last : Option Nat) : List CodeRange :=
  match last with
  | none => []
  | some n => [⟨first.getD n, n⟩]

/-- Reads ranges written `first-last`, or `point` for a single code point, with blanks or line
    breaks between them. `first` holds the start of the range being read once its dash has been
    passed, `n` the value of the digits read since. -/
def readRanges (first n : Option Nat) : List Char → List CodeRange
  | [] => rangeTo first n
  | c :: rest =>
    match hexDigit? c with
    | some d => readRanges first (some (16 * n.getD 0 + d)) rest
    | none =>
      if c = '-' then readRanges n none rest
      else rangeTo first n ++ readRanges none none rest

/-- The set written as hexadecimal ranges in ascending order, with blanks between them. -/
def ofTable (text : String) : CharSet :=
  ⟨readRanges none none text.toList⟩

example : ofTable "41-5A 5F" = ⟨[⟨0x41, 0x5A⟩, ⟨0x5F, 0x5F⟩]⟩ := by decide

end CharSet

end Ebnf.Unicode
