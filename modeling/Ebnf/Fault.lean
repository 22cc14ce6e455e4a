/-!
# Faults

A fault is a request that the data it is made of cannot answer: an id outside its arena, a cut of a
text inside a character, or a number that 32 bits cannot hold. No error message belongs to it;
whatever runs into a fault ends.

* `Fault`: what went wrong;
* `Checked`: the results that may be a fault instead.
-/

namespace Ebnf

/-- Why a request cannot be answered. -/
inductive Fault where
  /-- No id can be given to the entry with this index. -/
  | tooManyEntries (index : Nat)
  /-- There is no action with this index. -/
  | noAction (index : Nat)
  /-- There is no property with this index. -/
  | noProperty (index : Nat)
  /-- The text cannot be cut at this byte: it lies inside a character or past the end. -/
  | noBoundary (offset : Nat)
  /-- No offset can be given to the place with this many bytes before it. -/
  | tooManyBytes (count : Nat)
deriving DecidableEq, Repr

/-- A result, or the fault that stands in its place. -/
abbrev Checked (α : Type) := Except Fault α

end Ebnf
