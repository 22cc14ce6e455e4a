import Ebnf.Unicode.CharSet

/-!
# Characters as bytes

The UTF-8 forms of many characters at once, as sequences of ranges of bytes.

* `digitSequences`: the numbers between two as sequences of ranges of digits to base 64;
* `byteSequences`: the UTF-8 forms of a range of characters, in ascending order;
* `setSequences`: those of the members of a set.
-/

namespace Ebnf.Regex

open Unicode (CharSet CodeRange)

/-- The numbers between two as sequences of ranges of digits to base 64, the first digit having any
    size and `n` more following. -/
def digitSequences : Nat → Nat → Nat → List (List CodeRange)
  | 0, lo, hi => [[⟨lo, hi⟩]]
  | n + 1, lo, hi =>
    let unit := 64 ^ (n + 1)
    let (a, b) := (lo / unit, hi / unit)
    if a = b then (digitSequences n (lo % unit) (hi % unit)).map (⟨a, a⟩ :: ·)
    else
      let low := if lo % unit = 0 then [] else
        (digitSequences n (lo % unit) (unit - 1)).map (⟨a, a⟩ :: ·)
      let high := if hi % unit = unit - 1 then [] else
        (digitSequences n 0 (hi % unit)).map (⟨b, b⟩ :: ·)
      let first := if low.isEmpty then a else a + 1
      let last := if high.isEmpty then b else b - 1
      let middle := if last < first then [] else
        (digitSequences n 0 (unit - 1)).map (⟨first, last⟩ :: ·)
      low ++ middle ++ high

/-- The characters whose UTF-8 form has a given number of bytes. -/
structure ByteLength where
  /-- How many bytes follow the first. -/
  following : Nat
  /-- What the first byte is besides its digit. -/
  lead : Nat
  /-- The characters. -/
  within : CodeRange

/-- The characters by the length of their UTF-8 form. -/
def byteLengths : List ByteLength :=
  [⟨0, 0, ⟨0, 0x7F⟩⟩, ⟨1, 0xC0, ⟨0x80, 0x7FF⟩⟩, ⟨2, 0xE0, ⟨0x800, 0xD7FF⟩⟩,
    ⟨2, 0xE0, ⟨0xE000, 0xFFFF⟩⟩, ⟨3, 0xF0, ⟨0x10000, 0x10FFFF⟩⟩]

/-- A range of bytes that carry the digits of a range. -/
def shift (n : Nat) (r : CodeRange) : CodeRange :=
  ⟨r.first + n, r.last + n⟩

/-- The bytes that carry digits, where `lead` is what the first byte is besides its digit. -/
def ofDigits (lead : Nat) : List CodeRange → List CodeRange
  | [] => []
  | first :: following => shift lead first :: following.map (shift 0x80)

/-- The UTF-8 forms of a range of characters, as sequences of ranges of bytes. -/
def byteSequences (r : CodeRange) : List (List CodeRange) :=
  byteLengths.flatMap fun len =>
    let lo := max r.first len.within.first
    let hi := min r.last len.within.last
    if hi < lo then [] else (digitSequences len.following lo hi).map (ofDigits len.lead)

example : byteSequences ⟨0x7E, 0x81⟩ =
    [[⟨0x7E, 0x7F⟩], [⟨0xC2, 0xC2⟩, ⟨0x80, 0x81⟩]] := by decide

/-- The UTF-8 forms of the members of a set. -/
def setSequences (s : CharSet) : List (List CodeRange) :=
  s.ranges.flatMap byteSequences

end Ebnf.Regex
