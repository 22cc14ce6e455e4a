import Ebnf.Unicode.Derived

/-!
# Tests on characters

Questions about a single character, as names, identifiers and quoted texts ask them. These keep
pace with the standard: names and quoted texts know the characters of version 17. Identifiers are
those of any version, and of version 18 where nothing else is said. The tables here hold what the
later versions add to the sets of characters.

* `isAlphabetic`, `isAlphanumeric`: what names are made of;
* `Xid`: what identifiers start with and are made of;
* `isBlank`, `isGraphemeExtend`, `isPrintable`: blanks, marks and what can be shown.

The tests answer for the first 128 characters without a table.
-/

namespace Ebnf.Unicode

/-! ## 1. Characters of version 17 -/

/-- The letters that version 17 adds, letters that stand for numbers among them. -/
def newLetters : CharSet := .ofTable
  "88F C5C CDC A7CE-A7CF A7D2 A7D4 A7F1 10940-10959 10EC5-10EC7 11DB0-11DDB 16EA0-16EB8
  16EBB-16ED3 16FF2-16FF6 187F8-187FF 18D09-18D1E 18D80-18DF2 1E6C0-1E6DE 1E6E0-1E6E2
  1E6E4-1E6E5 1E6E7-1E6ED 1E6F0-1E6F4 1E6FE-1E6FF 2B73A-2B73F 2CEA2-2CEAD 323B0-33479"

/-- The marks of version 17 that belong to an alphabet as letters do. -/
def newAlphabeticMarks : CharSet := .ofTable
  "10EFA-10EFB 11B60-11B67 1E6E3 1E6E6 1E6EE-1E6EF 1E6F5"

/-- The marks of version 17 that take room of their own. -/
def newSpacingMarks : CharSet := .ofTable "11B61 11B65 11B67"

/-- The marks that version 17 adds. -/
def newMarks : CharSet :=
  newAlphabeticMarks.union (.ofTable "1ACF-1ADD 1AE0-1AEB")

/-- The decimal digits that version 17 adds. -/
def newDigits : CharSet := .ofTable "11DE0-11DE9"

/-- The symbols and the punctuation that version 17 adds. -/
def newSymbols : CharSet := .ofTable
  "20C1 2B96 FBC3-FBD2 FD90-FD91 FDC8-FDCE 10ED0-10ED8 1CCFA-1CCFC 1CEBA-1CED0 1CEE0-1CEF0
  1F6D8 1F777-1F77A 1F8D0-1F8D8 1FA54-1FA57 1FA8A 1FA8E 1FAC8 1FACD 1FAEA 1FAEF 1FBFA"

/-! ## 2. Names -/

/-- Every alphabetic character. -/
def nameLetters : CharSet :=
  .unions [alphabetic, newLetters, newAlphabeticMarks]

/-- Every character with a numeric value of its own. -/
def nameDigits : CharSet :=
  numeric.union newDigits

/-- Whether the character is alphabetic. -/
def isAlphabetic (c : Char) : Bool :=
  if c.toNat < 128 then c.isAlpha else nameLetters.has c

/-- Whether the character is alphabetic or numeric. -/
def isAlphanumeric (c : Char) : Bool :=
  isAlphabetic c || if c.toNat < 128 then c.isDigit else nameDigits.has c

/-! ## 3. Identifiers -/

/-- What identifiers start with and are made of. It is for the standard to tell, and its versions
    differ. -/
class Xid where
  /-- Whether an identifier may start with the character. -/
  isXidStart : Char → Bool
  /-- Whether the character may stand in an identifier. -/
  isXidContinue : Char → Bool

export Xid (isXidStart isXidContinue)

/-- What is relied on, whatever the version: what starts an identifier may also continue one, and so
    may the underscore, the letters and the digits among the first 128 characters. -/
structure Xid.Standard [Xid] : Prop where
  continues : ∀ c, isXidStart c = true → isXidContinue c = true
  underscore : isXidContinue '_' = true
  letter : ∀ c : Char, c.isAlpha = true → isXidContinue c = true
  digit : ∀ c : Char, c.isDigit = true → isXidContinue c = true

/-- What more is known of the first 128 characters: letters start identifiers, and nothing else
    continues them. -/
structure Xid.Ascii [Xid] : Prop extends Standard where
  starts : ∀ c : Char, c.isAlpha = true → isXidStart c = true
  only : ∀ c : Char, c.toNat < 128 → isXidContinue c = true → c.isAlphanum = true ∨ c = '_'

/-- The letters that version 18 adds. -/
def newestLetters : CharSet := .ofTable
  "558 58B-58C 208F 209D-209F A7DD-A7E2 AB6C-AB6D 10ECF 10ED9 11B0A 11DF1 12550-12686 18CD6
  18E00-191D2 1B123 1DF24 1DFFF 2B81E 3D000-3FC3F"

/-- The marks that version 18 adds. -/
def newestMarks : CharSet := .ofTable "5C8 B53-B54 1ADE 10ECB 10EF0 11DF0 1D250"

/-- Every character that an identifier starts with. -/
def identifierStart : CharSet :=
  .unions [xidStart, newLetters, newestLetters]

/-- Every character that an identifier has only after its start. -/
def identifierRest : CharSet :=
  .unions [xidContinueOnly, newMarks, newDigits, newestMarks]

/-- Whether version 18 has identifiers that start with the character. -/
def startsIdentifier (c : Char) : Bool :=
  if c.toNat < 128 then c.isAlpha else identifierStart.has c

/-- Whether version 18 has identifiers that the character stands in. -/
def continuesIdentifier (c : Char) : Bool :=
  startsIdentifier c ||
    if c.toNat < 128 then c.isDigit || c = '_' else identifierRest.has c

/-- The identifiers of version 18. -/
instance version18 : Xid where
  isXidStart := startsIdentifier
  isXidContinue := continuesIdentifier

theorem toNat_lt_of_isAlphanum {c : Char} (h : c.isAlphanum = true) : c.toNat < 128 := by
  have hranges : (decide ('A'.val ≤ c.val ∧ c.val ≤ 'Z'.val) ||
      ('a'.val ≤ c.val && c.val ≤ 'z'.val) || ('0'.val ≤ c.val && c.val ≤ '9'.val)) = true := h
  simp only [Bool.or_eq_true, Bool.and_eq_true, decide_eq_true_eq] at hranges
  have hlast : ∀ {last : UInt32}, c.val ≤ last → last.toNat < 128 → c.toNat < 128 :=
    fun hle hlt => Nat.lt_of_le_of_lt (UInt32.le_iff_toNat_le.1 hle) hlt
  rcases hranges with (⟨_, hupper⟩ | ⟨_, hlower⟩) | ⟨_, hdigit⟩
  · exact hlast hupper (by decide)
  · exact hlast hlower (by decide)
  · exact hlast hdigit (by decide)

theorem startsIdentifier_of_isAlpha {c : Char} (h : c.isAlpha = true) :
    startsIdentifier c = true := by
  have hlt : c.toNat < 128 := toNat_lt_of_isAlphanum (by rw [Char.isAlphanum, h, Bool.true_or])
  rw [startsIdentifier, if_pos hlt, h]

theorem continuesIdentifier_of_starts {c : Char} (h : startsIdentifier c = true) :
    continuesIdentifier c = true := by
  rw [continuesIdentifier, h, Bool.true_or]

/-- Version 18 is as any is relied on to be. -/
theorem ascii_version18 : Xid.Ascii where
  continues _ := continuesIdentifier_of_starts
  underscore := by decide
  letter _ h := continuesIdentifier_of_starts (startsIdentifier_of_isAlpha h)
  digit c h := by
    have hlt : c.toNat < 128 := toNat_lt_of_isAlphanum (by rw [Char.isAlphanum, h, Bool.or_true])
    simp [isXidContinue, continuesIdentifier, hlt, h]
  starts _ := startsIdentifier_of_isAlpha
  only c hlt h := by
    simpa [isXidContinue, continuesIdentifier, startsIdentifier, hlt, Char.isAlphanum,
      or_assoc] using h

/-! ## 4. Blanks -/

/-- Whether the character is a blank or a line break. -/
def isBlank (c : Char) : Bool :=
  whiteSpace.has c

/-! ## 5. What can be shown -/

/-- The characters that are shown on the one before them. The voiced sound marks of half width are
    shown by themselves. -/
def attachedMarks : CharSet :=
  (graphemeExtend.union (newMarks.diff newSpacingMarks)).diff (.ofTable "FF9E-FF9F")

/-- Whether the character is shown on the one before it. -/
def isGraphemeExtend (c : Char) : Bool :=
  0x300 ≤ c.toNat && attachedMarks.has c

/-- Letters that only hold a place and are not shown. -/
def fillers : CharSet := .ofTable "115F-1160 3164 FFA0"

/-- The characters without a shape of their own: controls, invisible formatting, fillers, blanks
    other than the space, and code points without a character. -/
def unprintable : CharSet :=
  (CharSet.unions [Category.union [.control, .format, .privateUse, .lineSeparator,
    .paragraphSeparator, .spaceSeparator], fillers, unassigned]).diff
    (.unions [.singleton ' ', newLetters, newMarks, newDigits, newSymbols])

/-- Whether the character has a shape of its own. -/
def isPrintable (c : Char) : Bool :=
  if c.toNat < 128 then 32 ≤ c.toNat && c.toNat < 127 else !unprintable.has c

end Ebnf.Unicode
