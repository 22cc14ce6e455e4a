import Ebnf.Unicode.Character

/-!
# Quoted texts

A text in double quotes, in which every character that cannot be shown as itself is escaped. Each
character becomes either itself or a backslash and a name for it, so the text can be read back.

* `escapeChar`: how one character is written;
* `quote`: the whole text with its quotation marks.
-/

namespace Ebnf.Text

/-! ## 1. One character -/

/-- The hexadecimal digits of a number, lower case, without leading zeros. -/
def lowerHex (n : Nat) : List Char :=
  Nat.toDigits 16 n

/-- A character as it stands between quotation marks. The quotation mark, the backslash, the null
    character and the usual blanks have names of one letter. A mark that attaches to the character
    before it, and a character without a shape, is written by its code point. -/
def escapeChar (c : Char) : List Char :=
  if c = '\x00' then ['\\', '0']
  else if c = '\t' then ['\\', 't']
  else if c = '\r' then ['\\', 'r']
  else if c = '\n' then ['\\', 'n']
  else if c = '\\' then ['\\', '\\']
  else if c = '"' then ['\\', '"']
  else if Unicode.isGraphemeExtend c || !Unicode.isPrintable c then
    '\\' :: 'u' :: '\x7b' :: (lowerHex c.toNat ++ ['\x7d'])
  else [c]

/-! ## 2. A whole text -/

/-- The characters of a text, each escaped. -/
def escape (cs : List Char) : List Char :=
  cs.flatMap escapeChar

/-- The text between quotation marks. -/
def quote (s : String) : String :=
  .ofList ('"' :: (escape s.toList ++ ['"']))

example : quote "a\tb\"" = "\"a\\tb\\\"\"" := by decide

end Ebnf.Text
