import Ebnf.Unicode.Character
import Ebnf.Text.Quoted

/-!
# Identifiers made from arbitrary texts

The texts of a grammar become names of properties, so they have to be turned into identifiers. Runs
of identifier characters are kept, punctuation is spelled out, blanks only separate, and anything
else is named by its code point; the pieces are joined with underscores. `<=` becomes
`less_than_equals`.

* `isIdentifier`: whether a text is an identifier;
* `identifier`: the identifier made from a text;
* `witnessName`: the name of the flag that tells whether an optional text was there.
-/

namespace Ebnf.Text

/-! ## 1. Which texts are identifiers -/

/-- Whether a list of characters is an identifier: a letter or an underscore first, then characters
    that may continue an identifier. -/
def isIdentifierChars [Unicode.Xid] : List Char → Bool
  | [] => false
  | c :: cs => (c = '_' || Unicode.isXidStart c) && cs.all Unicode.isXidContinue

/-- Whether a text is an identifier. -/
def isIdentifier [Unicode.Xid] (s : String) : Bool :=
  isIdentifierChars s.toList

/-! ## 2. The pieces of a name -/

/-- The word for a punctuation mark. -/
def punctuationWord? (c : Char) : Option String :=
  match c with
  | '(' => some "open_bracket"
  | ')' => some "close_bracket"
  | '[' => some "open_square_bracket"
  | ']' => some "close_square_bracket"
  | '\x7b' => some "open_curly_bracket"
  | '\x7d' => some "close_curly_bracket"
  | ':' => some "colon"
  | '=' => some "equals"
  | '&' => some "ampersand"
  | '<' => some "less_than"
  | '>' => some "greater_than"
  | '+' => some "plus"
  | '*' => some "star"
  | '!' => some "exclamation"
  | ';' => some "semicolon"
  | ',' => some "comma"
  | '.' => some "dot"
  | '-' => some "dash"
  | '|' => some "pipe"
  | '/' => some "slash"
  | '\\' => some "backslash"
  | '#' => some "hash"
  | '@' => some "at"
  | '?' => some "question"
  | '%' => some "percent"
  | '^' => some "caret"
  | '~' => some "tilde"
  | '$' => some "dollar"
  | '\'' => some "quote"
  | '"' => some "double_quote"
  | '\x60' => some "backtick"
  | _ => none

/-- Whether a character is kept as it is. -/
def isWordChar [Unicode.Xid] (c : Char) : Bool :=
  c = '_' || Unicode.isXidContinue c

/-- A character named by its code point: the letter `u` and at least four hexadecimal digits. -/
def codePointWord (c : Char) : List Char :=
  'u' :: (lowerHex c.toNat).leftpad 4 '0'

/-- What a character outside words contributes to a name: nothing for a blank, else one word. -/
def spell (c : Char) : List (List Char) :=
  if Unicode.isBlank c then []
  else match punctuationWord? c with
    | some word => [word.toList]
    | none => [codePointWord c]

/-- The pieces of a name, where `run` holds the word characters read since the last piece. -/
def pieces [Unicode.Xid] (run : List Char) : List Char → List (List Char)
  | [] => if run = [] then [] else [run]
  | c :: cs =>
    if isWordChar c then pieces (run ++ [c]) cs
    else (if run = [] then [] else [run]) ++ spell c ++ pieces [] cs

/-! ## 3. Names -/

/-- Makes the joined pieces an identifier: an underscore stands for no pieces, and one goes in
    front where the first character cannot start an identifier. -/
def repair [Unicode.Xid] (cs : List Char) : List Char :=
  if cs = [] then ['_']
  else if isIdentifierChars cs then cs
  else '_' :: cs

/-- The identifier made from a text. -/
def identifier [Unicode.Xid] (s : String) : String :=
  .ofList (repair (['_'].intercalate (pieces [] s.toList)))

/-- The name of the flag that tells whether an optional text was there. -/
def witnessName [Unicode.Xid] (text : String) : String :=
  identifier ("has " ++ text)

example : identifier "foo-bar" = "foo_dash_bar" := by decide

example : identifier "1st" = "_1st" := by decide

example : witnessName "->" = "has_dash_greater_than" := by decide

end Ebnf.Text
