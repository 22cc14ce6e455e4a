import Ebnf.Text.Quoted

/-!
# JSON texts

The values that an export is made of, and their indented form: two blanks more for each level, one
item or field a line, and a blank after the colon of a field. An empty list or object takes no line
of its own.

* `Json`: values without numbers;
* `Json.stringLiteral`: a text in quotation marks;
* `Json.render`: a value as text.
-/

namespace Ebnf

/-- A JSON value. The fields of an object keep their order. -/
inductive Json where
  /-- Nothing. -/
  | null
  /-- A truth value. -/
  | bool (b : Bool)
  /-- A text. -/
  | string (s : String)
  /-- Values in order. -/
  | array (items : List Json)
  /-- Values under names, in order. -/
  | object (fields : List (String × Json))

namespace Json

/-! ## 1. Texts -/

/-- The two last digits of an escape `\u00xx`. -/
def controlDigits (n : Nat) : List Char :=
  [Nat.digitChar (n / 16), Nat.digitChar (n % 16)]

/-- A character as it stands in a string literal: the quotation mark, the backslash and the control
    characters below the blank are escaped, everything else is written as it is. -/
def escapeChar (c : Char) : List Char :=
  if c = '"' then ['\\', '"']
  else if c = '\\' then ['\\', '\\']
  else if c = '\x08' then ['\\', 'b']
  else if c = '\x0c' then ['\\', 'f']
  else if c = '\n' then ['\\', 'n']
  else if c = '\r' then ['\\', 'r']
  else if c = '\t' then ['\\', 't']
  else if c.toNat < 32 then '\\' :: 'u' :: '0' :: '0' :: controlDigits c.toNat
  else [c]

/-- A text in quotation marks. -/
def stringLiteral (s : String) : List Char :=
  '"' :: (s.toList.flatMap escapeChar ++ ['"'])

/-! ## 2. Values -/

/-- A new line with the given number of blanks. -/
def newline (indent : Nat) : List Char :=
  '\n' :: List.replicate indent ' '

mutual

/-- A value whose first line is indented by the given number of blanks. -/
def chars (indent : Nat) : Json → List Char
  | null => "null".toList
  | bool b => if b then "true".toList else "false".toList
  | string s => stringLiteral s
  | array [] => ['[', ']']
  | array (v :: items) =>
    '[' :: (newline (indent + 2) ++ chars (indent + 2) v ++ itemChars (indent + 2) items ++
      newline indent ++ [']'])
  | object [] => ['\x7b', '\x7d']
  | object ((name, v) :: fields) =>
    '\x7b' :: (newline (indent + 2) ++ stringLiteral name ++ [':', ' '] ++
      chars (indent + 2) v ++ fieldChars (indent + 2) fields ++ newline indent ++ ['\x7d'])

/-- The items after the first, each on a line of its own. -/
def itemChars (indent : Nat) : List Json → List Char
  | [] => []
  | v :: items => ',' :: (newline indent ++ chars indent v ++ itemChars indent items)

/-- The fields after the first, each on a line of its own. -/
def fieldChars (indent : Nat) : List (String × Json) → List Char
  | [] => []
  | (name, v) :: fields =>
    ',' :: (newline indent ++ stringLiteral name ++ [':', ' '] ++ chars indent v ++
      fieldChars indent fields)

end

/-- A value as indented text. -/
def render (v : Json) : String :=
  .ofList (v.chars 0)

example : render (.object [("a", .array [.null, .string "\n"])]) =
    "\x7b\n  \"a\": [\n    null,\n    \"\\n\"\n  ]\n\x7d" := by decide

end Json

end Ebnf
