import Ebnf.Regex.Error
import Ebnf.Regex.Ast
import Ebnf.Unicode.Age
import Ebnf.Unicode.Boundary
import Ebnf.Unicode.Property
import Ebnf.Unicode.Script

/-!
# Classes by name

The characters that a property or the name of a class stands for.

* `asciiClass?`: classes of the first 128 characters, such as `alpha`;
* `ShortClass.chars`, `ShortClass.asciiChars`: the classes with a letter of their own;
* `PropertyQuery.chars`: properties, by a name alone or with a value. Names are compared without
  regard to case, blanks, dashes and underscores, and to `is` at the front (`normalName`).
-/

namespace Ebnf.Regex

open Unicode (CharSet Category)

/-! ## 1. Classes of the first 128 characters -/

/-- The named classes of the first 128 characters. -/
def asciiClasses : List (String × String) := [
  ("alnum", "30-39 41-5A 61-7A"),
  ("alpha", "41-5A 61-7A"),
  ("ascii", "0-7F"),
  ("blank", "9 20"),
  ("cntrl", "0-1F 7F"),
  ("digit", "30-39"),
  ("graph", "21-7E"),
  ("lower", "61-7A"),
  ("print", "20-7E"),
  ("punct", "21-2F 3A-40 5B-60 7B-7E"),
  ("space", "9-D 20"),
  ("upper", "41-5A"),
  ("word", "30-39 41-5A 5F 61-7A"),
  ("xdigit", "30-39 41-46 61-66")]

/-- The class of the first 128 characters with the given name. -/
def asciiClass? (name : String) : Option CharSet :=
  (asciiClasses.lookup name).map .ofTable

/-! ## 2. Classes with a letter of their own -/

/-- The characters that words are made of. -/
def wordChars : CharSet :=
  .unions [Unicode.alphabetic, Category.union [.nonspacingMark, .spacingMark, .enclosingMark,
    .decimalNumber, .connectorPunctuation], .ofTable "200C-200D"]

/-- Whether words are made of the character. -/
def isWordChar (c : Char) : Bool :=
  if c.toNat < 128 then c.isAlphanum || c = '_' else wordChars.has c

/-- Whether words of the first 128 characters are made of the character. -/
def isAsciiWordChar (c : Char) : Bool :=
  c.isAlphanum || c = '_'

/-- The characters of a class. -/
def ShortClass.chars : ShortClass → CharSet
  | digit => (Category.decimalNumber).chars
  | space => Unicode.whiteSpace
  | word => wordChars

/-- The characters of a class among the first 128. -/
def ShortClass.asciiChars : ShortClass → CharSet
  | digit => .ofTable "30-39"
  | space => .ofTable "9-D 20"
  | word => .ofTable "30-39 41-5A 5F 61-7A"

/-! ## 3. Names -/

/-- Drops blanks, dashes, underscores and what lies beyond the first 128 characters, and makes the
    rest lower case. -/
def plainName (cs : List Char) : List Char :=
  (cs.filter fun c => c ≠ ' ' ∧ c ≠ '-' ∧ c ≠ '_' ∧ c.toNat < 128).map Char.toLower

/-- The form in which names are compared. A leading `is` is dropped, unless only a `c` is left. -/
def normalName (s : String) : String :=
  match s.toList with
  | i :: t :: rest =>
    if i.toLower = 'i' ∧ t.toLower = 's' then
      match plainName rest with
      | ['c'] => "isc"
      | name => .ofList name
    else .ofList (plainName s.toList)
  | cs => .ofList (plainName cs)

example : normalName "Is_Upper-case" = "uppercase" := by decide

/-! ## 4. General categories -/

/-- Groups of general categories by their names. -/
def categoryTable : List (List String × List Category) := [
  (["lu", "uppercaseletter"], [.uppercaseLetter]),
  (["ll", "lowercaseletter"], [.lowercaseLetter]),
  (["lt", "titlecaseletter"], [.titlecaseLetter]),
  (["lm", "modifierletter"], [.modifierLetter]),
  (["lo", "otherletter"], [.otherLetter]),
  (["mn", "nonspacingmark"], [.nonspacingMark]),
  (["mc", "spacingmark"], [.spacingMark]),
  (["me", "enclosingmark"], [.enclosingMark]),
  (["nd", "decimalnumber", "digit"], [.decimalNumber]),
  (["nl", "letternumber"], [.letterNumber]),
  (["no", "othernumber"], [.otherNumber]),
  (["pc", "connectorpunctuation"], [.connectorPunctuation]),
  (["pd", "dashpunctuation"], [.dashPunctuation]),
  (["ps", "openpunctuation"], [.openPunctuation]),
  (["pe", "closepunctuation"], [.closePunctuation]),
  (["pi", "initialpunctuation"], [.initialPunctuation]),
  (["pf", "finalpunctuation"], [.finalPunctuation]),
  (["po", "otherpunctuation"], [.otherPunctuation]),
  (["sm", "mathsymbol"], [.mathSymbol]),
  (["sc", "currencysymbol"], [.currencySymbol]),
  (["sk", "modifiersymbol"], [.modifierSymbol]),
  (["so", "othersymbol"], [.otherSymbol]),
  (["zs", "spaceseparator"], [.spaceSeparator]),
  (["zl", "lineseparator"], [.lineSeparator]),
  (["zp", "paragraphseparator"], [.paragraphSeparator]),
  (["cc", "control", "cntrl"], [.control]),
  (["cf", "format"], [.format]),
  (["co", "privateuse"], [.privateUse]),
  (["lc", "casedletter"], [.uppercaseLetter, .lowercaseLetter, .titlecaseLetter]),
  (["l", "letter"],
    [.uppercaseLetter, .lowercaseLetter, .titlecaseLetter, .modifierLetter, .otherLetter]),
  (["m", "mark", "combiningmark"], [.nonspacingMark, .spacingMark, .enclosingMark]),
  (["n", "number"], [.decimalNumber, .letterNumber, .otherNumber]),
  (["p", "punctuation", "punct"],
    [.connectorPunctuation, .dashPunctuation, .openPunctuation, .closePunctuation,
      .initialPunctuation, .finalPunctuation, .otherPunctuation]),
  (["s", "symbol"], [.mathSymbol, .currencySymbol, .modifierSymbol, .otherSymbol]),
  (["z", "separator"], [.spaceSeparator, .lineSeparator, .paragraphSeparator])]

/-- The characters of a general category, or of a group of them. -/
def category? (name : String) : Option CharSet :=
  match categoryTable.find? (·.1.contains name) with
  | some (_, cs) => some (Category.union cs)
  | none =>
    match name with
    | "any" => some .univ
    | "ascii" => some .ascii
    | "assigned" => some Unicode.unassigned.complement
    | "cn" | "unassigned" => some Unicode.unassigned
    | "c" | "other" =>
      some (.unions [Category.union [.control, .format, .privateUse], Unicode.unassigned])
    | _ => none

/-! ## 5. Scripts -/

/-- The characters of a script. -/
def script? (name : String) : Option CharSet :=
  (Unicode.scriptTable.find? (·.1.contains name)).map (.ofTable ·.2)

/-- The characters used with a script. -/
def scriptExtension? (name : String) : Option CharSet :=
  (Unicode.scriptTable.find? (·.1.contains name)).map fun (names, own) =>
    match Unicode.scriptExtensionTable.find? (names.contains ·.1) with
    | some (_, shared) => .ofTable shared
    | none => .ofTable own

/-! ## 6. Properties -/

/-- Names that stand for a category or a script though they are the names of properties too. -/
def ambiguousNames : List String := ["cf", "sc", "lc"]

/-- The characters that a name stands for: those with the property of that name, in the category of
    that name or of the script of that name, whichever comes first. -/
def namedChars? (name : String) : Option CharSet :=
  let property := if ambiguousNames.contains name then none else Unicode.booleanProperty? name
  (property.or (category? name)).or (script? name)

/-- The characters for which a property has a value. An age stands for all characters up to it. -/
def valuedChars? (name value : String) : Option CharSet :=
  let among (values : List (List String × CharSet)) : Option CharSet :=
    (values.find? (·.1.contains value)).map (·.2)
  match name with
  | "generalcategory" | "gc" => category? value
  | "script" | "sc" => script? value
  | "scriptextensions" | "scx" => scriptExtension? value
  | "age" => Unicode.assignedBy? value
  | "graphemeclusterbreak" | "gcb" => among Unicode.clusterBreaks
  | "wordbreak" | "wb" => among Unicode.wordBreaks
  | "sentencebreak" | "sb" => among Unicode.sentenceBreaks
  | _ => none

/-- The characters with a property. -/
def PropertyQuery.chars (q : PropertyQuery) : Except PatternError CharSet :=
  let found := match q with
    | named name => namedChars? (normalName name)
    | valued name value => valuedChars? (normalName name) (normalName value)
  match found with
  | some s => .ok s
  | none => .error .unknownProperty

end Ebnf.Regex
