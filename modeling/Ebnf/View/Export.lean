import Ebnf.View.Basic
import Ebnf.Text.Utf8

/-!
# Exporting a model

A model is written in a format that the name of the file tells.

* `Format.ofPath?`: the format that belongs to a path;
* `Format.write`: the text of a model in a format;
* `Format.writeTo`: writing it where only so many bytes go.
-/

namespace Ebnf

/-! ## 1. Errors -/

/-- Why an export fails. -/
inductive ExportError where
  /-- The view cannot be written as JSON. -/
  | json (message : String)
  /-- The place to write to gave out. -/
  | io (message : String)
deriving DecidableEq, Repr

/-- What is said about an error. -/
def ExportError.message : ExportError → String
  | json message => "JSON error: " ++ message
  | io message => "IO error: " ++ message

instance : ToString ExportError where
  toString := ExportError.message

/-! ## 2. Formats -/

/-- A form in which a model can be written. -/
inductive Format where
  /-- Indented JSON. -/
  | json
deriving DecidableEq, Repr

namespace Format

/-- The name of a format. -/
def name : Format → String
  | json => "JSON"

/-- The file extensions of a format. -/
def extensions : Format → List String
  | json => ["json"]

/-- The media type of a format. -/
def mediaType : Format → String
  | json => "application/json"

/-- The file extensions for which there is a format. -/
def supportedExtensions : List String :=
  json.extensions

/-- The components of a path. Repeated slashes and single dots make no difference. -/
def components (path : String) : List (List Char) :=
  (path.toList.splitOn '/').filter fun c => c ≠ [] ∧ c ≠ ['.']

/-- What follows the last dot of a file name, if there is a dot and something before it. -/
def extensionOf? (file : List Char) : Option (List Char) :=
  let reversed := file.reverse
  match reversed.dropWhile (· ≠ '.') with
  | [] => none
  | [_] => none
  | _ => some (reversed.takeWhile (· ≠ '.')).reverse

/-- The extension of the file that a path names. A path that ends in `..` names no file. -/
def pathExtension? (path : String) : Option (List Char) :=
  match (components path).getLast? with
  | none => none
  | some file => if file = ['.', '.'] then none else extensionOf? file

/-- The format that belongs to a path, by its extension in either case. -/
def ofPath? (path : String) : Option Format :=
  match pathExtension? path with
  | none => none
  | some ext =>
    if String.ofList (ext.map Char.toLower) ∈ json.extensions then some json else none

example : ofPath? "out/m.JSON" = some json := by decide

example : ofPath? ".json" = none := by decide

/-! ## 3. Writing -/

/-- A model in the given format. -/
def write (m : Model) : Format → Checked String
  | json => ModelView.render <$> ModelView.ofModel m

/-- Writing a text where only so many bytes go: how many went there, and the error if that was not
    all. -/
def writeTo (capacity : Nat) (text : String) : Nat × Except ExportError Unit :=
  let length := Text.byteLength text.toList
  if length ≤ capacity then (length, .ok ())
  else (capacity, .error (.io "disk full"))

end Format

end Ebnf
