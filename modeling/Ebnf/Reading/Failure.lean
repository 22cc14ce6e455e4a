import Ebnf.Grammar.Expr

/-!
# Why a text cannot be read

`ReadError` lists the reasons, with what is said about each (`ReadError.message`).
-/

namespace Ebnf

/-- Why a text cannot be read. -/
inductive ReadError where
  /-- A pattern of the model, or the pattern of what is passed over, is no regular expression. -/
  | invalidPattern (pattern message : String)
  /-- The model has no root to start from. -/
  | noRoot
  /-- The text is no instance of the root. The offset is the farthest point that was reached, and
      what is listed would have been accepted there. -/
  | noMatch (entity : Name) (offset : Nat) (expected : List String)
  /-- The text goes on after the root. -/
  | trailingInput (offset : Nat)
  /-- The text could not be read, and an entity was too deep to be looked for. -/
  | depthLimit (entity : Name) (limit : Nat)
deriving DecidableEq, Repr

/-- What is said about an error. -/
def ReadError.message : ReadError → String
  | invalidPattern pattern message => "Invalid pattern `" ++ pattern ++ "`: " ++ message
  | noRoot => "Model has no root entity"
  | noMatch entity offset expected =>
    "No match for `" ++ entity ++ "` at offset " ++ toString offset ++ ": expected " ++
      " or ".intercalate expected
  | trailingInput offset => "Unconsumed input at offset " ++ toString offset
  | depthLimit entity limit =>
    "Depth limit of " ++ toString limit ++ " exceeded while parsing `" ++ entity ++ "`"

instance : ToString ReadError where
  toString := ReadError.message

end Ebnf
