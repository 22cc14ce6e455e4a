import Ebnf.Model.Id
import Ebnf.Text.Quoted
import Ebnf.Grammar.Expr

/-!
# Events

What happens while a model is built and while a text is read, for those who want to follow it.

* `Event`: one step worth telling;
* `Event.level`, `Event.message`: how much it matters and how it is told.
-/

namespace Ebnf

/-- How much an event matters. -/
inductive Level where
  /-- A detail. -/
  | trace
  /-- The end of a stage. -/
  | debug
  /-- Something that was probably not meant. -/
  | warn
deriving DecidableEq, Repr

/-- A step in building a model or in reading a text. -/
inductive Event where
  /-- A rule was passed over because its name was taken. -/
  | duplicateRule (name : Name)
  /-- Every rule has its entity. -/
  | entitiesMade (count : Nat)
  /-- A property was made for what an action reads. -/
  | propertyMade (entity name : Name) (source : ActionId)
  /-- Every entity has its properties and actions. -/
  | bodiesMade (properties actions : Nat)
  /-- The properties of an entity were replaced by a proxy. -/
  | collapsed (entity : Name) (count : Nat)
  /-- A sub was found. -/
  | subFound (parent child : Name)
  /-- A possible sub was not linked. -/
  | subSkipped (parent child : Name)
  /-- The model is finished. -/
  | modelMade (root : Option Name) (virtuals : Nat)
  /-- The patterns of a model are ready for use. -/
  | patternsReady (root : Name) (count : Nat)
  /-- An entity is looked for. -/
  | entityTried (name : Name) (offset : Nat)
  /-- An entity lies too deep to be looked for. -/
  | tooDeep (name : Name)
  /-- The text goes on after the root. -/
  | textLeft (offset : Nat)
deriving DecidableEq, Repr

namespace Event

/-- How much an event matters. -/
def level : Event → Level
  | duplicateRule _ => .warn
  | entitiesMade _ => .debug
  | propertyMade _ _ _ => .trace
  | bodiesMade _ _ => .debug
  | collapsed _ _ => .trace
  | subFound _ _ => .trace
  | subSkipped _ _ => .trace
  | modelMade _ _ => .debug
  | patternsReady _ _ => .debug
  | entityTried _ _ => .trace
  | tooDeep _ => .trace
  | textLeft _ => .debug

/-- A name that may be missing. -/
def renderName? : Option Name → String
  | none => "None"
  | some name => "Some(" ++ Text.quote name ++ ")"

/-- How an event is told. -/
def message : Event → String
  | duplicateRule name =>
    "[FACTORY] Duplicate rule '" ++ name ++ "' ignored; keeping the first definition"
  | entitiesMade count => "[FACTORY] phase 0: " ++ toString count ++ " entities"
  | propertyMade entity name source =>
    "[SYNTH] " ++ entity ++ "." ++ name ++ " <- " ++ toString source
  | bodiesMade properties actions =>
    "[FACTORY] phase 1: " ++ toString properties ++ " properties, " ++ toString actions ++
      " actions"
  | collapsed entity count =>
    "[COLLAPSE] " ++ entity ++ " : " ++ toString count ++ " alternatives -> alternative"
  | subFound parent child => "[INHERIT] " ++ parent ++ " :> " ++ child
  | subSkipped parent child => "[INHERIT] " ++ parent ++ " :> " ++ child ++ " skipped"
  | modelMade root virtuals =>
    "[FACTORY] done: root=" ++ renderName? root ++ ", " ++ toString virtuals ++
      " virtual entities"
  | patternsReady root count =>
    "[RUNTIME] root=" ++ root ++ ", " ++ toString count ++ " patterns compiled"
  | entityTried name offset => "[RUNTIME] " ++ name ++ " at " ++ toString offset
  | tooDeep name => "[RUNTIME] depth limit at " ++ name
  | textLeft offset => "[RUNTIME] trailing input at " ++ toString offset

end Event

end Ebnf
