import Ebnf.Model.Attributes
import Ebnf.Model.Tree
import Ebnf.Reading.Engine
import Ebnf.Reading.Failure

/-!
# Programs

A model made ready for reading: its patterns are understood, and what has to be known of the links
is worked out for each entity. A program refers to the properties of an entity by their place among
its fields, so nothing in it depends on ids.

* `Op`: what to do to read something;
* `Procedure`: how an entity is read and what its fields are;
* `Program.ofModel`: the program of a model.
-/

namespace Ebnf

/-! ## 1. Instructions -/

/-- How often something is read. -/
structure Modifiers where
  /-- Whether it may be missing. -/
  optional : Bool
  /-- Whether it repeats. -/
  plural : Bool
deriving DecidableEq, Repr

/-- Where a value goes. -/
inductive Destination where
  /-- It is not kept. -/
  | nowhere
  /-- To a property that is no field of the entity at hand. -/
  | elsewhere
  /-- To the field with the given place. -/
  | field (place : Nat)
deriving DecidableEq, Repr

/-- Something that is read as a whole. -/
inductive Token where
  /-- A fixed text. A witness yields a flag in its place. -/
  | literal (text : String) (witness : Bool)
  /-- What a pattern finds. -/
  | pattern (source : String) (find : Matcher)
  /-- An entity. -/
  | entity (target : Name)

/-- What to do to read something. -/
inductive Op where
  /-- Read a token. -/
  | leaf (mods : Modifiers) (token : Token) (destination : Destination)
  /-- Do everything in order. -/
  | all (mods : Modifiers) (ops : List Op)
  /-- Do the first thing that succeeds. -/
  | any (mods : Modifiers) (ops : List Op)

/-- A field of the nodes of an entity. -/
structure Field where
  /-- Its name. -/
  name : Name
  /-- Whether it holds a list. -/
  isPlural : Bool
  /-- Whether it holds a flag that is false where nothing was read. -/
  isWitness : Bool
deriving DecidableEq, Repr

/-- How an entity is read. What cannot be worked out from the links stays a fault until it is
    needed. -/
structure Procedure where
  /-- What to do; an entity without an action is never found. -/
  body : Option (Checked Op)
  /-- The fields of its nodes in order. -/
  fields : Checked (List Field)
  /-- Whether the value of its first field stands for it. -/
  isVirtual : Checked Bool

/-- A model made ready for reading. -/
structure Program where
  /-- What a whole text is read as. -/
  root : Name
  /-- What may be passed over before every token. -/
  ignore : Option Matcher
  /-- How deep entities may be nested. -/
  maxDepth : Nat
  /-- How each entity is read. -/
  procedures : List (Name × Procedure)

/-- How an entity is read, if there is such an entity. -/
def Program.procedure? (p : Program) (name : Name) : Option Procedure :=
  p.procedures.lookup name

/-- How to read, apart from the model. -/
structure ReadConfig where
  /-- The pattern of what may be passed over before every token. -/
  ignore : Option String := some "\\s+"
  /-- How deep entities may be nested. -/
  maxDepth : Nat := 256
deriving DecidableEq, Repr

/-! ## 2. From a model to its program -/

/-- Patterns with their matchers. -/
abbrev Patterns := List (String × Matcher)

/-- Understands a pattern. -/
def Engine.anchoredOrError (engine : Engine) (pattern : String) : Except ReadError Matcher :=
  (engine.anchored pattern).mapError (.invalidPattern pattern)

/-- The pattern that an action reads. -/
def Action.pattern? (a : Action) : Option String :=
  match a.kind with
  | .pattern source => some source
  | _ => none

/-- The patterns of all actions in the order of their creation, with their matchers. -/
def Model.patterns (m : Model) (engine : Engine) : Except ReadError Patterns :=
  (m.actions.toList.filterMap Action.pattern?).mapM fun source =>
    return (source, ← engine.anchoredOrError source)

/-- Where the value of an action goes in the nodes of an entity with the given properties. -/
def Model.destination (m : Model) (ids : List PropertyId) (id : ActionId) (a : Action) :
    Checked Destination := do
  if a.property.isNone then return .nowhere
  match ← m.assignmentTarget id with
  | none => return .nowhere
  | some target =>
    return match ids.idxOf? target with
      | some place => .field place
      | none => .elsewhere

/-- What an action reads as a whole, unless it has parts. -/
def Action.token? (a : Action) (patterns : Patterns) : Option Token :=
  match a.kind with
  | .literal text => some (.literal text a.isWitness)
  | .pattern source => some (.pattern source ((patterns.lookup source).getD fun _ => none))
  | .entity target => some (.entity target)
  | _ => none

mutual

/-- What to do for a tree of actions. -/
def Op.ofTree (m : Model) (patterns : Patterns) (ids : List PropertyId) :
    ActionTree → Checked Op
  | .node id a _ children => do
    let mods := { optional := a.isOptional, plural := a.isPlural }
    match a.token? patterns with
    | some token => return .leaf mods token (← m.destination ids id a)
    | none =>
      let ops ← opsOfTrees m patterns ids children
      return if a.isChoice then .any mods ops else .all mods ops

/-- What to do for several trees. -/
def opsOfTrees (m : Model) (patterns : Patterns) (ids : List PropertyId) :
    List ActionTree → Checked (List Op)
  | [] => return []
  | t :: ts => return (← Op.ofTree m patterns ids t) :: (← opsOfTrees m patterns ids ts)

end

/-- The field that a property makes. -/
def Field.ofModel (m : Model) (id : PropertyId) : Checked Field := do
  let p ← m.property id
  let isPlural ← m.isPlural id
  let source ← m.action p.source
  return { name := p.name, isPlural, isWitness := source.isWitness }

/-- How an entity is read. -/
def Procedure.ofModel (m : Model) (patterns : Patterns) (e : Entity) : Procedure where
  body := e.action.map fun id => do Op.ofTree m patterns e.properties.ids (← m.tree id)
  fields := e.properties.ids.mapM (Field.ofModel m)
  isVirtual := m.isVirtual e.name

/-- The program of a model, and how many patterns it has. -/
def Program.ofModel (engine : Engine) (m : Model) (config : ReadConfig) :
    Except ReadError (Program × Nat) := do
  let some root := m.root | throw .noRoot
  let patterns ← m.patterns engine
  let ignore ← config.ignore.mapM engine.anchoredOrError
  let procedures := m.entities.map fun e => (e.name, Procedure.ofModel m patterns e)
  return ({ root, ignore, maxDepth := config.maxDepth, procedures }, patterns.length)

end Ebnf
