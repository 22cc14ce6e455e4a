import Ebnf.Model.Hierarchy

/-!
# Checking a model

A model that was edited by hand can break the rules that its readers rely on. `Model.issues` lists
every violation (`Issue`), in a fixed order: first the root, then the actions, then entity by entity
its action, its properties, its links and its place in the hierarchy.
-/

namespace Ebnf

/-! ## 1. Issues -/

/-- A rule that a model breaks. -/
inductive Issue where
  /-- There are entities, but none is the root. -/
  | missingRoot
  /-- The root is no entity. -/
  | unknownRoot (root : Name)
  /-- An entity has no action. -/
  | missingAction (entity : Name)
  /-- An action reads an entity that does not exist. -/
  | unknownTarget (entity target : Name)
  /-- An entity lists a property under another name than the property has. -/
  | misnamedProperty (entity key name : Name)
  /-- The action that should fill a property is not linked to it. -/
  | detachedProperty (entity property : Name)
  /-- A link between a super and its sub is noted on one side only. -/
  | asymmetricEdge (parent child : Name)
  /-- An entity is a special case of itself. -/
  | inheritanceCycle (entity : Name)
deriving DecidableEq, Repr

/-- What is said about an issue. -/
def Issue.message : Issue → String
  | missingRoot => "model has entities but no root"
  | unknownRoot root => "root `" ++ root ++ "` is not an entity"
  | missingAction entity => "entity `" ++ entity ++ "` has no parse action"
  | unknownTarget entity target =>
    "entity `" ++ entity ++ "` consumes unknown entity `" ++ target ++ "`"
  | misnamedProperty entity key name =>
    "entity `" ++ entity ++ "` stores property `" ++ name ++ "` under `" ++ key ++ "`"
  | detachedProperty entity property =>
    "property `" ++ entity ++ "." ++ property ++ "` is not linked from its source action"
  | asymmetricEdge parent child =>
    "inheritance edge `" ++ parent ++ "` -> `" ++ child ++ "` is recorded on one side only"
  | inheritanceCycle entity => "entity `" ++ entity ++ "` inherits from itself"

instance : ToString Issue where
  toString := Issue.message

namespace Model

/-! ## 2. The checks -/

/-- What is wrong with the root. -/
def rootIssues (m : Model) : List Issue :=
  match m.root with
  | none => if m.entities.isEmpty then [] else [.missingRoot]
  | some root => if root ∈ m.names then [] else [.unknownRoot root]

/-- What is wrong with the target of an action. The entity blamed is the one whose property the
    action fills; for an action that fills none, it is left blank. -/
def targetIssues (m : Model) (a : Action) : Checked (List Issue) :=
  match a.target? with
  | none => .ok []
  | some target =>
    if target ∈ m.names then .ok []
    else match a.property with
      | none => .ok [.unknownTarget "" target]
      | some id => return [.unknownTarget (← m.property id).entity target]

/-- Whether the action that should fill a property is not linked to it. -/
def isDetached (m : Model) (id : PropertyId) (p : Property) : Checked Bool :=
  return (← m.action p.source).property ≠ some id

/-- What is wrong with a property that an entity lists under `key`. -/
def propertyIssues (m : Model) (entity key : Name) (id : PropertyId) : Checked (List Issue) := do
  let p ← m.property id
  let misnamed := if p.name ≠ key then [.misnamedProperty entity key p.name] else []
  let detached := if ← m.isDetached id p then [.detachedProperty entity p.name] else []
  let below ← p.subsumed.mapM fun sub => do
    let q ← m.property sub
    return if ← m.isDetached sub q then [Issue.detachedProperty entity q.name] else []
  return misnamed ++ detached ++ below.flatten

/-- The links of an entity that the other side does not know of. -/
def edgeIssues (m : Model) (e : Entity) : List Issue :=
  let lost (names : List Name) (other : Entity → List Name) : List Name :=
    names.filter fun n => !(m.entity? n).any fun o => e.name ∈ other o
  (lost e.subs Entity.supers).map (.asymmetricEdge e.name) ++
    (lost e.supers Entity.subs).map (.asymmetricEdge · e.name)

/-- What is wrong with an entity. -/
def entityIssues (m : Model) (e : Entity) : Checked (List Issue) := do
  let action := if e.action.isNone then [.missingAction e.name] else []
  let properties ← e.properties.mapM fun (key, id) => m.propertyIssues e.name key id
  let cycle := if m.isA e.name e.name then [.inheritanceCycle e.name] else []
  return action ++ properties.flatten ++ m.edgeIssues e ++ cycle

/-- Every rule that the model breaks. -/
def issues (m : Model) : Checked (List Issue) := do
  let targets ← m.actions.toList.mapM m.targetIssues
  let entities ← m.entities.mapM m.entityIssues
  return m.rootIssues ++ targets.flatten ++ entities.flatten

end Model

end Ebnf
