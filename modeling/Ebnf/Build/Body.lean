import Ebnf.Build.Draft
import Ebnf.Build.Naming
import Ebnf.Text.Identifier

/-!
# Actions and properties of a rule

The second stage of building a model: the expression of every rule becomes a tree of actions, and
its leaves that yield a value get a property.

* A chain of choices or sequences becomes one action with all its parts as children; optional and
  repeated expressions mark the action of what they hold; groups leave no trace.
* References and patterns always yield a value. A literal does if it has a label, if it may be
  missing, or if it is the whole rule; one that may be missing yields a flag.
* `compile` is the stage for one expression, `bodies` for all entities.
-/

namespace Ebnf.Build

/-! ## 1. Where an expression stands -/

/-- What is around the expression in hand. -/
structure Place where
  /-- Whether it may be missing: it is inside an optional or a branch of a choice. -/
  optional : Bool
  /-- Whether it is the whole rule, up to groups. -/
  whole : Bool
deriving DecidableEq, Repr

namespace Place

/-- The place of a whole rule. -/
def top : Place := ⟨false, true⟩

/-- A place inside another. -/
def nested (p : Place) : Place := { p with whole := false }

/-- A place inside another that may be missing. -/
def branch (_p : Place) : Place := ⟨true, false⟩

end Place

/-! ## 2. Leaves -/

/-- The label of a literal that is read without keeping anything. -/
def discardLabel : Name := "_"

/-- The name of the property of a literal, if it yields a value. -/
def literalName? [Unicode.Xid] (entity : Name) (label : Option Name) (text : String)
    (place : Place) :
    Option Name :=
  match label with
  | some label => if label = discardLabel then none else some (Text.identifier label)
  | none =>
    if place.optional then some (Text.witnessName text)
    else if place.whole then some entity
    else none

/-- The name that a label asks for, or the given one without a label. -/
def labelOr [Unicode.Xid] (label : Option Name) (name : Name) : Name :=
  match label with
  | some label => Text.identifier label
  | none => name

/-- Adds an action. -/
def addNode (kind : ActionKind) : Build ActionId :=
  change fun m => m.addAction { kind }

/-- Marks an action. -/
def markAction (id : ActionId) (f : Action → Action) : Build Unit :=
  update fun m => m.modifyAction id f

/-- Makes a property of the entity in hand for what an action reads. -/
def attach (entity name : Name) (source : ActionId) : Build Unit := do
  tell (.propertyMade entity name source)
  let id ← change fun m => m.addProperty { name, entity, source }
  modify fun d => { d with attached := d.attached ++ [(name, id)] }

/-! ## 3. Expressions -/

mutual

/-- The action of an expression in a rule of the given entity. -/
def compile [Unicode.Xid] (entity : Name) (place : Place) : Expr → Build ActionId
  | .literal label text => do
    let id ← addNode (.literal text)
    match literalName? entity label text place with
    | none => return id
    | some name =>
      -- the text of a literal is fixed; what varies is whether it was there
      markAction id fun a => { a with isWitness := place.optional }
      attach entity name id
      return id
  | .reference label target => do
    if !(← model).contains target then throw (.error (.unknownReference entity target))
    let id ← addNode (.entity target)
    attach entity (labelOr label target) id
    return id
  | .pattern label source => do
    let id ← addNode (.pattern source)
    attach entity (labelOr label entity) id
    return id
  | .optional inner => do
    let id ← compile entity place.branch inner
    markAction id fun a => { a with isOptional := true }
    return id
  | .repetition inner => do
    let id ← compile entity place.nested inner
    markAction id fun a => { a with isPlural := true }
    return id
  | .group inner => compile entity place inner
  | .choice left right => do
    let first ← compileBranches entity place.branch left
    let others ← compileBranches entity place.branch right
    addNode (.any (first ++ others))
  | .sequence left right => do
    let first ← compileMembers entity place.nested left
    let others ← compileMembers entity place.nested right
    addNode (.all (first ++ others))
termination_by e => (sizeOf e, 0)

/-- The actions of the branches of a choice, or that of an expression that is its only branch. -/
def compileBranches [Unicode.Xid] (entity : Name) (place : Place) : Expr → Build (List ActionId)
  | .choice left right => do
    let first ← compileBranches entity place left
    let others ← compileBranches entity place right
    return first ++ others
  | e => return [← compile entity place e]
termination_by e => (sizeOf e, 1)

/-- The actions of the members of a sequence, or that of an expression that is its only member. -/
def compileMembers [Unicode.Xid] (entity : Name) (place : Place) : Expr → Build (List ActionId)
  | .sequence left right => do
    let first ← compileMembers entity place left
    let others ← compileMembers entity place right
    return first ++ others
  | e => return [← compile entity place e]
termination_by e => (sizeOf e, 1)

end

/-! ## 4. Entities -/

/-- Gives the properties made for an entity names that differ. -/
def nameProperties (attached : List (Name × PropertyId)) : Build PropertyMap := do
  let named := (distinctNames (attached.map Prod.fst)).zip (attached.map Prod.snd)
  named.forM fun (name, id) => update fun m => m.renameProperty id name
  return named

/-- Makes the actions and properties of an entity from the expression of its rule. -/
def body [Unicode.Xid] (entity : Name) (e : Expr) : Build Unit := do
  modify fun d => { d with attached := [] }
  let action ← compile entity .top e
  let properties ← nameProperties (← get).attached
  setModel ((← model).modifyEntity entity fun o => { o with action := some action, properties })

/-- Makes the actions and properties of an entity that has a rule. -/
def bodyOf [Unicode.Xid] (e : Entity) : Build Unit :=
  match e.rule with
  | none => return
  | some r => body e.name r.body

/-- Makes the actions and properties of every entity that has a rule. -/
def bodies [Unicode.Xid] : Build Unit := do
  (← model).entities.forM bodyOf

end Ebnf.Build
