import Ebnf.Model.Attributes
import Ebnf.Model.Tree
import Ebnf.Model.Unseen

/-!
# Types of values

What kind of value a property holds. A virtual entity has no values of its own: where it is referred
to, the type of its only property counts, and so on through further virtual entities. A way that
comes back to an entity on it ends with that entity.

* `ValueType`: a text, a flag, or an instance of an entity;
* `Model.actionType`, `Model.propertyType`: the type of what an action or a property yields, where
  it can be decided;
* `Model.effectiveType`: the type that an entity contributes where it is referred to.
-/

namespace Ebnf

/-! ## 1. Types -/

/-- The type of a value. -/
inductive ValueType where
  /-- A text that was read. -/
  | text
  /-- Whether a text was there. -/
  | boolean
  /-- An instance of an entity. -/
  | entity (name : Name)
deriving DecidableEq, Repr

/-- The name of a type. -/
def ValueType.render : ValueType → String
  | text => "string"
  | boolean => "bool"
  | entity name => name

instance : ToString ValueType where
  toString := ValueType.render

namespace Model

/-! ## 2. Deciding a type -/

/-- The type on which all branches of a choice agree. -/
def commonType? : List (Option ValueType) → Option ValueType
  | some t :: rest => if rest.all (· = some t) then some t else none
  | _ => none

/-- The tree that yields the value for which a virtual entity stands. -/
def wrappedTree? (m : Model) (name : Name) : Checked (Option ActionTree) :=
  match (m.entity? name).bind (·.properties.ids.head?) with
  | none => .ok none
  | some only => do
    let p ← m.property only
    return some (← m.tree p.source)

mutual

/-- The type that an entity contributes where it is referred to, on a way through the virtual
    entities in `seen`. -/
def entityType (m : Model) (seen : List Name) (name : Name) : Checked ValueType :=
  match _h : m.isVirtual name with
  | .error fault => .error fault
  | .ok false => .ok (.entity name)
  | .ok true =>
    if name ∈ seen then .ok (.entity name)
    else do
      match ← m.wrappedTree? name with
      | none => return .entity name
      | some t => return (← m.treeType (name :: seen) t).getD (.entity name)
termination_by (unseen m.names seen, 0)
decreasing_by
  exact Prod.Lex.left _ _
    (unseen_lt (fun n hn => List.mem_cons_of_mem _ hn) (mem_names_of_isVirtual _h) ‹_› (by simp))

/-- The type of what a tree yields. A sequence has the type of its only member that yields anything;
    a choice has the type on which its branches agree, or else that of the entity whose property it
    fills. -/
def treeType (m : Model) (seen : List Name) : ActionTree → Checked (Option ValueType)
  | .node _ a p children =>
    match a.kind with
    | .literal _ => .ok (some (if a.isWitness then .boolean else .text))
    | .pattern _ => .ok (some .text)
    | .entity target => some <$> m.entityType seen target
    | .all _ => m.soleType seen none children
    | .any _ => do
      let types ← m.branchTypes seen children
      return (commonType? types).or (p.map fun p => .entity p.entity)
termination_by t => (unseen m.names seen, sizeOf t)

/-- The type of the only tree in a list that yields anything, after `found` was yielded before. A
    leaf that fills no property yields nothing. -/
def soleType (m : Model) (seen : List Name) (found : Option ValueType) :
    List ActionTree → Checked (Option ValueType)
  | [] => .ok found
  | t :: rest => do
    let type ← if t.action.isLeaf && t.action.property.isNone then .ok none
      else m.treeType seen t
    match type, found with
    | none, _ => m.soleType seen found rest
    | some type, none => m.soleType seen (some type) rest
    | some _, some _ => return none
termination_by ts => (unseen m.names seen, sizeOf ts)

/-- The types of the branches of a choice. -/
def branchTypes (m : Model) (seen : List Name) :
    List ActionTree → Checked (List (Option ValueType))
  | [] => .ok []
  | t :: rest => do
    let type ← if t.action.isLeaf && t.action.property.isNone then .ok none
      else m.treeType seen t
    return type :: (← m.branchTypes seen rest)
termination_by ts => (unseen m.names seen, sizeOf ts)

end

/-! ## 3. The types of a model -/

/-- The type of what an action yields, where it can be decided. -/
def actionType (m : Model) (id : ActionId) : Checked (Option ValueType) := do
  m.treeType [] (← m.tree id)

/-- The type of the values of a property, where it can be decided. -/
def propertyType (m : Model) (id : PropertyId) : Checked (Option ValueType) := do
  m.actionType (← m.property id).source

/-- The type that an entity contributes where it is referred to. -/
def effectiveType (m : Model) (name : Name) : Checked ValueType :=
  m.entityType [] name

end Model

end Ebnf
