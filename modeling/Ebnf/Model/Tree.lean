import Ebnf.Model.Basic

/-!
# Trees of actions

An action with everything below it, taken out of the arena (`Model.tree`). Each node keeps its id
and, where it fills a property, that property. Children are older than the action they belong to,
so the way down ends.
-/

namespace Ebnf

/-- An action with its children. -/
inductive ActionTree where
  /-- The action with the given id, the property it fills, and its children in order. -/
  | node (id : ActionId) (action : Action) (property : Option Property)
      (children : List ActionTree)

namespace ActionTree

/-- The id of the topmost action. -/
def id : ActionTree → ActionId
  | node id _ _ _ => id

/-- The topmost action. -/
def action : ActionTree → Action
  | node _ a _ _ => a

/-- The property that the topmost action fills. -/
def property : ActionTree → Option Property
  | node _ _ p _ => p

/-- The trees below the topmost action. -/
def children : ActionTree → List ActionTree
  | node _ _ _ ts => ts

end ActionTree

namespace Model

/-- The property that an action is linked to. -/
def linkedProperty (m : Model) (a : Action) : Checked (Option Property) :=
  match a.property with
  | none => .ok none
  | some id => some <$> m.property id

/-- The tree below an action. -/
def tree (m : Model) (id : ActionId) : Checked ActionTree := do
  let a ← m.action id
  let p ← m.linkedProperty a
  let children ← a.children.mapM fun child =>
    if child.index < id.index then m.tree child else .error (.noAction child.index)
  return .node id a p children
termination_by id.index

end Model

end Ebnf
