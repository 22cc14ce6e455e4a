import Ebnf.Build.Draft
import Ebnf.Model.Attributes
import Ebnf.Model.Hierarchy

/-!
# Special cases among entities

The fourth stage of building a model. An entity that is one of several others, or that holds just
one other, has them as its subs. The walk starts at the root, follows references in the order in
which they stand, and looks at each entity once.

* `discover`: the links of one entity, and where the walk goes on from there;
* `walk`: the walk over a list of names still to be looked at;
* `hierarchy`: the stage as a whole.
-/

namespace Ebnf.Build

/-- Links a sub, unless the link is superfluous or would lead in a circle. -/
def registerSub (parent child : Name) : Build Unit := do
  match (← model).register? parent child with
  | some m =>
    setModel m
    tell (.subFound parent child)
  | none => tell (.subSkipped parent child)

/-- Whether the whole rule of an entity is a single text. -/
def wrapsTerminal (m : Model) (name : Name) : Checked Bool :=
  match (m.entity? name).bind Entity.action with
  | none => .ok false
  | some id => return (← m.action id).isValueTerminal

/-- Every entity that the properties refer to, in order. -/
def allReferences (m : Model) (ids : List PropertyId) : Checked (List Name) :=
  List.flatten <$> ids.mapM m.referencedEntities

/-- Links the subs of an entity, and gives the entities to look at next. An entity has subs if its
    only property is not plural and either stands for the branches of a choice or is filled by a
    reference; a reference to a mere text makes no further link for an entity that has supers. -/
def discover (e : Entity) : Build (List Name) := do
  let m ← model
  match e.properties.ids with
  | [only] =>
    if ← check (m.isPlural only) then check (allReferences m [only])
    else
      let p ← check (m.property only)
      if p.isProxy then
        let targets ← check (m.referencedEntities only)
        targets.forM (registerSub e.name)
        return targets
      else
        let some target := (← check (m.action p.source)).target? | return []
        if (← check (wrapsTerminal m target)) && !e.supers.isEmpty then return []
        registerSub e.name target
        return [target]
  | ids => check (allReferences m ids)

/-- Looks at the entities on a stack and at those they lead to. `names` are the entities there are,
    `visited` those already looked at. -/
def walk (names visited : List Name) : List Name → Build Unit
  | [] => return
  | name :: rest =>
    if _h : name ∉ visited ∧ name ∈ names then do
      match (← model).entity? name with
      | none => walk names visited rest
      | some e =>
        let next ← discover e
        walk names (name :: visited) (next ++ rest)
    else walk names visited rest
termination_by stack => (unseen names visited, stack.length)
decreasing_by
  · exact Prod.Lex.right _ (by simp)
  · exact Prod.Lex.left _ _
      (unseen_lt (fun n hn => List.mem_cons_of_mem _ hn) _h.2 _h.1 (by simp))
  · exact Prod.Lex.right _ (by simp)

/-- Links the subs of every entity that the root leads to. -/
def hierarchy : Build Unit := do
  let m ← model
  match m.root with
  | none => return
  | some root => walk m.names [] [root]

end Ebnf.Build
