import Ebnf.Model.Basic

/-!
# Building up a model

The edits that a model is made with. Each adds one thing or changes one, and keeps the links
between the parts up to date:

* `Model.addEntity?` takes no name twice; the first entity becomes the root;
* `Model.addAction` makes the new action the parent of its children;
* `Model.addProperty` links the property from the action that fills it.

An edit that names an id outside the arenas is a fault.
-/

namespace Ebnf.Model

/-! ## 1. Entities -/

/-- The model with one more entity, or `none` if its name is taken. The first entity of a model
    becomes its root. -/
def addEntity? (m : Model) (e : Entity) : Option Model :=
  if m.contains e.name then none
  else some { m with entities := m.entities ++ [e], root := m.root.or (some e.name) }

/-- The model with the entity of the given name changed. -/
def modifyEntity (m : Model) (name : Name) (f : Entity → Entity) : Model :=
  { m with entities := m.entities.map fun e => if e.name = name then f e else e }

/-- The model with an entity in the place of the one of the same name. -/
def replaceEntity (m : Model) (e : Entity) : Model :=
  m.modifyEntity e.name fun _ => e

/-- A change that keeps the name of an entity keeps the names of the model. -/
theorem names_modifyEntity {m : Model} {name : Name} {f : Entity → Entity}
    (hf : ∀ e, e.name = name → (f e).name = name) : (m.modifyEntity name f).names = m.names := by
  simp only [names, modifyEntity, List.map_map]
  apply List.map_congr_left
  intro e _
  simp only [Function.comp]
  split
  · next h => exact (hf e h).trans h.symm
  · rfl

@[simp] theorem names_replaceEntity (m : Model) (e : Entity) :
    (m.replaceEntity e).names = m.names :=
  names_modifyEntity fun _ _ => rfl

/-- The model with `child` noted among the subs of `parent`, on that side only. -/
def addSub (m : Model) (parent child : Name) : Model :=
  m.modifyEntity parent fun e => { e with subs := insertName e.subs child }

/-- The model with `parent` noted among the supers of `child`, on that side only. -/
def addSuper (m : Model) (child parent : Name) : Model :=
  m.modifyEntity child fun e => { e with supers := insertName e.supers parent }

@[simp] theorem names_addSub (m : Model) (parent child : Name) :
    (m.addSub parent child).names = m.names :=
  names_modifyEntity fun _ h => h

@[simp] theorem names_addSuper (m : Model) (child parent : Name) :
    (m.addSuper child parent).names = m.names :=
  names_modifyEntity fun _ h => h

/-! ## 2. Actions -/

/-- The actions with one of them changed. -/
def modifyAt (actions : Array Action) (id : ActionId) (f : Action → Action) :
    Checked (Array Action) :=
  if id.index < actions.size then .ok (actions.modify id.index f)
  else .error (.noAction id.index)

/-- The model with one action changed. -/
def modifyAction (m : Model) (id : ActionId) (f : Action → Action) : Checked Model :=
  return { m with actions := ← modifyAt m.actions id f }

/-- The actions with `parent` noted as the parent of each of `children`. -/
def linkChildren (actions : Array Action) (parent : ActionId) :
    List ActionId → Checked (Array Action)
  | [] => .ok actions
  | child :: rest => do
    let linked ← modifyAt actions child fun a => { a with parent := some parent }
    linkChildren linked parent rest

/-- The model with one more action, which becomes the parent of its children; and its id. -/
def addAction (m : Model) (a : Action) : Checked (ActionId × Model) := do
  let id ← ActionId.ofIndex m.actions.size
  let linked ← linkChildren m.actions id a.children
  return (id, { m with actions := linked.push a })

/-! ## 3. Properties -/

/-- The model with one more property, which the action that fills it is linked to; and its id. -/
def addProperty (m : Model) (p : Property) : Checked (PropertyId × Model) := do
  let id ← PropertyId.ofIndex m.properties.size
  let linked ← m.modifyAction p.source fun a => { a with property := some id }
  return (id, { linked with properties := linked.properties.push p })

/-- The model with a property given another name. The entities keep listing it as before. -/
def renameProperty (m : Model) (id : PropertyId) (name : Name) : Checked Model :=
  if id.index < m.properties.size then
    .ok { m with properties := m.properties.modify id.index fun p => { p with name } }
  else .error (.noProperty id.index)

end Ebnf.Model
