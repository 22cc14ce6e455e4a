import Ebnf.Json
import Ebnf.Model.ValueType

/-!
# Views of a model

A view says everything about a model that a reader elsewhere needs, without ids: links are resolved
into names, trees of actions are nested, and the attributes that follow from the links are written
out.

* `ModelView`, `EntityView`, `PropertyView`, `ActionView`: the views, and how each becomes a JSON
  value; a field that would say nothing is left out where its name ends in `?` below;
* `ModelView.ofModel`: the view of a model.
-/

namespace Ebnf

/-! ## 1. The views -/

/-- The forms of an action. -/
inductive ActionForm where
  /-- A fixed text. -/
  | literal
  /-- A regular expression. -/
  | pattern
  /-- Another entity. -/
  | entity
  /-- A sequence. -/
  | all
  /-- A choice. -/
  | any
deriving DecidableEq, Repr

/-- The name of a form. -/
def ActionForm.name : ActionForm → String
  | literal => "literal"
  | pattern => "pattern"
  | entity => "entity"
  | all => "all"
  | any => "any"

/-- An action with everything below it. -/
inductive ActionView where
  /-- The form of the action; the text, the expression or the entity it reads; whether it may find
      nothing, whether it repeats, and whether only its success counts; the name of the property it
      fills; and its children. -/
  | node (form : ActionForm) (value? : Option String) (isOptional isPlural isWitness : Bool)
      (property? : Option Name) (children : List ActionView)

/-- A property of an entity. -/
structure PropertyView where
  /-- Its name. -/
  name : Name
  /-- The name of its type, where that can be decided. -/
  type : Option String
  /-- Whether it can be left unfilled. -/
  isOptional : Bool
  /-- Whether it can be filled more than once. -/
  isPlural : Bool
  /-- The names of the properties it stands for. -/
  subsumed : List Name
deriving DecidableEq, Repr

/-- An entity. -/
structure EntityView where
  /-- Its name. -/
  name : Name
  /-- Whether the value of its only property stands for it. -/
  isVirtual : Bool
  /-- The name of the type it contributes where it is referred to. -/
  effectiveType : String
  /-- What it is a special case of. -/
  supers : List Name
  /-- Its special cases. -/
  subs : List Name
  /-- Its properties in order. -/
  properties : List PropertyView
  /-- How an instance is read. -/
  action : Option ActionView

/-- A model. -/
structure ModelView where
  /-- The name of the root. -/
  root : Option Name
  /-- The entities in order. -/
  entities : List EntityView

/-! ## 2. Views as JSON -/

/-- A text that may be missing. -/
def Json.ofString? : Option String → Json
  | none => .null
  | some s => .string s

/-- A list of texts. -/
def Json.ofStrings (ss : List String) : Json :=
  .array (ss.map .string)

mutual

/-- The view of an action as JSON. Its value, its property and its children are left out where
    there are none. -/
def ActionView.toJson : ActionView → Json
  | .node form value? isOptional isPlural isWitness property? children =>
    .object <|
      [("kind", .string form.name)] ++
      (value?.toList.map fun v => ("value", .string v)) ++
      [("is_optional", .bool isOptional), ("is_plural", .bool isPlural),
        ("report_success", .bool isWitness)] ++
      (property?.toList.map fun p => ("property", .string p)) ++
      if children.isEmpty then [] else [("children", .array (actionViewsToJson children))]

/-- The views of several actions as JSON. -/
def actionViewsToJson : List ActionView → List Json
  | [] => []
  | v :: vs => v.toJson :: actionViewsToJson vs

end

/-- The view of a property as JSON. The properties it stands for are left out where there are
    none. -/
def PropertyView.toJson (p : PropertyView) : Json :=
  .object <|
    [("name", .string p.name), ("type", .ofString? p.type), ("is_optional", .bool p.isOptional),
      ("is_plural", .bool p.isPlural)] ++
    if p.subsumed.isEmpty then [] else [("subsumed", .ofStrings p.subsumed)]

/-- The view of an entity as JSON. -/
def EntityView.toJson (e : EntityView) : Json :=
  .object [
    ("name", .string e.name),
    ("is_virtual", .bool e.isVirtual),
    ("effective_type", .string e.effectiveType),
    ("supers", .ofStrings e.supers),
    ("subs", .ofStrings e.subs),
    ("properties", .array (e.properties.map PropertyView.toJson)),
    ("action", match e.action with | none => .null | some a => a.toJson)]

/-- The view of a model as JSON. -/
def ModelView.toJson (v : ModelView) : Json :=
  .object [
    ("root", .ofString? v.root),
    ("entities", .array (v.entities.map EntityView.toJson))]

/-- The view of a model as indented text. -/
def ModelView.render (v : ModelView) : String :=
  v.toJson.render

/-- The view of the entity with the given name. -/
def ModelView.entity? (v : ModelView) (name : Name) : Option EntityView :=
  v.entities.find? (·.name = name)

/-! ## 3. The view of a model -/

mutual

/-- The view of a tree of actions. -/
def ActionView.ofTree : ActionTree → ActionView
  | .node _ a p children =>
    let (form, value?) : ActionForm × Option String := match a.kind with
      | .literal text => (.literal, some text)
      | .pattern source => (.pattern, some source)
      | .entity target => (.entity, some target)
      | .all _ => (.all, none)
      | .any _ => (.any, none)
    .node form value? a.isOptional a.isPlural a.isWitness (p.map Property.name)
      (actionViewsOfTrees children)

/-- The views of several trees. -/
def actionViewsOfTrees : List ActionTree → List ActionView
  | [] => []
  | t :: ts => ActionView.ofTree t :: actionViewsOfTrees ts

end

/-- The view of a property. -/
def PropertyView.ofModel (m : Model) (id : PropertyId) : Checked PropertyView := do
  let p ← m.property id
  let type ← m.propertyType id
  let isOptional ← m.isOptional id
  let isPlural ← m.isPlural id
  let subsumed ← p.subsumed.mapM fun sub => Property.name <$> m.property sub
  return { name := p.name, type := type.map ValueType.render, isOptional, isPlural, subsumed }

/-- The view of an entity. -/
def EntityView.ofModel (m : Model) (e : Entity) : Checked EntityView := do
  let isVirtual ← m.isVirtual e.name
  let type ← m.effectiveType e.name
  let properties ← e.properties.ids.mapM (PropertyView.ofModel m)
  let action ← match e.action with
    | none => pure none
    | some id => (some ∘ ActionView.ofTree) <$> m.tree id
  return { name := e.name, isVirtual, effectiveType := type.render, supers := e.supers,
           subs := e.subs, properties, action }

/-- The view of a model. -/
def ModelView.ofModel (m : Model) : Checked ModelView := do
  return { root := m.root, entities := ← m.entities.mapM (EntityView.ofModel m) }

end Ebnf
