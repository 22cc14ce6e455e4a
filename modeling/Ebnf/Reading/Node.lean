import Ebnf.Ordered
import Ebnf.Text.Quoted

/-!
# What is read

The result of reading a text: a node for each entity that was found, with the values of its
properties as fields.

* `Value`: a text, a flag, a node, or a list;
* `Node`: the entity and its fields in the order of its properties;
* `Node.render`: the compact form `pair { key: "a", value: "1" }`;
* `Value.same`: whether two values are the same.
-/

namespace Ebnf

/-! ## 1. Values and nodes -/

/-- The value of a field. -/
inductive Value where
  /-- A text that was read. -/
  | text (s : String)
  /-- Whether a text was there. -/
  | flag (b : Bool)
  /-- An entity that was read, with its fields. -/
  | node (entity : Name) (fields : List (Name × Value))
  /-- Several values. -/
  | list (items : List Value)

/-- An entity that was read. -/
structure Node where
  /-- The entity. -/
  entity : Name
  /-- Its fields, in order. -/
  fields : Ordered Value := []

namespace Value

/-- The text that a value is. -/
def text? : Value → Option String
  | text s => some s
  | _ => none

/-- The flag that a value is. -/
def flag? : Value → Option Bool
  | flag b => some b
  | _ => none

/-- The node that a value is. -/
def node? : Value → Option Node
  | node entity fields => some { entity, fields }
  | _ => none

/-- The values that a list holds. -/
def items? : Value → Option (List Value)
  | list items => some items
  | _ => none

/-! ## 2. Text -/

mutual

/-- A value in compact form. -/
def render : Value → String
  | text s => Text.quote s
  | flag b => if b then "true" else "false"
  | node entity [] => entity
  | node entity ((name, v) :: fields) =>
    entity ++ " \x7b " ++ name ++ ": " ++ v.render ++ renderFields fields ++ " \x7d"
  | list [] => "[]"
  | list (v :: items) => "[" ++ v.render ++ renderItems items ++ "]"

/-- The fields after the first. -/
def renderFields : List (Name × Value) → String
  | [] => ""
  | (name, v) :: fields => ", " ++ name ++ ": " ++ v.render ++ renderFields fields

/-- The items after the first. -/
def renderItems : List Value → String
  | [] => ""
  | v :: items => ", " ++ v.render ++ renderItems items

end

instance : ToString Value where
  toString := render

end Value

/-! ## 3. Equality -/

namespace Value

mutual

/-- Whether two values are the same. -/
def same : Value → Value → Bool
  | text s, text t => s == t
  | flag b, flag c => b == c
  | node entity fields, node entity' fields' => entity == entity' && sameFields fields fields'
  | list items, list items' => sameItems items items'
  | _, _ => false

/-- Whether two lists of fields are the same. -/
def sameFields : List (Name × Value) → List (Name × Value) → Bool
  | [], [] => true
  | (name, v) :: fields, (name', v') :: fields' =>
    name == name' && v.same v' && sameFields fields fields'
  | _, _ => false

/-- Whether two lists of values are the same. -/
def sameItems : List Value → List Value → Bool
  | [], [] => true
  | v :: items, v' :: items' => v.same v' && sameItems items items'
  | _, _ => false

end

mutual

theorem same_iff : ∀ v v' : Value, v.same v' = true ↔ v = v'
  | text s, v' => by cases v' <;> simp [same]
  | flag b, v' => by cases v' <;> simp [same]
  | node entity fields, v' => by cases v' <;> simp [same, sameFields_iff fields]
  | list items, v' => by cases v' <;> simp [same, sameItems_iff items]

theorem sameFields_iff : ∀ fs fs' : List (Name × Value), sameFields fs fs' = true ↔ fs = fs'
  | [], fs' => by cases fs' <;> simp [sameFields]
  | (name, v) :: fs, [] => by simp [sameFields]
  | (name, v) :: fs, (name', v') :: fs' => by simp [sameFields, same_iff v, sameFields_iff fs]

theorem sameItems_iff : ∀ vs vs' : List Value, sameItems vs vs' = true ↔ vs = vs'
  | [], vs' => by cases vs' <;> simp [sameItems]
  | v :: vs, vs' => by cases vs' <;> simp [sameItems, same_iff v, sameItems_iff vs]

end

instance : DecidableEq Value := fun v v' => decidable_of_iff _ (same_iff v v')

end Value

/-! ## 4. Fields of a node -/

namespace Node

instance : DecidableEq Node
  | ⟨entity, fields⟩, ⟨entity', fields'⟩ =>
    decidable_of_iff (entity = entity' ∧ fields = fields') (by simp)

/-- The node as a value. -/
def toValue (n : Node) : Value :=
  .node n.entity n.fields

/-- The node in compact form. -/
def render (n : Node) : String :=
  n.toValue.render

instance : ToString Node where
  toString := render

/-- The value of a field. -/
def get? (n : Node) (field : Name) : Option Value :=
  Ordered.get? n.fields field

/-- The text in a field. -/
def text? (n : Node) (field : Name) : Option String :=
  (n.get? field).bind Value.text?

/-- The flag in a field. -/
def flag? (n : Node) (field : Name) : Option Bool :=
  (n.get? field).bind Value.flag?

/-- The node in a field. -/
def node? (n : Node) (field : Name) : Option Node :=
  (n.get? field).bind Value.node?

/-- The values in a field that holds a list. -/
def items? (n : Node) (field : Name) : Option (List Value) :=
  (n.get? field).bind Value.items?

/-- The node with the value of a field given. -/
def set (n : Node) (field : Name) (v : Value) : Node :=
  { n with fields := Ordered.set n.fields field v }

/-- The value of the first field, for which a virtual entity stands. -/
def firstValue? (n : Node) : Option Value :=
  n.fields.head?.map Prod.snd

end Node

end Ebnf
