import Ebnf.Grammar.Basic
import Ebnf.Ordered
import Ebnf.Model.Id

/-!
# Models

A model says what is read where: one entity per rule, with the properties that its instances have
and the tree of actions that reads them.

* Entities are kept in the order of their rules and refer to each other by name, so references may
  point forward or in circles (`Model.entity?`).
* Properties and actions are kept in arenas and refer to each other by id (`Model.property`,
  `Model.action`). An action lists its children and knows the action it was last made a child of.
* An entity lists its current properties under their names (`Entity.property?`); a property that a
  proxy has taken over stays in the arena.
-/

namespace Ebnf

/-! ## 1. Actions -/

/-- What an action reads. -/
inductive ActionKind where
  /-- A fixed text. -/
  | literal (text : String)
  /-- A text that a regular expression describes. -/
  | pattern (source : String)
  /-- An instance of another entity. -/
  | entity (target : Name)
  /-- Every child, in order. -/
  | all (children : List ActionId)
  /-- The first child that succeeds. -/
  | any (children : List ActionId)
deriving DecidableEq, Repr

/-- A node in the tree of actions that reads an entity. -/
structure Action where
  /-- What the action reads. -/
  kind : ActionKind
  /-- Whether it may find nothing. -/
  isOptional : Bool := false
  /-- Whether it repeats. -/
  isPlural : Bool := false
  /-- Whether only the success of the action is kept, as a flag. -/
  isWitness : Bool := false
  /-- The property that the action fills. -/
  property : Option PropertyId := none
  /-- The action that the action was last made a child of. -/
  parent : Option ActionId := none
deriving DecidableEq, Repr

namespace Action

/-- The children in order; a leaf has none. -/
def children (a : Action) : List ActionId :=
  match a.kind with
  | .all children => children
  | .any children => children
  | _ => []

/-- Whether the action has no place for children. -/
def isLeaf (a : Action) : Bool :=
  match a.kind with
  | .all _ => false
  | .any _ => false
  | _ => true

/-- Whether the action is a choice. -/
def isChoice (a : Action) : Bool :=
  match a.kind with
  | .any _ => true
  | _ => false

/-- The entity that the action reads. -/
def target? (a : Action) : Option Name :=
  match a.kind with
  | .entity target => some target
  | _ => none

/-- Whether the text that the action reads is its value: a pattern, or a literal that is more than
    a witness. -/
def isValueTerminal (a : Action) : Bool :=
  match a.kind with
  | .pattern _ => true
  | .literal _ => !a.isWitness
  | _ => false

end Action

/-! ## 2. Properties -/

/-- How a property came about. -/
inductive PropertyKind where
  /-- It belongs to one leaf of the rule. -/
  | plain
  /-- It stands for the listed properties, which it took over. -/
  | proxy (subsumed : List PropertyId)
deriving DecidableEq, Repr

/-- A slot of an entity that an action fills. -/
structure Property where
  /-- The name of the slot. -/
  name : Name
  /-- The entity that the property was made for. -/
  entity : Name
  /-- The action that fills it. -/
  source : ActionId
  /-- How it came about. -/
  kind : PropertyKind := .plain
deriving DecidableEq, Repr

namespace Property

/-- Whether the property stands for others. -/
def isProxy (p : Property) : Bool :=
  match p.kind with
  | .proxy _ => true
  | .plain => false

/-- The properties that the property stands for, in the order they had. -/
def subsumed (p : Property) : List PropertyId :=
  match p.kind with
  | .proxy subsumed => subsumed
  | .plain => []

end Property

/-! ## 3. Entities -/

/-- Properties by name, in the order in which the names were first given. -/
abbrev PropertyMap := Ordered PropertyId

/-- The properties in order. -/
def PropertyMap.ids (ps : PropertyMap) : List PropertyId :=
  ps.map Prod.snd

/-- Adds a name at the end of a list unless it is there already. -/
def insertName (names : List Name) (n : Name) : List Name :=
  if n ∈ names then names else names ++ [n]

@[simp] theorem mem_insertName {names : List Name} {n k : Name} :
    k ∈ insertName names n ↔ k ∈ names ∨ k = n := by
  unfold insertName
  split
  · next h =>
    constructor
    · exact Or.inl
    · rintro (hk | rfl)
      · exact hk
      · exact h
  · simp

/-- What a rule describes. -/
structure Entity where
  /-- The name of the rule. -/
  name : Name
  /-- The rule itself, for an entity that was made from one. -/
  rule : Option Rule := none
  /-- The current properties. -/
  properties : PropertyMap := []
  /-- The action that reads an instance. -/
  action : Option ActionId := none
  /-- The entities that this one is a special case of, in the order of their discovery. -/
  supers : List Name := []
  /-- The entities that are special cases of this one, in the order of their discovery. -/
  subs : List Name := []
deriving DecidableEq, Repr

/-- The current property of the given name. -/
def Entity.property? (e : Entity) (name : Name) : Option PropertyId :=
  Ordered.get? e.properties name

/-- The entity of a rule, before anything is known of its properties and actions. -/
def Entity.ofRule (r : Rule) : Entity :=
  { name := r.name, rule := some r }

/-! ## 4. Models -/

/-- Entities with their properties and actions. -/
structure Model where
  /-- The entities in the order of their rules. -/
  entities : List Entity := []
  /-- Every property, in the order of creation. -/
  properties : Array Property := #[]
  /-- Every action, in the order of creation. -/
  actions : Array Action := #[]
  /-- The entity that a whole text is an instance of. -/
  root : Option Name := none
deriving DecidableEq, Repr

namespace Model

instance : EmptyCollection Model := ⟨{}⟩

/-- The entity of the given name. -/
def entity? (m : Model) (name : Name) : Option Entity :=
  m.entities.find? (·.name = name)

/-- The names of the entities in order. -/
def names (m : Model) : List Name :=
  m.entities.map Entity.name

/-- Whether there is an entity of the given name. -/
def contains (m : Model) (name : Name) : Bool :=
  m.names.contains name

/-- The root entity. -/
def rootEntity? (m : Model) : Option Entity :=
  m.root.bind m.entity?

/-- The property with the given id. -/
def property (m : Model) (id : PropertyId) : Checked Property :=
  match m.properties[id.index]? with
  | some p => .ok p
  | none => .error (.noProperty id.index)

/-- The action with the given id. -/
def action (m : Model) (id : ActionId) : Checked Action :=
  match m.actions[id.index]? with
  | some a => .ok a
  | none => .error (.noAction id.index)

theorem property_eq_ok_iff {m : Model} {id : PropertyId} {p : Property} :
    m.property id = .ok p ↔ m.properties[id.index]? = some p := by
  unfold property
  split <;> simp_all

theorem action_eq_ok_iff {m : Model} {id : ActionId} {a : Action} :
    m.action id = .ok a ↔ m.actions[id.index]? = some a := by
  unfold action
  split <;> simp_all

/-- An entity that is found has the name looked for. -/
theorem name_of_entity?_eq_some {m : Model} {name : Name} {e : Entity}
    (h : m.entity? name = some e) : e.name = name := by
  have h' : m.entities.find? (fun e => e.name = name) = some e := h
  simpa using List.find?_some h'

/-- An entity that is found is one of the model. -/
theorem mem_of_entity?_eq_some {m : Model} {name : Name} {e : Entity}
    (h : m.entity? name = some e) : e ∈ m.entities := by
  have h' : m.entities.find? (fun e => e.name = name) = some e := h
  exact List.mem_of_find?_eq_some h'

/-- The names of a model are those under which an entity is found. -/
theorem mem_names_iff {m : Model} {name : Name} :
    name ∈ m.names ↔ ∃ e, m.entity? name = some e := by
  constructor
  · intro h
    obtain ⟨e, he, hname⟩ := List.mem_map.1 h
    have : (m.entities.find? (fun e => e.name = name)).isSome := by
      rw [List.find?_isSome]
      exact ⟨e, he, by simpa using hname⟩
    exact Option.isSome_iff_exists.1 this
  · rintro ⟨e, he⟩
    exact List.mem_map.2 ⟨e, mem_of_entity?_eq_some he, name_of_entity?_eq_some he⟩

@[simp] theorem contains_iff {m : Model} {name : Name} :
    m.contains name = true ↔ name ∈ m.names := by
  simp [contains]

/-- The current properties of an entity in order; an entity that does not exist has none. -/
def currentProperties (m : Model) (entity : Name) : Checked (List (PropertyId × Property)) :=
  match m.entity? entity with
  | none => .ok []
  | some e => e.properties.ids.mapM fun id => do return (id, ← m.property id)

/-- The current property of an entity with the given name. -/
def findProperty? (m : Model) (entity name : Name) : Checked (Option Property) :=
  match (m.entity? entity).bind (·.property? name) with
  | none => .ok none
  | some id => some <$> m.property id

end Model

end Ebnf
