import Ebnf.Model.Basic

/-!
# What follows from the links of a model

Nothing here is stored: each attribute is read off the links when it is asked for, so that it fits
the model as it is.

* `Model.lineage`: an action and the actions around it, innermost first. Links to parents lead to
  younger actions, so the way up ends;
* `Model.isPlural`, `Model.isOptional`: how often a property can be filled;
* `Model.assignmentTarget`: the property in which the value of an action ends up;
* `Model.hasSiblings`, `Model.isVirtual`: which entities stand for the value of their property.
-/

namespace Ebnf.Model

/-! ## 1. The way up -/

/-- An action and its ancestors, innermost first, each with its id. -/
def lineage (m : Model) (id : ActionId) : Checked (List (ActionId × Action)) :=
  match _h : m.actions[id.index]? with
  | none => .error (.noAction id.index)
  | some a =>
    match a.parent with
    | none => .ok [(id, a)]
    | some parent =>
      if id.index < parent.index then (m.lineage parent).map ((id, a) :: ·)
      else .ok [(id, a)]
termination_by m.actions.size - id.index
decreasing_by
  have := (Array.getElem?_eq_some_iff.1 _h).1
  omega

/-- The ids of an action and its ancestors, innermost first. -/
def ancestors (m : Model) (id : ActionId) : Checked (List ActionId) :=
  (m.lineage id).map (·.map Prod.fst)

/-! ## 2. Properties -/

/-- Whether a property can be filled more than once: its action repeats, or one around it does. -/
def isPlural (m : Model) (id : PropertyId) : Checked Bool := do
  let p ← m.property id
  let line ← m.lineage p.source
  return line.any (·.2.isPlural)

/-- Whether a property can be left unfilled: its action is optional, or one around it is optional
    or a choice. -/
def isOptional (m : Model) (id : PropertyId) : Checked Bool := do
  let p ← m.property id
  match ← m.lineage p.source with
  | [] => return false
  | (_, source) :: around =>
    return source.isOptional || around.any fun (_, a) => a.isOptional || a.isChoice

/-- The entity that the source of a property reads. -/
def sourceTarget? (m : Model) (id : PropertyId) : Checked (Option Name) := do
  let p ← m.property id
  let a ← m.action p.source
  return a.target?

/-- The entities that a property refers to; a proxy refers to those of the properties it stands
    for. -/
def referencedEntities (m : Model) (id : PropertyId) : Checked (List Name) := do
  let p ← m.property id
  match p.kind with
  | .plain => return (← m.action p.source).target?.toList
  | .proxy subsumed => return (← subsumed.mapM m.sourceTarget?).flatMap Option.toList

/-- The property that an action is linked to, if it is still one of its entity's current ones. -/
def currentProperty? (m : Model) (a : Action) : Checked (Option PropertyId) := do
  match a.property with
  | none => return none
  | some id =>
    let p ← m.property id
    match m.entity? p.entity with
    | none => return none
    | some owner => return if owner.property? p.name = some id then some id else none

/-- The first current property on a way up. -/
def firstCurrent? (m : Model) : List (ActionId × Action) → Checked (Option PropertyId)
  | [] => .ok none
  | (_, a) :: around => do
    match ← m.currentProperty? a with
    | some id => return some id
    | none => m.firstCurrent? around

/-- The property that a value of the action is stored in: its own, or where that was taken over,
    the nearest one on the way up that is still current. -/
def assignmentTarget (m : Model) (id : ActionId) : Checked (Option PropertyId) := do
  m.firstCurrent? (← m.lineage id)

/-! ## 3. Entities -/

/-- Whether an entity shares one of its supers with another. -/
def hasSiblings (m : Model) (name : Name) : Bool :=
  match m.entity? name with
  | none => false
  | some e => (e.supers.filterMap m.entity?).any fun parent => 1 < parent.subs.length

/-- Whether an entity is a transparent wrapper, for which the value of its only property stands:
    the property is not plural, and it is a text of its own or the entity has subs. The root is
    never virtual. -/
def isVirtual (m : Model) (name : Name) : Checked Bool := do
  if m.root = some name then return false
  match m.entity? name with
  | none => return false
  | some e =>
    match e.properties.ids with
    | [only] =>
      if ← m.isPlural only then return false
      let p ← m.property only
      let source ← m.action p.source
      return (source.isValueTerminal && !m.hasSiblings name) || !e.subs.isEmpty
    | _ => return false

/-- Only an entity of the model is virtual. -/
theorem mem_names_of_isVirtual {m : Model} {name : Name} (h : m.isVirtual name = .ok true) :
    name ∈ m.names := by
  rw [mem_names_iff]
  cases he : m.entity? name with
  | some e => exact ⟨e, rfl⟩
  | none =>
    simp only [isVirtual, he] at h
    split at h <;> simp [pure, Except.pure] at h

end Ebnf.Model
