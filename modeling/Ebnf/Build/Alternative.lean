import Ebnf.Build.Draft
import Ebnf.Model.Attributes

/-!
# Choices between entities

The third stage of building a model. An entity that is nothing but a choice between other entities
needs no property for each of them: one property that stands for all will do. An entity qualifies
when each of its properties is filled by a reference and all these references are branches of the
same choice; any other entity is left as it is.
-/

namespace Ebnf.Build

/-- The name of the property that stands for the branches of a choice. -/
def alternativeName : Name := "alternative"

/-- The choice from which all the properties branch off, if there is one. -/
def sharedChoice? (m : Model) (ids : List PropertyId) : Checked (Option ActionId) := do
  let parents ← ids.mapM fun id => do return (← m.action (← m.property id).source).parent
  match parents with
  | some parent :: rest =>
    if rest.all (· = some parent) && (← m.action parent).isChoice then return some parent
    else return none
  | _ => return none

/-- The choice for which one property will do, if the entity is nothing but that choice. -/
def entityChoice? (m : Model) (e : Entity) : Checked (Option ActionId) := do
  match ← sharedChoice? m e.properties.ids with
  | none => return none
  | some choice =>
    let targets ← e.properties.ids.mapM m.sourceTarget?
    return if targets.all Option.isSome then some choice else none

/-- Puts one property in the place of all properties of an entity that is a choice of entities. -/
def collapse (name : Name) : Build Unit := do
  let some e := (← model).entity? name | return
  let some choice ← check (entityChoice? (← model) e) | return
  tell (.collapsed name e.properties.length)
  let proxy ← change fun m => m.addProperty
    { name := alternativeName, entity := e.name, source := choice,
      kind := .proxy e.properties.ids }
  setModel ((← model).replaceEntity { e with properties := [(alternativeName, proxy)] })

/-- Does so for every entity. -/
def alternatives : Build Unit := do
  (← model).names.forM collapse

end Ebnf.Build
