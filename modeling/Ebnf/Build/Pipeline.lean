import Ebnf.Build.Skeleton
import Ebnf.Build.Body
import Ebnf.Build.Alternative
import Ebnf.Build.Subs

/-!
# From a grammar to its model

The four stages in a row: entities, bodies, choices between entities, special cases. The first error
ends the building.

* `Build.grammar`: the whole way, as a step;
* `Model.ofGrammar`: its outcome alone.
-/

namespace Ebnf

/-- How many entities are virtual. -/
def Model.virtualCount (m : Model) : Checked Nat :=
  return (← m.names.mapM m.isVirtual).count true

/-- Builds the model of a grammar. -/
def Build.grammar [Unicode.Xid] (g : Grammar) : Build Unit := do
  if g.isEmpty then throw (.error .emptyGrammar)
  skeleton g
  tell (.entitiesMade (← model).entities.length)
  bodies
  tell (.bodiesMade (← model).properties.size (← model).actions.size)
  alternatives
  hierarchy
  tell (.modelMade (← model).root (← check (← model).virtualCount))

/-- The model of a grammar. -/
def Model.ofGrammar [Unicode.Xid] (g : Grammar) : Except BuildStop Model :=
  (Build.run (Build.grammar g) ∅).1

end Ebnf
