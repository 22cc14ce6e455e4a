import Ebnf.Build.Draft

/-!
# One entity per rule

The first stage of building a model: every rule gets an entity of its name, in the order of the
rules, and the first one becomes the root. Where a name is declared twice, its first rule counts.
-/

namespace Ebnf.Build

/-- Adds the entity of a rule, unless its name is taken. -/
def addRule (r : Rule) : Build Unit := do
  match (← model).addEntity? (.ofRule r) with
  | some m => setModel m
  | none => tell (.duplicateRule r.name)

/-- The entities of the rules, in place of any model so far. -/
def skeleton (g : Grammar) : Build Unit := do
  setModel ∅
  g.rules.forM addRule

end Ebnf.Build
