import Ebnf.Grammar.Expr

/-!
# Grammars

A grammar is a list of rules in the order of their declaration; the first rule is its root.

* `Rule`: a name and the expression it stands for;
* `Grammar.rule?`: the rule of a name, which is the first one where a name is declared twice;
* `Grammar.render`: the grammar as text, one rule a line.
-/

namespace Ebnf

/-- A named expression. -/
structure Rule where
  /-- The name that other rules refer to. -/
  name : Name
  /-- What the name stands for. -/
  body : Expr
deriving DecidableEq, Repr

/-- The rule as text, without an end mark. -/
def Rule.render (r : Rule) : String :=
  r.name ++ " ::= " ++ r.body.render

/-- Rules in the order of their declaration. -/
structure Grammar where
  /-- The rules. -/
  rules : List Rule := []
deriving DecidableEq, Repr

namespace Grammar

/-- The first rule. -/
def root? (g : Grammar) : Option Rule :=
  g.rules.head?

/-- The first rule with the given name. -/
def rule? (g : Grammar) (name : Name) : Option Rule :=
  g.rules.find? (·.name = name)

/-- The number of rules. -/
def size (g : Grammar) : Nat :=
  g.rules.length

/-- Whether there is no rule. -/
def isEmpty (g : Grammar) : Bool :=
  g.rules.isEmpty

/-- The grammar as text, one rule a line, each ended by a semicolon. -/
def render (g : Grammar) : String :=
  String.join (g.rules.map fun r => r.render ++ " ;\n")

instance : ToString Grammar where
  toString := render

/-- A rule that is found has the name looked for and belongs to the grammar. -/
theorem rule?_eq_some {g : Grammar} {name : Name} {r : Rule} (h : g.rule? name = some r) :
    r ∈ g.rules ∧ r.name = name := by
  have h' : g.rules.find? (fun r => r.name = name) = some r := h
  exact ⟨List.mem_of_find?_eq_some h', by simpa using List.find?_some h'⟩

end Grammar

end Ebnf
