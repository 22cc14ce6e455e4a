import Ebnf.Model.Tree
import Ebnf.Text.Quoted

/-!
# Models as text

The actions of a model in the form of rules. An action that fills a property carries its name as a
label, unless it reads the entity of that very name.

* `ActionTree.render`: one tree;
* `Model.render`: all entities, one a line.
-/

namespace Ebnf

namespace ActionTree

/-- The label of a node: the name of the property it fills, unless the target says the same. -/
def label? (a : Action) (p : Option Property) : Option Name :=
  (p.map Property.name).filter fun name => a.target? ≠ some name

mutual

/-- A tree as the right side of a rule. The parts of a sequence or a choice are bracketed if the
    whole has a label, or stands among others without brackets of its own. -/
def renderIn (nested : Bool) : ActionTree → String
  | node _ a p children =>
    let label := label? a p
    let bracketed := label.isSome || (nested && !(a.isOptional || a.isPlural))
    let core := match a.kind with
      | .literal text => Text.quote text
      | .pattern source => "/" ++ source ++ "/"
      | .entity target => target
      | .all _ => bracket bracketed (renderMany " " children)
      | .any _ => bracket bracketed (renderMany " | " children)
    (if a.isOptional then "[ " else "") ++ (if a.isPlural then "\x7b " else "") ++
      (match label with | some name => name ++ "@" | none => "") ++ core ++
      (if a.isPlural then " \x7d" else "") ++ (if a.isOptional then " ]" else "")

/-- Trees with a separator between them. -/
def renderMany (separator : String) : List ActionTree → String
  | [] => ""
  | [t] => renderIn true t
  | t :: rest => renderIn true t ++ separator ++ renderMany separator rest

/-- Puts brackets around a text if asked to. -/
def bracket (bracketed : Bool) (text : String) : String :=
  if bracketed then "( " ++ text ++ " )" else text

end

/-- A tree as the whole right side of a rule. -/
def render (t : ActionTree) : String :=
  t.renderIn false

end ActionTree

namespace Model

/-- The actions of a tree as text. -/
def renderAction (m : Model) (id : ActionId) : Checked String :=
  ActionTree.render <$> m.tree id

/-- An entity as a rule. -/
def renderEntity (m : Model) (e : Entity) : Checked String :=
  match e.action with
  | none => .ok (e.name ++ " ::= ;\n")
  | some id => return e.name ++ " ::= " ++ (← m.renderAction id) ++ " ;\n"

/-- The entities of a model as rules, one a line. -/
def render (m : Model) : Checked String :=
  String.join <$> m.entities.mapM m.renderEntity

end Model

end Ebnf
