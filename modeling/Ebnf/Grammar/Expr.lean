import Ebnf.Text.Quoted

/-!
# Rule expressions

The right side of a rule in extended Backus-Naur form.

* `Expr`: the expressions. Choices and sequences are binary; chains of them are read through
  `Expr.alternatives` and `Expr.members`, which do not look into groups;
* `Expr.or`, `Expr.andThen`: longer chains, kept leaning to the right;
* `Expr.references`: the rules an expression names, from left to right;
* `Expr.render`: the expression as text.

Main facts: the members of a joined chain are those of its two parts (`alternatives_or`,
`members_andThen`).
-/

namespace Ebnf

/-- The name of a rule, an entity, a property or a field. -/
abbrev Name := String

/-- A rule expression. -/
inductive Expr where
  /-- One of two: `left | right`. -/
  | choice (left right : Expr)
  /-- One after the other: `left right`. -/
  | sequence (left right : Expr)
  /-- At most once: `[ inner ]`. -/
  | optional (inner : Expr)
  /-- Any number of times: `{ inner }`. -/
  | repetition (inner : Expr)
  /-- Held together: `( inner )`. -/
  | group (inner : Expr)
  /-- What another rule describes: `label@target`. -/
  | reference (label : Option Name) (target : Name)
  /-- A fixed text: `label@"text"`. -/
  | literal (label : Option Name) (text : String)
  /-- A text that a regular expression describes: `label@/source/`. -/
  | pattern (label : Option Name) (source : String)
deriving DecidableEq, Repr

namespace Expr

/-! ## 1. Labels -/

/-- Gives a leaf a label; an expression with parts has no place for one and stays as it is. -/
def withLabel (name : Name) : Expr → Expr
  | reference _ target => reference (some name) target
  | literal _ text => literal (some name) text
  | pattern _ source => pattern (some name) source
  | e => e

/-- The label of a leaf. -/
def label? : Expr → Option Name
  | reference label _ => label
  | literal label _ => label
  | pattern label _ => label
  | _ => none

/-! ## 2. Chains -/

/-- Adds an alternative at the end of a choice. -/
def or (e f : Expr) : Expr :=
  match e with
  | choice left right => choice left (right.or f)
  | e => choice e f

/-- Adds a member at the end of a sequence. -/
def andThen (e f : Expr) : Expr :=
  match e with
  | sequence left right => sequence left (right.andThen f)
  | e => sequence e f

/-- The branches of a choice in order, however its chain leans; any other expression is its own
    only branch. -/
def alternatives : Expr → List Expr
  | choice left right => left.alternatives ++ right.alternatives
  | e => [e]

/-- The members of a sequence in order, however its chain leans; any other expression is its own
    only member. -/
def members : Expr → List Expr
  | sequence left right => left.members ++ right.members
  | e => [e]

/-- The branches of a joined choice are those of its parts. -/
theorem alternatives_or (e f : Expr) :
    (e.or f).alternatives = e.alternatives ++ f.alternatives := by
  induction e with
  | choice left right _ ih => simp [or, alternatives, ih]
  | _ => rfl

/-- The members of a joined sequence are those of its parts. -/
theorem members_andThen (e f : Expr) :
    (e.andThen f).members = e.members ++ f.members := by
  induction e with
  | sequence left right _ ih => simp [andThen, members, ih]
  | _ => rfl

/-- The choice between several expressions, if there are any. -/
def ofAlternatives? : List Expr → Option Expr
  | [] => none
  | e :: es => some (es.foldl or e)

/-- The sequence of several expressions, if there are any. -/
def ofMembers? : List Expr → Option Expr
  | [] => none
  | e :: es => some (es.foldl andThen e)

/-! ## 3. References -/

/-- The names of the rules that an expression refers to, from left to right. -/
def references : Expr → List Name
  | choice left right => left.references ++ right.references
  | sequence left right => left.references ++ right.references
  | optional inner => inner.references
  | repetition inner => inner.references
  | group inner => inner.references
  | reference _ target => [target]
  | literal _ _ => []
  | pattern _ _ => []

/-! ## 4. Text -/

/-- A label as it stands before its expression. -/
def renderLabel : Option Name → String
  | none => ""
  | some name => name ++ "@"

/-- Whether the expression is a choice. -/
def isChoice : Expr → Bool
  | choice _ _ => true
  | _ => false

/-- The expression as text. A chain is written without inner brackets, except that a choice within
    a sequence is bracketed. -/
def render : Expr → String
  | choice left right => left.render ++ " | " ++ right.render
  | sequence left right =>
    bracketChoice left left.render ++ " " ++ bracketChoice right right.render
  | optional inner => "[ " ++ inner.render ++ " ]"
  | repetition inner => "\x7b " ++ inner.render ++ " \x7d"
  | group inner => "( " ++ inner.render ++ " )"
  | reference label target => renderLabel label ++ target
  | literal label text => renderLabel label ++ Text.quote text
  | pattern label source => renderLabel label ++ "/" ++ source ++ "/"
where
  /-- Puts brackets around the text of a choice. -/
  bracketChoice (e : Expr) (text : String) : String :=
    if e.isChoice then "( " ++ text ++ " )" else text

instance : ToString Expr where
  toString := render

end Expr

end Ebnf
