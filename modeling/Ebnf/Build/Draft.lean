import Ebnf.Model.Edit
import Ebnf.Event

/-!
# Models in the making

A model is built step by step. Each step works on a draft: the model so far, what has been told of
the steps, and the properties of the entity in hand. A step may fail; what was told before then is
kept.

* `BuildError`: why no model can be built;
* `Build`: a step, with its basic forms `Build.tell`, `Build.check`, `Build.change`;
* `Build.run`: a step from a given model on.
-/

namespace Ebnf

/-! ## 1. Errors -/

/-- Why no model can be built. -/
inductive BuildError where
  /-- A rule refers to a rule that does not exist. -/
  | unknownReference (rule target : Name)
  /-- There are no rules. -/
  | emptyGrammar
  /-- The grammar could not be had. -/
  | source (message : String)
deriving DecidableEq, Repr

/-- What is said about an error. -/
def BuildError.message : BuildError → String
  | unknownReference rule target =>
    "Unknown reference: rule `" ++ rule ++ "` refers to undefined rule `" ++ target ++ "`"
  | emptyGrammar => "Empty grammar: no rules to build a model from"
  | source message => "Grammar source error: " ++ message

instance : ToString BuildError where
  toString := BuildError.message

/-- Why building ends before there is a model. -/
inductive BuildStop where
  /-- The grammar is at fault. -/
  | error (e : BuildError)
  /-- A step asked for something that is not there. -/
  | fault (f : Fault)
deriving DecidableEq, Repr

/-! ## 2. Drafts -/

/-- A model in the making. -/
structure Draft where
  /-- The model so far. -/
  model : Model
  /-- The events so far. -/
  events : Array Event := #[]
  /-- The properties made for the entity in hand, under the names they were made with. -/
  attached : List (Name × PropertyId) := []
deriving DecidableEq, Repr

/-- A step in building a model. -/
abbrev Build (α : Type) := EStateM BuildStop Draft α

namespace Build

/-- Tells of an event. -/
def tell (e : Event) : Build Unit :=
  modify fun d => { d with events := d.events.push e }

/-- The model so far. -/
def model : Build Model :=
  return (← get).model

/-- Goes on with another model. -/
def setModel (m : Model) : Build Unit :=
  modify fun d => { d with model := m }

/-- The result of a request, unless it is a fault. -/
def check {α : Type} (x : Checked α) : Build α :=
  match x with
  | .ok a => return a
  | .error f => throw (.fault f)

/-- Changes the model by an edit that has a result. -/
def change {α : Type} (edit : Model → Checked (α × Model)) : Build α := do
  let (a, m) ← check (edit (← model))
  setModel m
  return a

/-- Changes the model by an edit without a result. -/
def update (edit : Model → Checked Model) : Build Unit := do
  setModel (← check (edit (← model)))

/-- The outcome of a step that starts from the given model, and the events on the way. -/
def run (step : Build Unit) (m : Model) : Except BuildStop Model × Array Event :=
  match EStateM.run step { model := m } with
  | .ok _ d => (.ok d.model, d.events)
  | .error stop d => (.error stop, d.events)

end Build

end Ebnf
