import Ebnf.Regex.Pattern

/-!
# Automata

A pattern as a graph of states. A state asks for a character or for a condition and leads to the
next one, or forks; at a fork the first way is preferred.

* `State`, `Automaton`: the graph;
* `Pattern.build`: adds the states of a pattern, given the state to go on with. So the parts of a
  sequence are built from the last to the first;
* `Automaton.ofPattern`: the automaton of a pattern.
-/

namespace Ebnf.Regex

/-! ## 1. States -/

/-- A state of an automaton. -/
inductive State where
  /-- Passes over one character out of a set. -/
  | one (set : Unicode.CharSet) (next : Nat)
  /-- Goes on where a condition holds. -/
  | look (l : Look) (next : Nat)
  /-- Goes on in either of two states, the first one being preferred. -/
  | fork (first second : Nat)
  /-- The pattern is matched. -/
  | done
deriving DecidableEq, Repr

/-- A graph of states. -/
structure Automaton where
  /-- The states; they refer to each other by place. -/
  states : Array State
  /-- The place of the state to begin with. -/
  start : Nat
deriving DecidableEq, Repr

/-! ## 2. Building -/

/-- A step in building an automaton. -/
abbrev Assembly (α : Type) := StateM (Array State) α

namespace Assembly

/-- Adds a state; answers its place. -/
def add (s : State) : Assembly Nat := fun states =>
  (states.size, states.push s)

/-- A fork between going on with something and leaving it. -/
def forkOf (greedy : Bool) (on off : Nat) : State :=
  if greedy then .fork on off else .fork off on

/-- Builds a loop: after the body, either the body again or what is next. Answers where the body
    begins and where the fork is. -/
def loop (greedy : Bool) (body : Nat → Assembly Nat) (next : Nat) : Assembly (Nat × Nat) := do
  let fork ← add .done
  let entry ← body fork
  modify fun states => states.set! fork (forkOf greedy entry next)
  return (entry, fork)

/-- Does a step several times, each time with the answer of the time before. -/
def iterate (step : Nat → Assembly Nat) : Nat → Nat → Assembly Nat
  | 0, next => return next
  | n + 1, next => do iterate step n (← step next)

end Assembly

open Assembly

/-- Adds states for the characters of a text. -/
def buildText : List Char → Nat → Assembly Nat
  | [], next => return next
  | c :: cs, next => do add (.one (.singleton c) (← buildText cs next))

mutual

/-- Adds the states of a pattern that goes on at `next`; answers where the pattern begins.

    A loop over something that may be empty is entered through a fork of its own: in that case it
    would otherwise be left before what it has matched is preferred. -/
def Pattern.build : Pattern → Nat → Assembly Nat
  | .empty, next => return next
  | .text cs, next => buildText cs next
  | .one set, next => add (.one set next)
  | .look l, next => add (.look l next)
  | .capture inner, next => inner.build next
  | .concat items, next => buildAll items next
  | .alternation items, next => buildAny items next
  | .repeated r inner, next => do
    match r.max with
    | some most =>
      let optional (after : Nat) : Assembly Nat := do
        add (forkOf r.greedy (← inner.build after) next)
      let rest ← iterate optional (most - r.min) next
      iterate (fun after => inner.build after) r.min rest
    | none =>
      let (entry, fork) ← loop r.greedy (fun after => inner.build after) next
      if 0 < r.min then iterate (fun after => inner.build after) (r.min - 1) entry
      else if inner.isNullable then add (forkOf r.greedy entry next)
      else return fork

/-- Adds the states of patterns one after the other. -/
def buildAll : List Pattern → Nat → Assembly Nat
  | [], next => return next
  | p :: ps, next => do p.build (← buildAll ps next)

/-- Adds the states of alternatives. -/
def buildAny : List Pattern → Nat → Assembly Nat
  | [], next => add (.one ∅ next)
  | [p], next => p.build next
  | p :: ps, next => do
    let first ← p.build next
    let second ← buildAny ps next
    add (.fork first second)

end

/-- The automaton of a pattern. -/
def Automaton.ofPattern (p : Pattern) : Automaton :=
  let (start, states) := (p.build 0).run #[.done]
  { states, start }

end Ebnf.Regex
