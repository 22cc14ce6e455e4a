import Std.Data.HashSet
import Ebnf.Reading.Engine
import Ebnf.Regex.Automaton

/-!
# Searching a text with an automaton

Looks for the first place in a text where a pattern is matched, and of all matches there for the
preferred one. Ways through the automaton are tried in the order of preference. A state that was
once tried at some place did not lead to a match, and would not the next time, so it is passed over;
this bounds the work by the number of states times the length of the text.

* `Place`: a state at a place in the text;
* `Automaton.steps`: where a place leads to;
* `Automaton.find?`: the first match.
-/

namespace Ebnf.Regex

/-- A state of an automaton at a place in a text. -/
structure Place where
  /-- The state. -/
  state : Nat
  /-- How many characters come before. -/
  index : Nat
deriving BEq, Hashable

namespace Automaton

/-- The character before a place. -/
def before? (text : Array Char) (index : Nat) : Option Char :=
  if index = 0 then none else text[index - 1]?

/-- Where a place leads to, the preferred way first. -/
def steps (a : Automaton) (text : Array Char) (p : Place) : List Place :=
  match a.states[p.state]? with
  | some (.one set next) => if text[p.index]?.any set.has then [⟨next, p.index + 1⟩] else []
  | some (.look l next) =>
    if l.holds (before? text p.index) text[p.index]? then [⟨next, p.index⟩] else []
  | some (.fork first second) => [⟨first, p.index⟩, ⟨second, p.index⟩]
  | some .done => []
  | none => []

/-- Whether the pattern is matched at a place. -/
def isDone (a : Automaton) (p : Place) : Bool :=
  a.states[p.state]? == some .done

/-- Tries places in order, those that a place leads to before the others. Answers where the first
    match ends, and the places that have been tried. -/
def run (a : Automaton) (text : Array Char) :
    Nat → List Place → Std.HashSet Place → Option Nat × Std.HashSet Place
  | 0, _, tried => (none, tried)
  | _ + 1, [], tried => (none, tried)
  | fuel + 1, p :: todo, tried =>
    if tried.contains p then run a text fuel todo tried
    else if a.isDone p then (some p.index, tried)
    else run a text fuel (a.steps text p ++ todo) (tried.insert p)

/-- An upper bound for the places that are looked at: each place is tried once and leads to two
    others at most. -/
def bound (a : Automaton) (text : Array Char) : Nat :=
  2 * (a.states.size * (text.size + 1)) + 2

/-- The first match that starts at one of the given places. Answers where it starts and ends. -/
def findAt? (a : Automaton) (text : Array Char) :
    List Nat → Std.HashSet Place → Option (Nat × Nat)
  | [], _ => none
  | i :: rest, tried =>
    match a.run text (a.bound text) [⟨a.start, i⟩] tried with
    | (some stop, _) => some (i, stop)
    | (none, tried) => a.findAt? text rest tried

/-- Whether only the start of a text can be matched. -/
def isAnchored (a : Automaton) : Bool :=
  match a.states[a.start]? with
  | some (.look .textStart _) => true
  | _ => false

/-- The first match in a text. -/
def find? (a : Automaton) : Matcher := fun cs =>
  let text := cs.toArray
  let starts := if a.isAnchored then [0] else List.range (text.size + 1)
  match a.findAt? text starts ∅ with
  | some (start, stop) => some { start, text := (cs.drop start).take (stop - start) }
  | none => none

end Automaton

end Ebnf.Regex
