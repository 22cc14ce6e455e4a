import Ebnf.Regex.Parser
import Ebnf.Regex.Resolve
import Ebnf.Regex.Search
import Ebnf.Regex.Size

/-!
# Regular expressions

Understands patterns as regular expressions: neither looking around nor referring back is possible,
characters are those of Unicode unless a flag says otherwise, and of several matches at the first
place the one is taken that a search by trial would find first.

* `automaton`: the automaton of an expression;
* `engine`: regular expressions as an engine for reading.
-/

namespace Ebnf.Regex

/-- The automaton of an expression. -/
def automaton (text : String) : Except PatternError Automaton := do
  let pattern ← Pattern.ofAst (← Ast.parse text)
  if !pattern.fits then throw .tooLarge
  return .ofPattern pattern

/-- Understands patterns as regular expressions. -/
def engine : Engine where
  compile text :=
    match automaton text with
    | .ok a => .ok a.find?
    | .error e => .error e.message

end Ebnf.Regex
