import Ebnf.Grammar.Expr

/-!
# Names that differ

The parts of a rule often ask for the same name. `distinctNames` keeps a name that is asked for
once, and numbers the others: `id id id` become `id0 id1 id2`. A number is passed over where the
name it would make is taken.
-/

namespace Ebnf.Build

/-- A name with a number at its end. -/
def numbered (name : Name) (i : Nat) : Name :=
  name ++ toString i

/-- The least number from `i` on that makes a name not yet taken. -/
def freeIndex (name : Name) (taken : List Name) (i : Nat) : Nat :=
  if numbered name i ∈ taken then freeIndex name (taken.erase (numbered name i)) (i + 1)
  else i
termination_by taken.length
decreasing_by
  have := List.length_erase_of_mem ‹_›
  have := List.length_pos_of_mem ‹numbered name i ∈ taken›
  omega

/-- Gives each of the names asked for a name of its own, in order. `all` are all the names asked
    for, `taken` those that may not be given out any more, and `next` says for a name where the
    search for its number goes on; the first entry counts. -/
def assignNames (all taken : List Name) (next : List (Name × Nat)) : List Name → List Name
  | [] => []
  | name :: rest =>
    if all.count name ≤ 1 then name :: assignNames all (name :: taken) next rest
    else
      let i := freeIndex name taken ((next.lookup name).getD 0)
      numbered name i ::
        assignNames all (numbered name i :: taken) ((name, i + 1) :: next) rest

/-- Names that differ from each other, for those asked for. -/
def distinctNames (names : List Name) : List Name :=
  assignNames names (names.filter fun n => names.count n ≤ 1) [] names

/-- Every name asked for gets one. -/
theorem length_distinctNames (names : List Name) :
    (distinctNames names).length = names.length := by
  have h : ∀ all taken next rest,
      (assignNames all taken next rest).length = rest.length := by
    intro all taken next rest
    induction rest generalizing taken next with
    | nil => rfl
    | cons name rest ih =>
      unfold assignNames
      split <;> simp [ih]
  exact h ..

end Ebnf.Build
