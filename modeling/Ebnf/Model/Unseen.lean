import Ebnf.Grammar.Expr

/-!
# Searches that end

Walks over entities follow names that may lead in circles. They end because each step that does not
shrink the list of names still to be looked at marks a name as seen for the first time: `unseen`
counts the names that are left.
-/

namespace Ebnf

/-- How many of `names` are not among those seen. -/
def unseen : List Name → List Name → Nat
  | [], _ => 0
  | n :: names, seen => (if n ∈ seen then 0 else 1) + unseen names seen

/-- Before anything was seen, all is unseen. -/
theorem unseen_nil (names : List Name) : unseen names [] = names.length := by
  induction names with
  | nil => rfl
  | cons n names ih =>
    rw [unseen, ih, if_neg List.not_mem_nil, List.length_cons, Nat.add_comm]

/-- Seeing more leaves no more names unseen. -/
theorem unseen_le {names seen seen' : List Name} (hsub : ∀ n ∈ seen, n ∈ seen') :
    unseen names seen' ≤ unseen names seen := by
  induction names with
  | nil => simp [unseen]
  | cons a names ih =>
    have ha := hsub a
    simp only [unseen]
    split <;> split <;> first | omega | simp_all

/-- Seeing a name for the first time leaves fewer unseen. -/
theorem unseen_lt {names seen seen' : List Name} {n : Name} (hsub : ∀ n ∈ seen, n ∈ seen')
    (hn : n ∈ names) (h : n ∉ seen) (h' : n ∈ seen') :
    unseen names seen' < unseen names seen := by
  induction names with
  | nil => simp at hn
  | cons a names ih =>
    have hle : unseen names seen' ≤ unseen names seen := unseen_le hsub
    simp only [unseen]
    rcases List.mem_cons.1 hn with rfl | hn
    · rw [if_pos h', if_neg h]; omega
    · have hlt := ih hn
      have ha := hsub a
      split <;> split <;> first | omega | simp_all

end Ebnf
