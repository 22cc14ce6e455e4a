import Ebnf.Grammar.Expr

/-!
# Values under names, in order

A list of named values that remembers the order in which its names were first given: `Ordered.set`
changes the value of a name in its place, or adds a new name at the end.
-/

namespace Ebnf

/-- Values under names, in the order in which the names were first given. -/
abbrev Ordered (α : Type) := List (Name × α)

namespace Ordered

variable {α : Type}

/-- The value under a name. -/
def get? (vs : Ordered α) (key : Name) : Option α :=
  List.lookup key vs

/-- Puts a value under a name: in the place of the one that was there, or at the end. -/
def set (vs : Ordered α) (key : Name) (v : α) : Ordered α :=
  match vs with
  | [] => [(key, v)]
  | (k, old) :: rest => if k = key then (key, v) :: rest else (k, old) :: set rest key v

/-- A value that was put under a name is found there. -/
theorem get?_set_self (vs : Ordered α) (key : Name) (v : α) :
    get? (set vs key v) key = some v := by
  induction vs with
  | nil => simp [set, get?]
  | cons entry rest ih =>
    obtain ⟨k, old⟩ := entry
    unfold set
    split
    · simp [get?]
    · next h =>
      have h' : (key == k) = false := beq_eq_false_iff_ne.2 (Ne.symm h)
      simpa only [get?, List.lookup_cons, h'] using ih

/-- Putting a value under one name leaves the others as they were. -/
theorem get?_set_of_ne (vs : Ordered α) {key other : Name} (v : α) (h : other ≠ key) :
    get? (set vs key v) other = get? vs other := by
  have hne : (other == key) = false := by simpa using h
  induction vs with
  | nil => simp [set, get?, List.lookup_cons, hne]
  | cons entry rest ih =>
    obtain ⟨k, old⟩ := entry
    unfold set
    split
    · next hk => subst hk; simp [get?, List.lookup_cons, hne]
    · cases hk : other == k with
      | true => simp only [get?, List.lookup_cons, hk]
      | false => simpa only [get?, List.lookup_cons, hk] using ih

end Ordered

end Ebnf
