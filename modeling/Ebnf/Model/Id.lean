import Ebnf.Fault

/-!
# Ids

Properties and actions of a model are referred to by ids, which count them in the order of their
creation. An id has 32 bits, so an index beyond that range has none (`ActionId.ofIndex`,
`PropertyId.ofIndex`).
-/

namespace Ebnf

/-- The number of ids of a kind: two to the power of 32. -/
def idCount : Nat := 4294967296

/-- The place of a property in its model. -/
structure PropertyId where
  /-- How many properties were created before. -/
  index : Nat
deriving DecidableEq, Repr

/-- The place of a parse action in its model. -/
structure ActionId where
  /-- How many actions were created before. -/
  index : Nat
deriving DecidableEq, Repr

/-- The id of the property with the given index. -/
def PropertyId.ofIndex (index : Nat) : Checked PropertyId :=
  if index < idCount then .ok ⟨index⟩ else .error (.tooManyEntries index)

/-- The id of the action with the given index. -/
def ActionId.ofIndex (index : Nat) : Checked ActionId :=
  if index < idCount then .ok ⟨index⟩ else .error (.tooManyEntries index)

instance : ToString PropertyId where
  toString id := "p" ++ toString id.index

instance : ToString ActionId where
  toString id := "a" ++ toString id.index

theorem PropertyId.ofIndex_eq_ok_iff {index : Nat} {id : PropertyId} :
    ofIndex index = .ok id ↔ index < idCount ∧ id = ⟨index⟩ := by
  unfold ofIndex
  split
  · next h => simp [h, eq_comm]
  · next h => simp [h]

theorem ActionId.ofIndex_eq_ok_iff {index : Nat} {id : ActionId} :
    ofIndex index = .ok id ↔ index < idCount ∧ id = ⟨index⟩ := by
  unfold ofIndex
  split
  · next h => simp [h, eq_comm]
  · next h => simp [h]

end Ebnf
