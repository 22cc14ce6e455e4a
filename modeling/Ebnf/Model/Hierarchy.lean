import Ebnf.Model.Edit
import Ebnf.Model.Unseen

/-!
# Supers and subs

Entities are ordered by links from subs to their supers. The links are kept on both sides.

* `Model.isA`: whether one entity is a special case of another, over any number of links;
* `Model.register?`: one more link, unless it is there already, over several links perhaps, or
  would lead in a circle.
-/

namespace Ebnf.Model

/-- Whether the way up from one of the names on the stack passes `goal`. The start of a way does
    not count as passed. A name that belongs to no entity ends a way. -/
def passes (m : Model) (goal : Name) (visited : List Name) : List Name → Bool
  | [] => false
  | name :: rest =>
    match m.entity? name with
    | none => m.passes goal visited rest
    | some e =>
      if goal ∈ e.supers then true
      else
        let fresh := e.supers.filter fun s => s ∉ visited ∧ s ∈ m.names
        m.passes goal (fresh ++ visited) (fresh ++ rest)
termination_by stack => (unseen m.names visited, stack.length)
decreasing_by
  · exact Prod.Lex.right _ (by simp)
  · cases hf : e.supers.filter fun s => s ∉ visited ∧ s ∈ m.names with
    | nil => exact Prod.Lex.right _ (by simp)
    | cons s fresh =>
      have hs : s ∈ e.supers.filter fun s => s ∉ visited ∧ s ∈ m.names := hf ▸ List.mem_cons_self
      obtain ⟨hnot, hmem⟩ : s ∉ visited ∧ s ∈ m.names := by
        simpa using (List.mem_filter.1 hs).2
      exact Prod.Lex.left _ _
        (unseen_lt (fun n hn => List.mem_append_right _ hn) hmem hnot (by simp))

/-- Whether `child` is a special case of `parent`, over one link or more. -/
def isA (m : Model) (child parent : Name) : Bool :=
  m.passes parent [] [child]

/-- The model with `child` linked to `parent` on both sides, or `none` where the link would join an
    entity to itself, follow from the links there are, lead in a circle, or name no entity. -/
def register? (m : Model) (parent child : Name) : Option Model :=
  if parent = child ∨ m.isA child parent ∨ m.isA parent child ∨
      parent ∉ m.names ∨ child ∉ m.names then none
  else some ((m.addSub parent child).addSuper child parent)

/-- A new link changes no name. -/
theorem names_register? {m m' : Model} {parent child : Name}
    (h : m.register? parent child = some m') : m'.names = m.names := by
  unfold register? at h
  split at h
  · contradiction
  · cases h
    simp

end Ebnf.Model
