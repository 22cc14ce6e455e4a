import Ebnf.Proofs.Plan
import Ebnf.Proofs.Step

/-!
# How a plan is laid down

Making the actions and properties of an expression adds them at the end of the two arenas, children
before the action they belong to. What is added depends on the plan of the expression and on the
first free places only, and is spelled out here.

* `Plan.code`: the actions of a plan that is laid down from the places `a` and `q` on, its topmost
  action last;
* `Plan.props`: its properties, one for each leaf that asks for a name.
-/

namespace Ebnf

open Build (Place literalName? labelOr)

namespace Plan

/-! ## 1. The actions of a plan -/

/-- The topmost actions of several plans that are laid down in a row. -/
def roots (a : Nat) : List Plan → List ActionId
  | [] => []
  | p :: ps => ⟨a + p.size - 1⟩ :: roots (a + p.size) ps

/-- The topmost action of a plan. -/
def top (a q : Nat) (parent : Option ActionId) : Plan → Action
  | leaf mods symbol slot =>
    { kind := symbol.kind, isOptional := mods.optional, isPlural := mods.plural,
      isWitness := symbol.isWitness, property := slot.map fun _ => ⟨q⟩, parent }
  | node mods choice parts =>
    { kind := if choice then .any (roots a parts) else .all (roots a parts),
      isOptional := mods.optional, isPlural := mods.plural, parent }

mutual

/-- The actions below the topmost one. -/
def beneath (a q : Nat) : Plan → List Action
  | leaf _ _ _ => []
  | node _ _ parts => layOut a q (some ⟨a + sizes parts⟩) parts

/-- The actions of several plans in a row, under the same parent. -/
def layOut (a q : Nat) (parent : Option ActionId) : List Plan → List Action
  | [] => []
  | p :: ps =>
    p.beneath a q ++ p.top a q parent :: layOut (a + p.size) (q + p.width) parent ps

end

/-- The actions of a plan. -/
def code (a q : Nat) (parent : Option ActionId) (p : Plan) : List Action :=
  p.beneath a q ++ [p.top a q parent]

mutual

theorem length_beneath (a q : Nat) : ∀ p : Plan, (p.beneath a q).length + 1 = p.size
  | leaf _ _ _ => rfl
  | node _ _ parts => by rw [beneath, size, length_layOut]

theorem length_layOut (a q : Nat) (parent : Option ActionId) :
    ∀ ps : List Plan, (layOut a q parent ps).length = sizes ps
  | [] => rfl
  | p :: ps => by
    have hp := length_beneath a q p
    rw [layOut, List.length_append, List.length_cons, length_layOut, sizes]
    omega

end

/-- A plan has as many actions as its size says. -/
theorem length_code (a q : Nat) (parent : Option ActionId) (p : Plan) :
    (p.code a q parent).length = p.size := by
  rw [code, List.length_append, ← length_beneath a q p]
  rfl

theorem beneath_withMods (f : Modifiers → Modifiers) (p : Plan) (a q : Nat) :
    (p.withMods f).beneath a q = p.beneath a q := by
  cases p <;> rfl

/-- The same actions with the topmost one marked otherwise. -/
theorem code_withMods (f : Modifiers → Modifiers) (p : Plan) (a q : Nat)
    (parent : Option ActionId) :
    (p.withMods f).code a q parent = p.beneath a q ++ [{ p.top a q parent with
      isOptional := (f p.mods).optional, isPlural := (f p.mods).plural }] := by
  rw [code, beneath_withMods]
  cases p <;> rfl

theorem top_mods (p : Plan) (a q : Nat) (parent : Option ActionId) :
    (p.top a q parent).isOptional = p.mods.optional ∧
      (p.top a q parent).isPlural = p.mods.plural := by
  cases p <;> exact ⟨rfl, rfl⟩

theorem top_parent (p : Plan) (a q : Nat) (parent parent' : Option ActionId) :
    { p.top a q parent with parent := parent' } = p.top a q parent' := by
  cases p <;> rfl

mutual

/-- The actions of a plan refer to what the plan refers to. -/
theorem target_mem_references {a q : Nat} {parent : Option ActionId} {x : Action} {t : Name}
    (ht : x.target? = some t) : ∀ {p : Plan}, x ∈ p.code a q parent → t ∈ p.references
  | leaf mods symbol slot, hx => by
    obtain rfl := List.mem_singleton.1 hx
    cases symbol with
    | literal text witness => exact absurd ht (by simp [top, Symbol.kind, Action.target?])
    | pattern source => exact absurd ht (by simp [top, Symbol.kind, Action.target?])
    | reference target =>
      obtain rfl : target = t := Option.some.inj ht
      exact List.mem_singleton_self target
  | node mods choice parts, hx => by
    rcases List.mem_append.1 hx with hx | hx
    · exact target_mem_referencesOf ht hx
    · obtain rfl := List.mem_singleton.1 hx
      cases choice <;> exact absurd ht (by simp [top, Action.target?])

theorem target_mem_referencesOf {a q : Nat} {parent : Option ActionId} {x : Action} {t : Name}
    (ht : x.target? = some t) :
    ∀ {ps : List Plan}, x ∈ layOut a q parent ps → t ∈ referencesOf ps
  | [], hx => absurd hx List.not_mem_nil
  | p :: ps, hx => by
    rw [layOut, List.mem_append, List.mem_cons] at hx
    rw [referencesOf, List.mem_append]
    rcases hx with hx | rfl | hx
    · exact .inl (target_mem_references ht
        (List.mem_append_left [p.top a q parent] hx))
    · exact .inl (target_mem_references ht
        (List.mem_append_right (p.beneath a q) (List.mem_singleton_self _)))
    · exact .inr (target_mem_referencesOf ht hx)

end

/-! ## 2. The properties of a plan -/

mutual

/-- The properties of a plan, under the names they ask for. -/
def props (entity : Name) (a : Nat) : Plan → List Property
  | leaf _ _ slot => slot.toList.map fun name => { name, entity, source := ⟨a⟩ }
  | node _ _ parts => propsOf entity a parts

/-- The properties of several plans in a row. -/
def propsOf (entity : Name) (a : Nat) : List Plan → List Property
  | [] => []
  | p :: ps => p.props entity a ++ propsOf entity (a + p.size) ps

end

mutual

/-- The properties have the names that the leaves ask for. -/
theorem map_name_props (entity : Name) (a : Nat) :
    ∀ p : Plan, (p.props entity a).map Property.name = p.slots
  | leaf _ _ slot => by cases slot <;> rfl
  | node _ _ parts => map_name_propsOf entity a parts

theorem map_name_propsOf (entity : Name) (a : Nat) :
    ∀ ps : List Plan, (propsOf entity a ps).map Property.name = slotsOf ps
  | [] => rfl
  | p :: ps => by
    rw [propsOf, List.map_append, map_name_props, map_name_propsOf, slotsOf]

end

/-- A plan has one property for each name asked for. -/
theorem length_props (entity : Name) (a : Nat) (p : Plan) :
    (p.props entity a).length = p.width := by
  rw [width, ← map_name_props entity a p, List.length_map]

theorem props_withMods (f : Modifiers → Modifiers) (p : Plan) (entity : Name) (a : Nat) :
    (p.withMods f).props entity a = p.props entity a := by
  cases p <;> rfl

/-- Names with the ids of properties that are made in a row. -/
def tagged (q : Nat) (names : List Name) : List (Name × PropertyId) :=
  (names.zipIdx q).map fun (name, i) => (name, ⟨i⟩)

theorem tagged_append (q : Nat) (names names' : List Name) :
    tagged q (names ++ names') = tagged q names ++ tagged (q + names.length) names' := by
  rw [tagged, List.zipIdx_append, List.map_append]
  rfl

end Plan

end Ebnf
