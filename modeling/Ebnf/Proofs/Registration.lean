import Ebnf.Proofs.Hierarchy

/-!
# Entities and links one by one

A model can be made by hand, one entity or one link at a time. Whatever the order of these edits,
the links order the entities strictly and are noted on both sides, and a link that is accepted adds
to the order what follows from it and nothing else.

* `Model.Edit`, `Model.edited`: the edits, and the model that a row of them leads to;
* `Model.Strict`: the links order the entities;
* `Model.Extends`: what an attempt to link two entities answers and does;
* `edited_strict_and_exact`: both hold after any edits.
-/

namespace Ebnf

open Relation (TransGen ReflTransGen)

namespace Model

variable {m m' : Model} {parent child x y z : Name}

/-! ## 1. Edits -/

/-- An entity that has no links yet. Every entity is made so. -/
structure Newcomer where
  /-- The entity. -/
  entity : Entity
  supers : entity.supers = []
  subs : entity.subs = []

/-- An edit of the entities or of their links. -/
inductive Edit where
  /-- One more entity. -/
  | add (n : Newcomer)
  /-- A link between two entities. -/
  | register (parent child : Name)

/-- Whether an edit is accepted, and the model after it: the same one if it is refused. -/
def answer (m : Model) : Option Model → Bool × Model
  | some m' => (true, m')
  | none => (false, m)

/-- Tries an edit. -/
def Edit.apply (m : Model) : Edit → Bool × Model
  | add n => m.answer (m.addEntity? n.entity)
  | register parent child => m.answer (m.register? parent child)

/-- The model that a row of edits leads to. -/
def edited (edits : List Edit) : Model :=
  edits.foldl (fun m edit => (edit.apply m).2) ∅

/-! ## 2. The order and what is added to it -/

/-- There is a link from an entity down to a name. -/
def Sub (m : Model) (parent child : Name) : Prop :=
  ∃ e, m.entity? parent = some e ∧ child ∈ e.subs

/-- Links are noted on both sides, and to be a special case is a strict order. -/
structure Strict (m : Model) : Prop where
  mirrored : ∀ x y, m.Super x y ↔ m.Sub y x
  irreflexive : ∀ x, m.isA x x = false
  transitive : ∀ x y z, m.isA x y = true → m.isA y z = true → m.isA x z = true

/-- What an attempt to link two entities leads to: it is accepted where both are there, differ and
    are not in order yet; a refused one changes nothing; and after an accepted one `x` is a special
    case of `y` if it was before, or if the way goes over the new link. -/
structure Extends (m : Model) (parent child : Name) (result : Bool × Model) : Prop where
  accepted : result.1 = true ↔ m.contains parent = true ∧ m.contains child = true ∧
    parent ≠ child ∧ m.isA child parent = false ∧ m.isA parent child = false
  refused : result.1 = false → result.2 = m
  order : result.1 = true → ∀ x y, result.2.isA x y = true ↔ m.isA x y = true ∨
    (x = child ∨ m.isA x child = true) ∧ (y = parent ∨ m.isA parent y = true)

/-! ## 3. Both sides of a link -/

/-- A super of an entity has it as its sub. -/
theorem Ranked.sub_of_super (h : m.Ranked) (hlink : m.Super x y) : m.Sub y x := by
  obtain ⟨e, he, hy⟩ := hlink
  have hmem := mem_of_entity?_eq_some he
  obtain rfl := name_of_entity?_eq_some he
  obtain ⟨o, ho⟩ := mem_names_iff.1 (h.known e hmem y (.inl hy))
  obtain rfl := name_of_entity?_eq_some ho
  exact ⟨o, ho, (h.both o (mem_of_entity?_eq_some ho) e hmem).2 hy⟩

/-- Links that are noted on both sides and lead in no circle make a strict order. -/
theorem Ranked.strict (h : m.Ranked) : m.Strict where
  mirrored := by
    intro x y
    refine ⟨h.sub_of_super, ?_⟩
    rintro ⟨e, he, hx⟩
    exact h.super_of_mem_subs he hx
  irreflexive := fun x => Bool.eq_false_iff.2 fun hself => h.acyclic x (isA_iff.1 hself)
  transitive := fun _ _ _ hxy hyz => isA_iff.2 ((isA_iff.1 hxy).trans (isA_iff.1 hyz))

/-! ## 4. One more entity -/

/-- Only a name that is not taken can be added. -/
theorem addEntity?_eq_some {e : Entity} (h : m.addEntity? e = some m') :
    e.name ∉ m.names ∧ m'.entities = m.entities ++ [e] := by
  unfold addEntity? at h
  split at h
  · contradiction
  · next hfree =>
    obtain rfl := Option.some.inj h
    exact ⟨fun hmem => hfree (contains_iff.2 hmem), rfl⟩

/-- A new entity that has no links brings none. -/
theorem super_of_addEntity? {n : Newcomer} (h : m.addEntity? n.entity = some m')
    (hlink : m'.Super x y) : m.Super x y := by
  obtain ⟨e, he, hy⟩ := hlink
  rw [entity?, (addEntity?_eq_some h).2, List.find?_append] at he
  rcases Option.or_eq_some_iff.1 he with hold | ⟨_, hnew⟩
  · exact ⟨e, hold, hy⟩
  · rw [List.mem_singleton.1 (List.mem_of_find?_eq_some hnew), n.supers] at hy
    exact absurd hy List.not_mem_nil

/-- A new entity that has no links keeps the order. -/
theorem Ranked.addEntity (h : m.Ranked) {n : Newcomer} (hadd : m.addEntity? n.entity = some m') :
    m'.Ranked := by
  obtain ⟨hfresh, hentities⟩ := addEntity?_eq_some hadd
  have hcases : ∀ e ∈ m'.entities, e ∈ m.entities ∨ e = n.entity := by
    intro e he
    rw [hentities] at he
    exact (List.mem_append.1 he).imp_right List.mem_singleton.1
  -- the links there are lead to entities that were there before
  have hunknown : ∀ e ∈ m.entities, n.entity.name ∉ e.supers ∧ n.entity.name ∉ e.subs :=
    fun e he => ⟨fun hmem => hfresh (h.known e he _ (.inl hmem)),
      fun hmem => hfresh (h.known e he _ (.inr hmem))⟩
  refine ⟨fun e he k hk => ?_, fun e he o ho => ?_, fun k hcircle => ?_⟩
  · rcases hcases e he with hold | rfl
    · rw [names, hentities, List.map_append]
      exact List.mem_append_left _ (h.known e hold k hk)
    · rw [n.supers, n.subs] at hk
      rcases hk with hk | hk <;> exact absurd hk List.not_mem_nil
  · rcases hcases e he with hold | rfl <;> rcases hcases o ho with hold' | rfl
    · exact h.both e hold o hold'
    · simp only [n.supers, List.not_mem_nil, iff_false]
      exact (hunknown e hold).2
    · simp only [n.subs, List.not_mem_nil, false_iff]
      exact (hunknown o hold').1
    · simp only [n.subs, n.supers, List.not_mem_nil]
  · exact h.acyclic k (TransGen.mono (fun _ _ => super_of_addEntity? hadd) _ _ hcircle)

/-! ## 5. One more link -/

/-- The ways up after one more link: those without it, and those up to it and on from it. -/
theorem way_linked_iff (hchild : child ∈ m.names) :
    TransGen (Super { m with entities := m.entities.map (linked parent child) }) x y ↔
      TransGen m.Super x y ∨ ReflTransGen m.Super x child ∧ ReflTransGen m.Super parent y := by
  have hold : ∀ x y, m.Super x y →
      Super { m with entities := m.entities.map (linked parent child) } x y := fun _ _ hlink =>
    (super_linked_iff hchild).2 (.inl hlink)
  refine ⟨way_linked, ?_⟩
  rintro (hway | ⟨hup, hon⟩)
  · exact TransGen.mono hold _ _ hway
  · have hnew : Super { m with entities := m.entities.map (linked parent child) } child parent :=
      (super_linked_iff hchild).2 (.inr ⟨rfl, rfl⟩)
    exact TransGen.trans_left (.tail' (ReflTransGen.mono hold _ _ hup) hnew)
      (ReflTransGen.mono hold _ _ hon)

/-- A way of any length is no way at all or one over a link at least. -/
theorem way_iff_isA : ReflTransGen m.Super x y ↔ y = x ∨ m.isA x y = true := by
  rw [Relation.reflTransGen_iff_eq_or_transGen, isA_iff]

/-- The order after one more link. -/
theorem isA_register (h : m.register? parent child = some m') :
    m'.isA x y = true ↔ m.isA x y = true ∨
      (x = child ∨ m.isA x child = true) ∧ (y = parent ∨ m.isA parent y = true) := by
  obtain ⟨rfl, _, _, _, hchild⟩ := register?_eq_some h
  rw [isA_iff, way_linked_iff hchild, way_iff_isA, way_iff_isA, ← isA_iff, eq_comm (a := child)]

/-- A link is refused where an entity is missing, or where the two are the same or in order. -/
theorem register?_isSome :
    (m.register? parent child).isSome = true ↔ m.contains parent = true ∧ m.contains child = true ∧
      parent ≠ child ∧ m.isA child parent = false ∧ m.isA parent child = false := by
  rw [register?, contains_iff, contains_iff]
  split
  · next hfound =>
    refine iff_of_false Bool.false_ne_true ?_
    rintro ⟨hparent, hchild, hne, hsub, hsuper⟩
    rw [hsub, hsuper] at hfound
    simp [hparent, hchild, hne] at hfound
  · next hfree =>
    simp only [not_or, not_not, Bool.not_eq_true] at hfree
    obtain ⟨hne, hsub, hsuper, hparent, hchild⟩ := hfree
    exact iff_of_true rfl ⟨hparent, hchild, hne, hsub, hsuper⟩

/-- An attempt to link two entities does what is said of it, in any model. -/
theorem extends_register (m : Model) (parent child : Name) :
    m.Extends parent child ((Edit.register parent child).apply m) := by
  have hsome : (m.register? parent child).isSome = true ↔ _ := register?_isSome
  rw [Edit.apply]
  cases hreg : m.register? parent child with
  | none =>
    rw [hreg] at hsome
    exact ⟨hsome, fun _ => rfl, fun htrue => absurd htrue Bool.false_ne_true⟩
  | some m' =>
    rw [hreg] at hsome
    exact ⟨hsome, fun hfalse => absurd hfalse.symm Bool.false_ne_true,
      fun _ _ _ => isA_register hreg⟩

/-! ## 6. Any edits -/

theorem ranked_empty : (∅ : Model).Ranked where
  known := fun _ he => absurd he List.not_mem_nil
  both := fun _ he => absurd he List.not_mem_nil
  acyclic := fun _ hcircle => absurd (mem_names_of_transGen hcircle) List.not_mem_nil

/-- An edit keeps the order. -/
theorem Ranked.apply (h : m.Ranked) (edit : Edit) : (edit.apply m).2.Ranked := by
  cases edit with
  | add n =>
    rw [Edit.apply]
    cases hadd : m.addEntity? n.entity with
    | none => exact h
    | some m' => exact h.addEntity hadd
  | register parent child =>
    rw [Edit.apply]
    cases hreg : m.register? parent child with
    | none => exact h
    | some m' => exact (h.register hreg).1

/-- A row of edits keeps the order. -/
theorem Ranked.foldl_apply (edits : List Edit) :
    ∀ {m : Model}, m.Ranked → (edits.foldl (fun m edit => (edit.apply m).2) m).Ranked := by
  induction edits with
  | nil => exact id
  | cons edit edits ih => exact fun h => ih (h.apply edit)

/-- Any edits lead to a model whose links order the entities strictly, and in which an attempt to
    link two entities adds to the order what follows from the link, or nothing. -/
theorem edited_strict_and_exact (edits : List Edit) :
    (edited edits).Strict ∧ ∀ parent child,
      (edited edits).Extends parent child ((Edit.register parent child).apply (edited edits)) :=
  ⟨(ranked_empty.foldl_apply edits).strict, extends_register (edited edits)⟩

end Model

end Ebnf
