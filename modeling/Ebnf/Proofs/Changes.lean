import Ebnf.Model.Attributes
import Ebnf.Proofs.Arena
import Ebnf.Proofs.Hierarchy

/-!
# Actions and properties one by one

A model can be made by hand, change by change. An action may be made a child more than once, and a
property may take over an action that fills another one, so what an action says of its parent and
its children need not fit together. Yet whatever the order of the changes, parents come after the
actions below them, so every way up and every way down ends; and the root is the first entity.

* `Model.Change`, `Model.changed`: the changes, and the model that a row of them leads to;
* `Action.Placed`, `Model.Layered`: the ids in the arenas lead to where they should;
* `Change.layered`, `Change.rooted`: what one change keeps;
* `Model.Line`: the way up from an action to one that has no parent;
* `changed_layered_and_rooted`: what holds after any changes.
-/

namespace Ebnf

/-! ## 1. Changes -/

namespace Model

/-- A change of a model by hand. -/
inductive Change where
  /-- One more entity, unless its name is taken. -/
  | addEntity (e : Entity)
  /-- Another entity in the place of the one of the same name, if there is one. -/
  | replaceEntity (e : Entity)
  /-- One more action. It has no parent, no property and no mark yet. -/
  | addAction (kind : ActionKind)
  /-- Other marks for an action. -/
  | mark (id : ActionId) (isOptional isPlural isWitness : Bool)
  /-- One more property, which the action that it names is linked to. -/
  | addProperty (p : Property)
  /-- Another name for a property. -/
  | renameProperty (id : PropertyId) (name : Name)
  /-- A link between two entities, unless it is refused. -/
  | register (parent child : Name)

/-- The model after a change, where that names no id outside the arenas. -/
def Change.apply (m : Model) : Change → Checked Model
  | addEntity e => .ok ((m.addEntity? e).getD m)
  | replaceEntity e => .ok (m.replaceEntity e)
  | addAction kind => return (← m.addAction { kind }).2
  | mark id isOptional isPlural isWitness =>
    m.modifyAction id fun a => { a with isOptional, isPlural, isWitness }
  | addProperty p => return (← m.addProperty p).2
  | renameProperty id name => m.renameProperty id name
  | register parent child => .ok ((m.register? parent child).getD m)

/-- The model that a row of changes leads to, where none of them fails. -/
def changed (changes : List Change) : Checked Model :=
  changes.foldlM Change.apply ∅

/-- The name of the entity that a change asks for. -/
def Change.asked? : Change → Option Name
  | addEntity e => some e.name
  | _ => none

end Model

/-! ## 2. Where ids lead -/

/-- The ids of an action at a place in its arena: the children come before it and the parent after
    it, and the ids are those of arenas of the given sizes. -/
structure Action.Placed (i actions properties : Nat) (x : Action) : Prop where
  children : ∀ c ∈ x.children, c.index < i
  parent : ∀ id ∈ x.parent, i < id.index ∧ id.index < actions
  property : ∀ id ∈ x.property, id.index < properties

theorem Action.Placed.mono {i actions actions' properties properties' : Nat} {x : Action}
    (h : x.Placed i actions properties) (hactions : actions ≤ actions')
    (hproperties : properties ≤ properties') : x.Placed i actions' properties' where
  children := h.children
  parent := fun id hid => ⟨(h.parent id hid).1, Nat.lt_of_lt_of_le (h.parent id hid).2 hactions⟩
  property := fun id hid => Nat.lt_of_lt_of_le (h.property id hid) hproperties

namespace Model

/-- All ids in the arenas are in range, children come before the actions they belong to, and parents
    after. -/
structure Layered (m : Model) : Prop where
  actions : ∀ (i : Nat) x, m.actions[i]? = some x → x.Placed i m.actions.size m.properties.size
  sources : ∀ p ∈ m.properties, p.source.index < m.actions.size

variable {m m' : Model}

/-! ## 3. What becomes of the arenas -/

theorem modifyAction_eq_ok {id : ActionId} {f : Action → Action}
    (h : m.modifyAction id f = .ok m') :
    ∃ actions, modifyAt m.actions id f = .ok actions ∧ m' = { m with actions } := by
  obtain ⟨actions, hactions, h⟩ := Checked.bind_eq_ok.1 h
  exact ⟨actions, hactions, (Except.ok.inj h).symm⟩

theorem addAction_eq_ok {x : Action} {id : ActionId} (h : m.addAction x = .ok (id, m')) :
    ∃ linked, linkChildren m.actions ⟨m.actions.size⟩ x.children = .ok linked ∧
      m' = { m with actions := linked.push x } := by
  obtain ⟨new, hnew, h⟩ := Checked.bind_eq_ok.1 h
  obtain ⟨_, rfl⟩ := ActionId.ofIndex_eq_ok_iff.1 hnew
  obtain ⟨linked, hlinked, h⟩ := Checked.bind_eq_ok.1 h
  exact ⟨linked, hlinked, (Prod.mk.inj (Except.ok.inj h)).2.symm⟩

theorem addProperty_eq_ok {p : Property} {id : PropertyId} (h : m.addProperty p = .ok (id, m')) :
    ∃ actions, modifyAt m.actions p.source
        (fun x => { x with property := some ⟨m.properties.size⟩ }) = .ok actions ∧
      m' = { m with actions, properties := m.properties.push p } := by
  obtain ⟨new, hnew, h⟩ := Checked.bind_eq_ok.1 h
  obtain ⟨_, rfl⟩ := PropertyId.ofIndex_eq_ok_iff.1 hnew
  obtain ⟨linked, hlinked, h⟩ := Checked.bind_eq_ok.1 h
  obtain ⟨actions, hactions, rfl⟩ := modifyAction_eq_ok hlinked
  exact ⟨actions, hactions, (Prod.mk.inj (Except.ok.inj h)).2.symm⟩

theorem renameProperty_eq_ok {id : PropertyId} {name : Name}
    (h : m.renameProperty id name = .ok m') :
    m' = { m with properties := m.properties.modify id.index fun p => { p with name } } := by
  unfold renameProperty at h
  split at h
  · exact (Except.ok.inj h).symm
  · contradiction

section Arena

variable {actions actions' : Array Action} {R : Nat → Action → Prop}

theorem modifyAt_eq_ok {id : ActionId} {f : Action → Action}
    (h : modifyAt actions id f = .ok actions') :
    id.index < actions.size ∧ actions' = actions.modify id.index f := by
  unfold modifyAt at h
  split at h
  · next hlt => exact ⟨hlt, (Except.ok.inj h).symm⟩
  · contradiction

/-- A change of one action that keeps what is known of it keeps what is known of all. -/
theorem modifyAt_keeps {id : ActionId} {f : Action → Action}
    (h : modifyAt actions id f = .ok actions') (hR : ∀ (i : Nat) x, actions[i]? = some x → R i x)
    (hf : ∀ x, R id.index x → R id.index (f x)) :
    actions'.size = actions.size ∧ ∀ (i : Nat) x, actions'[i]? = some x → R i x := by
  obtain ⟨_, rfl⟩ := modifyAt_eq_ok h
  refine ⟨Array.size_modify .., fun i y hy => ?_⟩
  rw [Array.getElem?_modify] at hy
  split at hy
  · next heq =>
    obtain ⟨x, hx, rfl⟩ := Option.map_eq_some_iff.1 hy
    exact heq ▸ hf x (heq ▸ hR i x hx)
  · exact hR i y hy

/-- So does linking actions to a parent. -/
theorem linkChildren_keeps {parent : ActionId} :
    ∀ {cs : List ActionId} {actions : Array Action}, linkChildren actions parent cs = .ok actions' →
      (∀ (i : Nat) x, actions[i]? = some x → R i x) →
      (∀ (i : Nat) x, i < actions.size → R i x → R i { x with parent := some parent }) →
      actions'.size = actions.size ∧ (∀ c ∈ cs, c.index < actions.size) ∧
        ∀ (i : Nat) x, actions'[i]? = some x → R i x
  | [], _, h, hR, _ => by
    obtain rfl := Except.ok.inj h
    exact ⟨rfl, fun _ hc => absurd hc List.not_mem_nil, hR⟩
  | c :: cs, actions, h, hR, hlink => by
    obtain ⟨linked, hfirst, hrest⟩ := Checked.bind_eq_ok.1 h
    have hlt := (modifyAt_eq_ok hfirst).1
    obtain ⟨hsize, hlinked⟩ := modifyAt_keeps hfirst hR fun x => hlink c.index x hlt
    obtain ⟨hsize', hcs, hall⟩ := linkChildren_keeps hrest hlinked (hsize ▸ hlink)
    refine ⟨hsize'.trans hsize, fun d hd => ?_, hall⟩
    rcases List.mem_cons.1 hd with rfl | hd
    · exact hlt
    · exact hsize ▸ hcs d hd

end Arena

/-! ## 4. What one change keeps -/

theorem layered_empty : (∅ : Model).Layered where
  actions := fun i x hx => absurd (show (#[] : Array Action)[i]? = some x from hx) (by simp)
  sources := fun p hp => absurd (show p ∈ #[] from hp) (Array.not_mem_empty p)

/-- Changes of entities do not matter. -/
theorem Layered.of_eq (h : m.Layered) (hactions : m'.actions = m.actions)
    (hproperties : m'.properties = m.properties) : m'.Layered where
  actions := by
    rw [hactions, hproperties]
    exact h.actions
  sources := by
    rw [hactions, hproperties]
    exact h.sources

theorem Layered.addAction (h : m.Layered) {kind : ActionKind} {id : ActionId}
    (hadd : m.addAction { kind } = .ok (id, m')) : m'.Layered := by
  obtain ⟨linked, hlinked, rfl⟩ := addAction_eq_ok hadd
  -- the new action comes after all there are, so it can be the parent of any of them
  have hlink : ∀ (i : Nat) (x : Action), i < m.actions.size →
      x.Placed i (m.actions.size + 1) m.properties.size →
      Action.Placed i (m.actions.size + 1) m.properties.size
        { x with parent := some ⟨m.actions.size⟩ } := by
    intro i x hi hx
    refine ⟨hx.children, fun id hid => ?_, hx.property⟩
    obtain rfl := Option.some.inj hid
    exact ⟨hi, Nat.lt_succ_self _⟩
  obtain ⟨hsize, hcs, hall⟩ := linkChildren_keeps hlinked
    (fun i x hx => (h.actions i x hx).mono (Nat.le_succ _) (Nat.le_refl _)) hlink
  refine ⟨fun i x hx => ?_, fun p hp => ?_⟩
  · rw [Array.getElem?_push] at hx
    rw [Array.size_push, hsize]
    split at hx
    · next heq =>
      obtain rfl := Option.some.inj hx
      refine ⟨fun c hc => ?_, fun _ hid => ?_, fun _ hid => ?_⟩
      · rw [heq, hsize]
        exact hcs c hc
      · exact absurd hid.symm (Option.some_ne_none _)
      · exact absurd hid.symm (Option.some_ne_none _)
    · exact hall i x hx
  · show p.source.index < (linked.push _).size
    rw [Array.size_push, hsize]
    exact Nat.lt_succ_of_lt (h.sources p hp)

/-- A change of one action that keeps its place keeps the model layered. -/
theorem Layered.modifyAction (h : m.Layered) {id : ActionId} {f : Action → Action}
    (hmodify : m.modifyAction id f = .ok m')
    (hf : ∀ i x, x.Placed i m.actions.size m.properties.size →
      (f x).Placed i m.actions.size m.properties.size) : m'.Layered := by
  obtain ⟨actions, hactions, rfl⟩ := modifyAction_eq_ok hmodify
  obtain ⟨hsize, hall⟩ := modifyAt_keeps hactions h.actions (hf id.index)
  exact ⟨fun i x hx => hsize ▸ hall i x hx, fun p hp => hsize ▸ h.sources p hp⟩

theorem Layered.addProperty (h : m.Layered) {p : Property} {id : PropertyId}
    (hadd : m.addProperty p = .ok (id, m')) : m'.Layered := by
  obtain ⟨actions, hactions, rfl⟩ := addProperty_eq_ok hadd
  have hlink : ∀ x : Action,
      x.Placed p.source.index m.actions.size (m.properties.size + 1) →
      Action.Placed p.source.index m.actions.size (m.properties.size + 1)
        { x with property := some ⟨m.properties.size⟩ } := by
    intro x hx
    refine ⟨hx.children, hx.parent, fun id hid => ?_⟩
    obtain rfl := Option.some.inj hid
    exact Nat.lt_succ_self _
  obtain ⟨hsize, hall⟩ := modifyAt_keeps hactions
    (fun i x hx => (h.actions i x hx).mono (Nat.le_refl _) (Nat.le_succ _)) hlink
  refine ⟨fun i x hx => ?_, fun q hq => ?_⟩
  · rw [Array.size_push]
    exact hsize ▸ hall i x hx
  · show q.source.index < actions.size
    rw [hsize]
    rcases Array.mem_push.1 hq with hq | rfl
    · exact h.sources q hq
    · exact (modifyAt_eq_ok hactions).1

theorem Layered.renameProperty (h : m.Layered) {id : PropertyId} {name : Name}
    (hrename : m.renameProperty id name = .ok m') : m'.Layered := by
  obtain rfl := renameProperty_eq_ok hrename
  refine ⟨fun i x hx => ?_, fun p hp => ?_⟩
  · rw [Array.size_modify]
    exact h.actions i x hx
  · obtain ⟨k, hk⟩ := Array.mem_iff_getElem?.1 hp
    rw [Array.getElem?_modify] at hk
    split at hk
    · obtain ⟨q, hq, rfl⟩ := Option.map_eq_some_iff.1 hk
      exact h.sources q (Array.mem_of_getElem? hq)
    · exact h.sources p (Array.mem_of_getElem? hk)

/-- A change keeps the model layered. -/
theorem Change.layered (h : m.Layered) (c : Change) (hc : c.apply m = .ok m') : m'.Layered := by
  cases c with
  | addEntity e =>
    obtain rfl := Except.ok.inj hc
    unfold addEntity?
    split
    · exact h
    · exact h.of_eq rfl rfl
  | replaceEntity e =>
    obtain rfl := Except.ok.inj hc
    exact h.of_eq rfl rfl
  | addAction kind =>
    obtain ⟨⟨id, m₁⟩, hadd, heq⟩ := Checked.bind_eq_ok.1 hc
    obtain rfl := Except.ok.inj heq
    exact h.addAction hadd
  | mark id isOptional isPlural isWitness =>
    exact h.modifyAction hc fun i x hx => ⟨hx.children, hx.parent, hx.property⟩
  | addProperty p =>
    obtain ⟨⟨id, m₁⟩, hadd, heq⟩ := Checked.bind_eq_ok.1 hc
    obtain rfl := Except.ok.inj heq
    exact h.addProperty hadd
  | renameProperty id name => exact h.renameProperty hc
  | register parent child =>
    obtain rfl := Except.ok.inj hc
    cases hreg : m.register? parent child with
    | none => exact h
    | some m₁ =>
      obtain ⟨rfl, _⟩ := register?_eq_some hreg
      exact h.of_eq rfl rfl

/-! ## 5. The root -/

/-- A change that adds no entity keeps the root first. -/
theorem rooted_of_eq (h : m.root = m.names.head?) (hnames : m'.names = m.names)
    (hroot : m'.root = m.root) : m'.root = m'.names.head? ∧ m'.root = m.root.or none := by
  rw [hnames, hroot, Option.or_none]
  exact ⟨h, rfl⟩

/-- After a change the root is still the first entity: the one that was, or else the one that the
    change asks for. -/
theorem Change.rooted (h : m.root = m.names.head?) (c : Change) (hc : c.apply m = .ok m') :
    m'.root = m'.names.head? ∧ m'.root = m.root.or c.asked? := by
  cases c with
  | addEntity e =>
    obtain rfl := Except.ok.inj hc
    unfold addEntity?
    split
    · next htaken =>
      obtain ⟨n, hn⟩ := Option.isSome_iff_exists.1
        (List.isSome_head?.2 (List.ne_nil_of_mem (contains_iff.1 htaken)))
      refine ⟨h, ?_⟩
      rw [Option.getD_none, h, hn]
      rfl
    · refine ⟨?_, rfl⟩
      rw [Option.getD_some]
      simp only [names, List.map_append, List.head?_append]
      rw [h]
      rfl
  | replaceEntity e =>
    obtain rfl := Except.ok.inj hc
    exact rooted_of_eq h (names_replaceEntity m e) rfl
  | addAction kind =>
    obtain ⟨⟨id, m₁⟩, hadd, heq⟩ := Checked.bind_eq_ok.1 hc
    obtain rfl := Except.ok.inj heq
    obtain ⟨linked, _, rfl⟩ := addAction_eq_ok hadd
    exact rooted_of_eq h rfl rfl
  | mark id isOptional isPlural isWitness =>
    obtain ⟨actions, _, rfl⟩ := modifyAction_eq_ok hc
    exact rooted_of_eq h rfl rfl
  | addProperty p =>
    obtain ⟨⟨id, m₁⟩, hadd, heq⟩ := Checked.bind_eq_ok.1 hc
    obtain rfl := Except.ok.inj heq
    obtain ⟨actions, _, rfl⟩ := addProperty_eq_ok hadd
    exact rooted_of_eq h rfl rfl
  | renameProperty id name =>
    obtain rfl := renameProperty_eq_ok hc
    exact rooted_of_eq h rfl rfl
  | register parent child =>
    obtain rfl := Except.ok.inj hc
    cases hreg : m.register? parent child with
    | none => exact rooted_of_eq h rfl rfl
    | some m₁ =>
      obtain ⟨rfl, _⟩ := register?_eq_some hreg
      exact rooted_of_eq h (names_register? hreg) rfl

/-! ## 6. Up and down -/

/-- The ids on the way up from an action to one that has no parent, each followed by that of the
    parent. -/
structure Line (m : Model) (id : ActionId) (line : List ActionId) : Prop where
  start : line.head? = some id
  steps : line.IsChain fun a b => ∃ x, m.actions[a.index]? = some x ∧ x.parent = some b
  rising : line.Pairwise fun a b => a.index < b.index
  top : ∃ id x, line.getLast? = some id ∧ m.actions[id.index]? = some x ∧ x.parent = none

/-- An action without a parent is a way of its own. -/
theorem line_top {id : ActionId} {x : Action} (hx : m.actions[id.index]? = some x)
    (hparent : x.parent = none) : m.Line id [id] where
  start := rfl
  steps := List.IsChain.singleton id
  rising := List.pairwise_singleton ..
  top := ⟨id, x, rfl, hx, hparent⟩

/-- The way up from any other action goes on with that from its parent. -/
theorem Line.cons {id parent : ActionId} {x : Action} {line : List ActionId}
    (h : m.Line parent line) (hx : m.actions[id.index]? = some x)
    (hparent : x.parent = some parent) (hlt : id.index < parent.index) :
    m.Line id (id :: line) := by
  obtain ⟨rest, rfl⟩ : ∃ rest, line = parent :: rest := List.head?_eq_some_iff.1 h.start
  obtain ⟨top, y, htop, hy, hnone⟩ := h.top
  refine ⟨rfl, List.isChain_cons_cons.2 ⟨⟨x, hx, hparent⟩, h.steps⟩, ?_, top, y, ?_, hy, hnone⟩
  · refine List.pairwise_cons.2 ⟨fun a ha => ?_, h.rising⟩
    rcases List.mem_cons.1 ha with rfl | ha
    · exact hlt
    · exact Nat.lt_trans hlt ((List.pairwise_cons.1 h.rising).1 a ha)
  · rw [List.getLast?_cons_cons]
    exact htop

/-- In a layered model every action has its way up. -/
theorem Layered.lineage_ok (h : m.Layered) (id : ActionId) (hid : id.index < m.actions.size) :
    ∃ line, m.lineage id = .ok line ∧ m.Line id (line.map Prod.fst) := by
  induction id using Model.lineage.induct m with
  | case1 id hnone =>
    rw [Array.getElem?_eq_getElem hid] at hnone
    contradiction
  | case2 id a ha hparent => exact ⟨_, lineage_top ha hparent, line_top ha hparent⟩
  | case3 id a ha parent hparent hlt ih =>
    obtain ⟨line, hok, hline⟩ := ih ((h.actions _ a ha).parent parent hparent).2
    refine ⟨(id, a) :: line, ?_, hline.cons ha hparent hlt⟩
    rw [lineage_parent ha hparent hlt, hok]
    rfl
  | case4 id a ha parent hparent hnot =>
    exact absurd ((h.actions _ a ha).parent parent hparent).1 hnot

theorem Layered.ancestors_ok (h : m.Layered) {id : ActionId} (hid : id.index < m.actions.size) :
    ∃ line, m.ancestors id = .ok line ∧ m.Line id line := by
  obtain ⟨line, hok, hline⟩ := h.lineage_ok id hid
  refine ⟨line.map Prod.fst, ?_, hline⟩
  rw [ancestors, hok]
  rfl

/-- In a layered model every action has its tree. -/
theorem Layered.tree_ok (h : m.Layered) : ∀ (i : Nat), i < m.actions.size →
    ∃ t, m.tree ⟨i⟩ = .ok t := by
  intro i
  induction i using Nat.strongRecOn with
  | ind i ih =>
    intro hi
    have hx := Array.getElem?_eq_getElem hi
    have hplaced := h.actions i _ hx
    obtain ⟨p, hp⟩ : ∃ p, m.linkedProperty m.actions[i] = .ok p := by
      unfold linkedProperty
      split
      · exact ⟨_, rfl⟩
      · next id hid =>
        have hproperty := Array.getElem?_eq_getElem (hplaced.property id hid)
        rw [property_eq_ok_iff.2 hproperty]
        exact ⟨_, rfl⟩
    obtain ⟨children, hchildren⟩ := Checked.exists_mapM
      (f := fun child => if child.index < i then m.tree child else .error (.noAction child.index))
      m.actions[i].children fun c hc => by
        have hlt := hplaced.children c hc
        obtain ⟨t, ht⟩ := ih c.index hlt (Nat.lt_trans hlt hi)
        exact ⟨t, (if_pos hlt).trans ht⟩
    rw [tree]
    exact ⟨_, Checked.bind_eq_ok.2 ⟨_, action_eq_ok_iff.2 hx,
      Checked.bind_eq_ok.2 ⟨p, hp, Checked.bind_eq_ok.2 ⟨children, hchildren, rfl⟩⟩⟩⟩

/-! ## 7. Any changes -/

/-- A row of changes keeps what one change keeps. The root is what it was, or else the first entity
    that was asked for. -/
theorem foldlM_apply (changes : List Change) : ∀ {m m' : Model},
    changes.foldlM Change.apply m = .ok m' → m.Layered → m.root = m.names.head? →
      m'.Layered ∧ m'.root = m'.names.head? ∧
        m'.root = m.root.or (changes.findSome? Change.asked?) := by
  induction changes with
  | nil =>
    intro m m' h hlayered hroot
    obtain rfl := Except.ok.inj h
    exact ⟨hlayered, hroot, (Option.or_none ..).symm⟩
  | cons c changes ih =>
    intro m m' h hlayered hroot
    rw [List.foldlM_cons] at h
    obtain ⟨m₁, hc, hrest⟩ := Checked.bind_eq_ok.1 h
    obtain ⟨hroot₁, hfirst⟩ := c.rooted hroot hc
    obtain ⟨hlayered', hroot', hall⟩ := ih hrest (c.layered hlayered hc) hroot₁
    refine ⟨hlayered', hroot', ?_⟩
    rw [hall, hfirst, Option.or_assoc, List.findSome?_cons]
    cases c.asked? <;> rfl

end Model

/-- Whatever changes lead to a model, if none of them fails: the root is the first entity that was
    asked for, it is still the first one, and only a model without entities has none. All ids in the
    arenas are in range, children come before the actions they belong to and parents after; so every
    action has its way up to one without a parent, and its tree. -/
theorem changed_layered_and_rooted {changes : List Model.Change} {m : Model}
    (h : Model.changed changes = .ok m) :
    (m.root = none ↔ m.entities = []) ∧
    m.root = changes.findSome? Model.Change.asked? ∧ m.root = m.names.head? ∧ m.Layered ∧
    ∀ id : ActionId, id.index < m.actions.size →
      (∃ line, m.ancestors id = .ok line ∧ m.Line id line) ∧ ∃ t, m.tree id = .ok t := by
  obtain ⟨hlayered, hhead, hroot⟩ := Model.foldlM_apply changes h Model.layered_empty rfl
  refine ⟨?_, hroot, hhead, hlayered, fun id hid =>
    ⟨hlayered.ancestors_ok hid, hlayered.tree_ok id.index hid⟩⟩
  rw [hhead, Model.names, List.head?_eq_none_iff, List.map_eq_nil_iff]

namespace Handmade

/-- Two actions under a third, one of which is then made a child of a fourth, twice. The other fills
    a property, and then another. The second entity of the same name is not accepted. -/
def parts : List Model.Change :=
  [.addAction (.literal "x"), .addAction (.entity "b"), .addAction (.all [⟨0⟩, ⟨1⟩]),
    .addAction (.any [⟨0⟩, ⟨0⟩]), .mark ⟨0⟩ true false false,
    .addEntity { name := "a", action := some ⟨7⟩ }, .addEntity { name := "b" },
    .addEntity { name := "a", supers := ["b"] },
    .addProperty { name := "p", entity := "a", source := ⟨1⟩ },
    .addProperty { name := "p", entity := "b", source := ⟨1⟩ }, .renameProperty ⟨0⟩ "q",
    .replaceEntity { name := "a", action := some ⟨2⟩ }]

/-- A link, and one that would lead back and is not accepted. -/
def links : List Model.Change :=
  [.register "a" "b", .register "b" "a"]

/-- What the parts make. -/
def unlinked : Model where
  entities := [{ name := "a", action := some ⟨2⟩ }, { name := "b" }]
  properties := #[
    { name := "q", entity := "a", source := ⟨1⟩ },
    { name := "p", entity := "b", source := ⟨1⟩ }]
  actions := #[
    { kind := .literal "x", isOptional := true, parent := some ⟨3⟩ },
    { kind := .entity "b", property := some ⟨1⟩, parent := some ⟨2⟩ },
    { kind := .all [⟨0⟩, ⟨1⟩] },
    { kind := .any [⟨0⟩, ⟨0⟩] }]
  root := some "a"

/-- The same with the link. -/
def model : Model :=
  { unlinked with
    entities := [{ name := "a", action := some ⟨2⟩, subs := ["b"] },
      { name := "b", supers := ["a"] }] }

theorem parts_eq : Model.changed parts = .ok unlinked := by
  rfl

theorem link_eq : unlinked.register? "a" "b" = some model :=
  Model.register?_of_isA_eq_false (by decide) (by cbv) (by cbv) (by decide) (by decide)

theorem link_back_eq : model.register? "b" "a" = none := by
  cbv

theorem changed_eq : Model.changed (parts ++ links) = .ok model := by
  have hlink : Model.Change.apply unlinked (.register "a" "b") = .ok model := by
    rw [Model.Change.apply, link_eq]
    rfl
  have hback : Model.Change.apply model (.register "b" "a") = .ok model := by
    rw [Model.Change.apply, link_back_eq]
    rfl
  have hlinks : links.foldlM Model.Change.apply unlinked = .ok model :=
    Checked.bind_eq_ok.2 ⟨model, hlink, Checked.bind_eq_ok.2 ⟨model, hback, rfl⟩⟩
  rw [Model.changed, List.foldlM_append]
  exact Checked.bind_eq_ok.2 ⟨unlinked, parts_eq, hlinks⟩

end Handmade

/-- An action that was made a child three times has one way up, to its last parent. The first parent
    has its tree all the same. -/
theorem changed_layered_and_rooted_handmade :
    Model.changed (Handmade.parts ++ Handmade.links) = .ok Handmade.model ∧
    (Handmade.parts ++ Handmade.links).findSome? Model.Change.asked? = some "a" ∧
    Handmade.model.root = some "a" ∧ Handmade.model.Layered ∧
    Handmade.model.ancestors ⟨0⟩ = .ok [⟨0⟩, ⟨3⟩] ∧ Handmade.model.Line ⟨0⟩ [⟨0⟩, ⟨3⟩] ∧
    ∃ t, Handmade.model.tree ⟨2⟩ = .ok t := by
  obtain ⟨_, hroot, _, hlayered, hids⟩ := changed_layered_and_rooted Handmade.changed_eq
  obtain ⟨⟨line, hancestors, hline⟩, _⟩ := hids ⟨0⟩ (by decide)
  have hup : Handmade.model.ancestors ⟨0⟩ = .ok [⟨0⟩, ⟨3⟩] := by
    cbv
  obtain rfl := Except.ok.inj (hancestors.symm.trans hup)
  exact ⟨Handmade.changed_eq, hroot.symm, rfl, hlayered, hup, hline, (hids ⟨2⟩ (by decide)).2⟩

end Ebnf
