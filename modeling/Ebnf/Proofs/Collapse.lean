import Mathlib
import Ebnf.Model.Issue
import Ebnf.Proofs.Proxies

/-!
# What the stage of the proxies does to any model

Building is not the only way to a model. On any model whose ids lead somewhere, the stage of the
proxies gives a proxy to the entities that are nothing but a choice, and leaves the rest alone;
doing it again changes nothing. A choice that several entities share is linked to the proxy of the
last.

* `Model.InRange`: every id leads somewhere;
* `Model.Choosers`, `Model.Collapsed`: the entities that get a proxy, and what becomes of the model;
* `alternatives_collapses`: the stage as a whole, done once or twice.
-/

namespace Ebnf

open Build (alternativeName)

/-! ## 1. Models without loose ends -/

/-- Every id in a model is that of a property or an action of the model. -/
structure Model.InRange (m : Model) : Prop where
  listed : ∀ e ∈ m.entities, ∀ id ∈ e.properties.ids, id.index < m.properties.size
  topmost : ∀ e ∈ m.entities, ∀ id ∈ e.action, id.index < m.actions.size
  sources : ∀ p ∈ m.properties, p.source.index < m.actions.size
  subsumed : ∀ p ∈ m.properties, ∀ id ∈ p.subsumed, id.index < m.properties.size
  children : ∀ x ∈ m.actions, ∀ id ∈ x.children, id.index < m.actions.size
  parents : ∀ x ∈ m.actions, ∀ id ∈ x.parent, id.index < m.actions.size
  links : ∀ x ∈ m.actions, ∀ id ∈ x.property, id.index < m.properties.size

namespace Model

variable {m m' : Model}

/-- The properties of the entities have their sources. -/
theorem InRange.sourced (h : m.InRange) : ∀ e ∈ m.entities, ∀ id ∈ e.properties.ids,
    ∃ p x, m.Sourced id p x := by
  intro e he id hid
  have hp := Array.getElem?_eq_getElem (h.listed e he id hid)
  have hx := Array.getElem?_eq_getElem (h.sources _ (Array.mem_of_getElem? hp))
  refine ⟨_, _, hp, hx, fun parent hparent => ⟨_, Array.getElem?_eq_getElem ?_⟩⟩
  exact h.parents _ (Array.mem_of_getElem? hx) parent hparent

/-- An entity is nothing but one choice at most. -/
theorem PureChoice.unique {e : Entity} {choice other : ActionId} (h : m.PureChoice e choice)
    (h' : m.PureChoice e other) : choice = other := by
  obtain ⟨⟨key, id⟩, hmem⟩ := List.exists_mem_of_ne_nil _ h.nonempty
  have hid : id ∈ e.properties.ids := List.mem_map_of_mem (f := Prod.snd) hmem
  obtain ⟨p, x, hp, hx, hparent, _⟩ := h.branches id hid
  obtain ⟨p', x', hp', hx', hparent', _⟩ := h'.branches id hid
  obtain rfl := Option.some.inj (hp.symm.trans hp')
  obtain rfl := Option.some.inj (hx.symm.trans hx')
  exact Option.some.inj (hparent.symm.trans hparent')

end Model

/-! ## 2. Entities that get a proxy -/

/-- The proxy of an entity that is nothing but a choice. -/
def Entity.proxy (e : Entity) (choice : ActionId) : Property :=
  { name := alternativeName, entity := e.name, source := choice, kind := .proxy e.properties.ids }

/-- The entity with one property for all, which has the given number. -/
def Entity.withProxy (e : Entity) (proxy : Nat) : Entity :=
  { e with properties := [(alternativeName, ⟨proxy⟩)] }

/-- What becomes of an entity when the entities in `cs` get a proxy in turn, the first one of which
    has the number `first`. -/
def Entity.Becomes (e : Entity) (cs : List (Entity × ActionId)) (first : Nat) (e' : Entity) :
    Prop :=
  (∃ k choice, cs[k]? = some (e, choice) ∧ e' = e.withProxy (first + k)) ∨
    (∀ choice, (e, choice) ∉ cs) ∧ e' = e

theorem Entity.Becomes.name_eq {cs : List (Entity × ActionId)} {first : Nat} {e e' : Entity}
    (h : e.Becomes cs first e') : e'.name = e.name := by
  rcases h with ⟨k, choice, _, rfl⟩ | ⟨_, rfl⟩
  · rfl
  · rfl

/-- A proxy for another entity makes no difference to an entity. -/
theorem Entity.Becomes.append {cs : List (Entity × ActionId)} {first : Nat} {e e' o : Entity}
    {choice : ActionId} (h : e.Becomes cs first e') (hne : e ≠ o) :
    e.Becomes (cs ++ [(o, choice)]) first e' := by
  rcases h with ⟨k, other, hk, rfl⟩ | ⟨hno, rfl⟩
  · refine .inl ⟨k, other, ?_, rfl⟩
    rw [List.getElem?_append_left (List.getElem?_eq_some_iff.1 hk).1, hk]
  · refine .inr ⟨fun other hmem => ?_, rfl⟩
    rcases List.mem_append.1 hmem with hmem | hmem
    · exact hno other hmem
    · exact hne (Prod.mk.inj (List.mem_singleton.1 hmem)).1

/-- An action as it is without its property. -/
def Action.unlinked (x : Action) : Action :=
  { x with property := none }

namespace Model

/-- The entities among `es` that are nothing but a choice, in order, each with its choice. -/
structure Choosers (m : Model) (es : List Entity) (cs : List (Entity × ActionId)) : Prop where
  sublist : (cs.map Prod.fst).Sublist es
  mem : ∀ e ∈ es, ∀ choice, (e, choice) ∈ cs ↔ m.PureChoice e choice

/-- The entities in `cs` got a proxy in turn, and nothing else was changed: the proxies come after
    the properties there were, and a choice is linked to the last proxy that it fills. -/
structure Collapsed (m m' : Model) (cs : List (Entity × ActionId)) : Prop where
  root : m'.root = m.root
  entities : List.Forall₂ (fun e e' => e.Becomes cs m.properties.size e') m.entities m'.entities
  properties : m'.properties.toList =
    m.properties.toList ++ cs.map fun (e, choice) => e.proxy choice
  linked : ∀ (k : Nat) (e : Entity) (choice : ActionId), cs[k]? = some (e, choice) →
    (∀ (j : Nat) (o : Entity), k < j → cs[j]? ≠ some (o, choice)) →
    m'.actions[choice.index]? = m.actions[choice.index]?.map
      fun x => { x with property := some ⟨m.properties.size + k⟩ }
  actions : ∀ i : Nat, (∀ entry ∈ cs, entry.2.index ≠ i) → m'.actions[i]? = m.actions[i]?
  kept : ∀ i : Nat, m'.actions[i]?.map Action.unlinked = m.actions[i]?.map Action.unlinked

variable {m m' m'' : Model} {es : List Entity} {cs : List (Entity × ActionId)} {e : Entity}
  {choice : ActionId}

namespace Choosers

/-- Only entities that were looked at are among the choosers. -/
theorem mem_of_mem (h : m.Choosers es cs) (hmem : (e, choice) ∈ cs) : e ∈ es :=
  h.sublist.subset (List.mem_map_of_mem (f := Prod.fst) hmem)

/-- One more entity that is nothing but a choice. -/
theorem append (h : m.Choosers es cs) (he : e ∉ es) (hpure : m.PureChoice e choice) :
    m.Choosers (es ++ [e]) (cs ++ [(e, choice)]) where
  sublist := by
    rw [List.map_append]
    exact h.sublist.append (List.Sublist.refl _)
  mem := by
    intro o ho other
    rw [List.mem_append, List.mem_singleton, Prod.mk.injEq]
    rcases List.mem_append.1 ho with ho | ho
    · have hne : o ≠ e := fun heq => he (heq ▸ ho)
      rw [h.mem o ho other]
      exact ⟨fun hor => hor.resolve_right fun heq => hne heq.1, .inl⟩
    · obtain rfl := List.mem_singleton.1 ho
      refine ⟨fun hor => ?_, fun hother => .inr ⟨rfl, hother.unique hpure⟩⟩
      rcases hor with hmem | ⟨_, rfl⟩
      · exact absurd (h.mem_of_mem hmem) he
      · exact hpure

/-- One more entity that is more than a choice. -/
theorem skip (h : m.Choosers es cs) (he : e ∉ es) (hno : ∀ choice, ¬ m.PureChoice e choice) :
    m.Choosers (es ++ [e]) cs where
  sublist := h.sublist.trans (List.sublist_append_left es [e])
  mem := by
    intro o ho other
    rcases List.mem_append.1 ho with ho | ho
    · exact h.mem o ho other
    · obtain rfl := List.mem_singleton.1 ho
      exact ⟨fun hmem => absurd (h.mem_of_mem hmem) he, fun hpure => absurd hpure (hno other)⟩

end Choosers

/-! ## 3. What one proxy after another leaves behind -/

namespace Collapsed

/-- Before there are proxies nothing is changed. -/
theorem refl (m : Model) : m.Collapsed m [] where
  root := rfl
  entities := List.forall₂_same.2 fun e _ => .inr ⟨fun _ => List.not_mem_nil, rfl⟩
  properties := (List.append_nil _).symm
  linked := fun k e choice hk => absurd hk (by simp)
  actions := fun _ _ => rfl
  kept := fun _ => rfl

theorem names_eq (h : m.Collapsed m' cs) : m'.names = m.names := by
  refine (congrFun₂ List.forall₂_eq_eq_eq m'.names m.names).mp ?_
  rw [names, names, List.forall₂_map_left_iff, List.forall₂_map_right_iff]
  exact h.entities.flip.imp fun e' e hbecomes => Entity.Becomes.name_eq hbecomes

theorem size_eq (h : m.Collapsed m' cs) : m'.properties.size = m.properties.size + cs.length := by
  rw [← Array.length_toList, h.properties, List.length_append, List.length_map, Array.length_toList]

/-- An entity that got no proxy is still there. -/
theorem entity?_eq (h : m.Collapsed m' cs) (hnodup : m.names.Nodup) (he : e ∈ m.entities)
    (hno : ∀ choice, (e, choice) ∉ cs) : m'.entity? e.name = some e := by
  obtain ⟨e', he', hbecomes⟩ := exists_answer h.entities he
  rcases hbecomes with ⟨k, choice, hk, _⟩ | ⟨_, rfl⟩
  · exact absurd (List.mem_of_getElem? hk) (hno choice)
  · exact entity?_of_mem (h.names_eq ▸ hnodup) he'

/-- A property that was there is still there. -/
theorem property_old (h : m.Collapsed m' cs) {k : Nat} (hk : k < m.properties.size) :
    m'.properties[k]? = m.properties[k]? := by
  rw [← Array.getElem?_toList, h.properties, List.getElem?_append_left (by simpa using hk),
    Array.getElem?_toList]

/-- The proxies. -/
theorem property_new (h : m.Collapsed m' cs) {k : Nat} (hk : cs[k]? = some (e, choice)) :
    m'.properties[m.properties.size + k]? = some (e.proxy choice) := by
  rw [← Array.getElem?_toList, h.properties, List.getElem?_append_right (by simp),
    Array.length_toList, Nat.add_sub_cancel_left, List.getElem?_map, hk]
  rfl

/-- An action that is there was there before, but for its property. -/
theorem exists_action (h : m.Collapsed m' cs) {i : Nat} {x' : Action}
    (hx' : m'.actions[i]? = some x') : ∃ x, m.actions[i]? = some x ∧ x'.unlinked = x.unlinked := by
  have hkept := h.kept i
  rw [hx'] at hkept
  obtain ⟨x, hx, hsame⟩ := Option.map_eq_some_iff.1 hkept.symm
  exact ⟨x, hx, hsame.symm⟩

/-- An action that was there is still there, but for its property. -/
theorem exists_action' (h : m.Collapsed m' cs) {i : Nat} {x : Action}
    (hx : m.actions[i]? = some x) : ∃ x', m'.actions[i]? = some x' ∧ x'.unlinked = x.unlinked := by
  have hkept := h.kept i
  rw [hx] at hkept
  exact Option.map_eq_some_iff.1 hkept

/-- Whether an entity is nothing but a choice does not depend on the proxies. -/
theorem pureChoice_iff (h : m.Collapsed m' cs)
    (hids : ∀ id ∈ e.properties.ids, id.index < m.properties.size) :
    m'.PureChoice e choice ↔ m.PureChoice e choice := by
  constructor
  · intro hpure
    refine ⟨hpure.nonempty, ?_, fun id hid => ?_⟩
    · obtain ⟨y', hy', hchoice⟩ := hpure.action
      obtain ⟨y, hy, hsame⟩ := h.exists_action hy'
      exact ⟨y, hy, (congrArg Action.isChoice hsame).symm.trans hchoice⟩
    · obtain ⟨p, x', hp, hx', hparent, htarget⟩ := hpure.branches id hid
      obtain ⟨x, hx, hsame⟩ := h.exists_action hx'
      refine ⟨p, x, (h.property_old (hids id hid)).symm.trans hp, hx,
        (congrArg Action.parent hsame).symm.trans hparent, ?_⟩
      exact (congrArg (fun x => x.target?.isSome) hsame).symm.trans htarget
  · intro hpure
    refine ⟨hpure.nonempty, ?_, fun id hid => ?_⟩
    · obtain ⟨y, hy, hchoice⟩ := hpure.action
      obtain ⟨y', hy', hsame⟩ := h.exists_action' hy
      exact ⟨y', hy', (congrArg Action.isChoice hsame).trans hchoice⟩
    · obtain ⟨p, x, hp, hx, hparent, htarget⟩ := hpure.branches id hid
      obtain ⟨x', hx', hsame⟩ := h.exists_action' hx
      refine ⟨p, x', (h.property_old (hids id hid)).trans hp, hx',
        (congrArg Action.parent hsame).trans hparent, ?_⟩
      exact (congrArg (fun x => x.target?.isSome) hsame).trans htarget

/-- After the last proxy no entity is nothing but a choice: an entity with a proxy is filled by a
    choice, and no choice reads an entity. -/
theorem settled (h : m.Collapsed m' cs) (hrange : m.InRange) (hcs : m.Choosers m.entities cs) :
    ∀ e ∈ m'.entities, ∀ choice, ¬ m'.PureChoice e choice := by
  intro e' he' other hpure
  obtain ⟨e, he, hbecomes⟩ := exists_answer h.entities.flip he'
  rcases hbecomes with ⟨k, choice, hk, rfl⟩ | ⟨hno, rfl⟩
  · have hchooses := (hcs.mem e he choice).1 (List.mem_of_getElem? hk)
    obtain ⟨y, hy, hchoice⟩ := hchooses.action
    obtain ⟨y', hy', hsame⟩ := h.exists_action' hy
    obtain ⟨p, x, hp, hx, _, htarget⟩ := hpure.branches _ (List.mem_singleton_self _)
    obtain rfl := Option.some.inj ((h.property_new hk).symm.trans hp)
    obtain rfl := Option.some.inj (hy'.symm.trans hx)
    have hchoice' : y'.isChoice = true := (congrArg Action.isChoice hsame).trans hchoice
    rw [Action.target?_of_isChoice hchoice'] at htarget
    contradiction
  · refine hno other ((hcs.mem e' he other).2 ?_)
    exact (h.pureChoice_iff (hrange.listed e' he)).1 hpure

/-- One more proxy. -/
theorem proxied (h : m.Collapsed m' cs) (hnodup : m.names.Nodup) (he : e ∈ m.entities)
    (hno : ∀ choice, (e, choice) ∉ cs) (hproxied : Build.Proxied m' m'' e choice) :
    m.Collapsed m'' (cs ++ [(e, choice)]) where
  root := hproxied.root.trans h.root
  entities := by
    rw [hproxied.entities, modifyEntity, List.forall₂_map_right_iff]
    refine ((List.forall₂_and_left _ _).2 ⟨fun a ha => ha, h.entities⟩).imp ?_
    rintro a o ⟨ha, hbecomes⟩
    have hname : o.name = a.name := hbecomes.name_eq
    by_cases heq : o.name = e.name
    · obtain rfl := List.inj_on_of_nodup_map hnodup ha he (hname.symm.trans heq)
      rw [if_pos heq, h.size_eq]
      exact .inl ⟨cs.length, choice, List.getElem?_concat_length, rfl⟩
    · rw [if_neg heq]
      refine hbecomes.append fun hae => heq ?_
      rw [hname, hae]
  properties := by
    rw [hproxied.properties, Array.toList_push, h.properties, List.map_append, List.append_assoc]
    rfl
  linked := by
    intro k o other hk hlast
    by_cases hlt : k < cs.length
    · rw [List.getElem?_append_left hlt] at hk
      have hne : other ≠ choice := by
        rintro rfl
        exact hlast cs.length e hlt List.getElem?_concat_length
      rw [hproxied.action_of_ne fun hindex => hne (congrArg ActionId.mk hindex)]
      refine h.linked k o other hk fun j o' hj hj' => hlast j o' hj ?_
      rw [List.getElem?_append_left (List.getElem?_eq_some_iff.1 hj').1]
      exact hj'
    · have hk' := (List.getElem?_eq_some_iff.1 hk).1
      rw [List.length_append, List.length_singleton] at hk'
      obtain rfl : k = cs.length := by omega
      obtain ⟨rfl, rfl⟩ := Prod.mk.inj (Option.some.inj (List.getElem?_concat_length.symm.trans hk))
      -- the choice may be linked to an earlier proxy, which it loses
      let link (x : Action) : Action := { x with property := some ⟨m.properties.size + cs.length⟩ }
      calc m''.actions[choice.index]?
        _ = m'.actions[choice.index]?.map link := by
          rw [hproxied.actions, Array.getElem?_modify, if_pos rfl, h.size_eq]
        _ = (m'.actions[choice.index]?.map Action.unlinked).map link :=
          (Option.map_map link Action.unlinked _).symm
        _ = (m.actions[choice.index]?.map Action.unlinked).map link := by rw [h.kept]
        _ = m.actions[choice.index]?.map link := Option.map_map link Action.unlinked _
  actions := by
    intro i hi
    have hne : choice.index ≠ i := hi (e, choice) (by simp)
    rw [hproxied.action_of_ne hne.symm]
    exact h.actions i fun entry hmem => hi entry (List.mem_append_left _ hmem)
  kept := by
    intro i
    rw [← h.kept i, hproxied.actions, Array.getElem?_modify]
    split
    · rw [Option.map_map]
      rfl
    · rfl

end Collapsed

end Model

/-- A proxy leaves no loose ends. -/
theorem Build.Proxied.inRange {m m' : Model} {e : Entity} {choice : ActionId}
    (h : Proxied m m' e choice) (hrange : m.InRange) (he : e ∈ m.entities)
    (hchoice : choice.index < m.actions.size) : m'.InRange := by
  have hproperties : m'.properties.size = m.properties.size + 1 := by
    rw [h.properties, Array.size_push]
  have hactions : m'.actions.size = m.actions.size := by
    rw [h.actions, Array.size_modify]
  have hentity : ∀ o' ∈ m'.entities, o' = e.withProxy m.properties.size ∨ o' ∈ m.entities := by
    intro o' ho'
    rw [h.entities] at ho'
    rcases Model.mem_modifyEntity.1 ho' with ⟨_, _, _, rfl⟩ | ⟨ho, _⟩
    · exact .inl rfl
    · exact .inr ho
  have hproperty : ∀ p ∈ m'.properties, p = e.proxy choice ∨ p ∈ m.properties := by
    intro p hp
    rw [h.properties] at hp
    exact (Array.mem_push.1 hp).symm
  have haction : ∀ x' ∈ m'.actions, ∃ x ∈ m.actions, x'.children = x.children ∧
      x'.parent = x.parent ∧ (x'.property = some ⟨m.properties.size⟩ ∨ x' = x) := by
    intro x' hx'
    obtain ⟨i, hi⟩ := Array.mem_iff_getElem?.1 hx'
    obtain ⟨x, hx, hsame⟩ := h.exists_action hi
    have hchildren := congrArg Action.children hsame
    have hparent := congrArg Action.parent hsame
    refine ⟨x, Array.mem_of_getElem? hx, hchildren, hparent, ?_⟩
    rw [h.actions, Array.getElem?_modify, hx] at hi
    split at hi
    · exact .inl (congrArg Action.property (Option.some.inj hi)).symm
    · exact .inr (Option.some.inj hi).symm
  constructor
  case listed =>
    intro o' ho' id hid
    rcases hentity o' ho' with rfl | ho
    · obtain rfl := List.mem_singleton.1 hid
      rw [hproperties]
      exact Nat.lt_succ_self _
    · have := hrange.listed o' ho id hid
      omega
  case topmost =>
    intro o' ho' id hid
    rw [hactions]
    rcases hentity o' ho' with rfl | ho
    · exact hrange.topmost e he id hid
    · exact hrange.topmost o' ho id hid
  case sources =>
    intro p hp
    rw [hactions]
    rcases hproperty p hp with rfl | hp
    · exact hchoice
    · exact hrange.sources p hp
  case subsumed =>
    intro p hp id hid
    rw [hproperties]
    rcases hproperty p hp with rfl | hp
    · exact Nat.lt_succ_of_lt (hrange.listed e he id hid)
    · exact Nat.lt_succ_of_lt (hrange.subsumed p hp id hid)
  case children =>
    intro x' hx' id hid
    obtain ⟨x, hx, hsame, _⟩ := haction x' hx'
    rw [hactions]
    rw [hsame] at hid
    exact hrange.children x hx id hid
  case parents =>
    intro x' hx' id hid
    obtain ⟨x, hx, _, hsame, _⟩ := haction x' hx'
    rw [hactions]
    rw [hsame] at hid
    exact hrange.parents x hx id hid
  case links =>
    intro x' hx' id hid
    obtain ⟨x, hx, _, _, hlink | rfl⟩ := haction x' hx'
    · obtain rfl := Option.some.inj (hlink.symm.trans hid)
      rw [hproperties]
      exact Nat.lt_succ_self _
    · rw [hproperties]
      exact Nat.lt_succ_of_lt (hrange.links x' hx id hid)

/-! ## 4. The stage as a whole -/

namespace Build

variable {m : Model}

/-- How far the stage of the proxies has got when it has looked at the entities in `done`. -/
structure Collapsing (m : Model) (done : List Entity) (m' : Model) : Prop where
  inRange : m'.InRange
  collapsed : ∃ cs, m.Choosers done cs ∧ m.Collapsed m' cs

/-- The ids do not suffice for the proxies of the first entities. -/
def Crowded (m : Model) : Prop :=
  ∃ es cs, es <+: m.entities ∧ m.Choosers es cs ∧ idCount < m.properties.size + cs.length

/-- The stage of the proxies looks at one more entity. -/
theorem ensures_collapse_next (hrange : m.InRange) (hnodup : m.names.Nodup)
    {done rest : List Entity} {e : Entity} (hsplit : m.entities = done ++ e :: rest) {d : Draft}
    (h : Collapsing m done d.model) :
    Ensures (collapse e.name) d (fun stop => Shortage stop ∧ Crowded m) fun _ d' =>
      Collapsing m (done ++ [e]) d'.model := by
  obtain ⟨hrange', cs, hcs, hcollapsed⟩ := h
  have he : e ∈ m.entities := by
    rw [hsplit]
    exact List.mem_append_right _ List.mem_cons_self
  have hfresh : e ∉ done := by
    intro hmem
    have hnodup' : (done ++ e :: rest).Nodup := hsplit ▸ List.Nodup.of_map _ hnodup
    exact (List.nodup_append'.1 hnodup').2.2 hmem List.mem_cons_self
  have hno : ∀ choice, (e, choice) ∉ cs := fun choice hmem => hfresh (hcs.mem_of_mem hmem)
  have hfound := hcollapsed.entity?_eq hnodup he hno
  have hpure : ∀ choice, d.model.PureChoice e choice ↔ m.PureChoice e choice :=
    fun choice => hcollapsed.pureChoice_iff (hrange.listed e he)
  refine (ensures_collapse_of_sourced hrange'.sourced e.name).mono (fun stop hstop => ?_)
    fun _ d' hd' => ?_
  · obtain ⟨rfl, hsize, o, ho, choice, hchoice⟩ := hstop
    obtain rfl := Option.some.inj (hfound.symm.trans ho)
    refine ⟨⟨_, hsize, rfl⟩, done ++ [e], cs ++ [(e, choice)], ⟨rest, ?_⟩,
      hcs.append hfresh ((hpure choice).1 hchoice), ?_⟩
    · rw [hsplit, List.append_assoc]
      rfl
    · rw [hcollapsed.size_eq] at hsize
      rw [List.length_append, List.length_singleton]
      omega
  · rcases hd' with ⟨hsame, hnone⟩ | ⟨o, ho, choice, hchoice, hproxied⟩
    · rw [hsame]
      exact ⟨hrange', cs, hcs.skip hfresh fun choice hchoice =>
        hnone e hfound choice ((hpure choice).2 hchoice), hcollapsed⟩
    · obtain rfl := Option.some.inj (hfound.symm.trans ho)
      obtain ⟨y, hy, _⟩ := hchoice.action
      have hlt : choice.index < d.model.actions.size := (Array.getElem?_eq_some_iff.1 hy).1
      exact ⟨hproxied.inRange hrange' (Model.mem_of_entity?_eq_some ho) hlt, _,
        hcs.append hfresh ((hpure choice).1 hchoice),
        hcollapsed.proxied hnodup he hno hproxied⟩

/-- The stage of the proxies looks at the entities one after another. -/
theorem alternatives_eq (d : Draft) :
    alternatives d = (d.model.entities.forM fun e => collapse e.name) d := by
  rw [alternatives, model_bind, Model.names]
  exact congrFun (List.forM_map ..) d

/-- Where no entity is nothing but a choice, the stage of the proxies changes nothing. -/
theorem run_alternatives_settled (hrange : m.InRange)
    (hno : ∀ e ∈ m.entities, ∀ choice, ¬ m.PureChoice e choice) :
    (Build.run alternatives m).1 = .ok m := by
  have hkeep : Ensures alternatives { model := m } (fun _ => False) fun _ d' => d'.model = m := by
    rw [alternatives, ensures_bind, ensures_model]
    refine ensures_forM_keep (I := fun d' => d'.model = m) (fun name _ d hd => ?_) rfl
    subst hd
    refine (ensures_collapse_of_sourced hrange.sourced name).mono (fun stop hstop => ?_)
      fun _ d' hd' => ?_
    · obtain ⟨_, _, e, he, choice, hchoice⟩ := hstop
      exact hno e (Model.mem_of_entity?_eq_some he) choice hchoice
    · rcases hd' with ⟨hsame, _⟩ | ⟨e, he, choice, hchoice, _⟩
      · exact hsame
      · exact absurd hchoice (hno e (Model.mem_of_entity?_eq_some he) choice)
  have hrun := hkeep.run (Q := fun m' => m' = m)
  split at hrun
  · next m' hm' => rw [hm', hrun]
  · exact hrun.elim

/-- The stage of the proxies, on a model without loose ends: it ends well unless there are too few
    ids for the proxies. The entities that are nothing but a choice then have a proxy in the place
    of their properties, the model is else as it was, and a second time changes nothing. -/
theorem alternatives_collapses (m : Model) (hrange : m.InRange) (hnodup : m.names.Nodup) :
    match (Build.run alternatives m).1 with
    | .ok m' => (∃ cs, m.Choosers m.entities cs ∧ m.Collapsed m' cs) ∧ m'.InRange ∧
        (Build.run alternatives m').1 = .ok m'
    | .error stop => Shortage stop ∧ Crowded m := by
  have hstage : Ensures alternatives { model := m } (fun stop => Shortage stop ∧ Crowded m)
      fun _ d' => Collapsing m m.entities d'.model := by
    unfold Ensures
    rw [alternatives_eq]
    exact ensures_forM (I := fun done d' => Collapsing m done d'.model)
      (fun done e rest hsplit d hd => ensures_collapse_next hrange hnodup hsplit hd)
      ⟨hrange, [], ⟨List.Sublist.refl _, fun e he => absurd he List.not_mem_nil⟩, .refl m⟩
  refine (hstage.mono (fun _ hstop => hstop) fun _ d' hd' => ?_).run (Q := fun m' =>
    (∃ cs, m.Choosers m.entities cs ∧ m.Collapsed m' cs) ∧ m'.InRange ∧
      (Build.run alternatives m').1 = .ok m')
  obtain ⟨hrange', cs, hcs, hcollapsed⟩ := hd'
  exact ⟨⟨cs, hcs, hcollapsed⟩, hrange',
    run_alternatives_settled hrange' (hcollapsed.settled hrange hcs)⟩

end Build

namespace Shared

/-- Two entities that are read by the same choice, of which each has one branch for its own. -/
def model : Model where
  entities :=
    [{ name := "a", properties := [("x", ⟨0⟩)], action := some ⟨2⟩ },
     { name := "b", properties := [("y", ⟨1⟩)], action := some ⟨2⟩ }]
  properties :=
    #[{ name := "x", entity := "a", source := ⟨0⟩ },
      { name := "y", entity := "b", source := ⟨1⟩ }]
  actions :=
    #[{ kind := .entity "a", property := some ⟨0⟩, parent := some ⟨2⟩ },
      { kind := .entity "b", property := some ⟨1⟩, parent := some ⟨2⟩ },
      { kind := .any [⟨0⟩, ⟨1⟩] }]
  root := some "a"

/-- The same after the stage of the proxies. -/
def collapsed : Model where
  entities :=
    [{ name := "a", properties := [("alternative", ⟨2⟩)], action := some ⟨2⟩ },
     { name := "b", properties := [("alternative", ⟨3⟩)], action := some ⟨2⟩ }]
  properties :=
    #[{ name := "x", entity := "a", source := ⟨0⟩ },
      { name := "y", entity := "b", source := ⟨1⟩ },
      { name := "alternative", entity := "a", source := ⟨2⟩, kind := .proxy [⟨0⟩] },
      { name := "alternative", entity := "b", source := ⟨2⟩, kind := .proxy [⟨1⟩] }]
  actions :=
    #[{ kind := .entity "a", property := some ⟨0⟩, parent := some ⟨2⟩ },
      { kind := .entity "b", property := some ⟨1⟩, parent := some ⟨2⟩ },
      { kind := .any [⟨0⟩, ⟨1⟩], property := some ⟨3⟩ }]
  root := some "a"

theorem inRange : model.InRange := by
  constructor <;> decide

theorem run_eq : (Build.run Build.alternatives model).1 = .ok collapsed := by
  rfl

theorem pureChoice : model.PureChoice model.entities[0] ⟨2⟩ where
  nonempty := by decide
  action := ⟨_, rfl, rfl⟩
  branches := by
    intro id hid
    obtain rfl := List.mem_singleton.1 hid
    exact ⟨_, _, rfl, rfl, rfl, rfl⟩

end Shared

/-- Both entities get a proxy for the choice they share, and a second time changes nothing. -/
theorem alternatives_collapses_shared :
    Shared.model.InRange ∧ Shared.model.names.Nodup ∧
    (Build.run Build.alternatives Shared.model).1 = .ok Shared.collapsed ∧
    (∃ cs, Shared.model.Choosers Shared.model.entities cs ∧
      Shared.model.Collapsed Shared.collapsed cs) ∧
    Shared.collapsed.InRange ∧
    (Build.run Build.alternatives Shared.collapsed).1 = .ok Shared.collapsed := by
  have hnodup : Shared.model.names.Nodup := by decide
  have hrun := Build.alternatives_collapses Shared.model Shared.inRange hnodup
  rw [Shared.run_eq] at hrun
  exact ⟨Shared.inRange, hnodup, Shared.run_eq, hrun⟩

/-- Of two entities that share a choice, the first one has a proxy that the choice is not linked to:
    a choice knows of one property only. -/
theorem shared_choice_detached :
    Shared.model.InRange ∧ Shared.model.names.Nodup ∧
    Shared.model.issues = .ok [] ∧
    ¬ ∀ m', (Build.run Build.alternatives Shared.model).1 = .ok m' →
      ∀ e ∈ Shared.model.entities, ∀ choice, Shared.model.PureChoice e choice →
        ∃ proxy y, m'.entity? e.name = some { e with properties := [(alternativeName, proxy)] } ∧
          m'.actions[choice.index]? = some y ∧ y.property = some proxy := by
  refine ⟨Shared.inRange, by decide, by cbv, fun hlinked => ?_⟩
  obtain ⟨proxy, y, hentity, hy, hlink⟩ :=
    hlinked _ Shared.run_eq _ (by decide) _ Shared.pureChoice
  have hfirst : Shared.collapsed.entity? "a" = some (Shared.model.entities[0].withProxy 2) := rfl
  have hsame := congrArg Entity.properties (Option.some.inj (hfirst.symm.trans hentity))
  cases hsame
  cases hy
  cases hlink

end Ebnf
