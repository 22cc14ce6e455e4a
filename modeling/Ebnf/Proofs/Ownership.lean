import Mathlib.Data.Fin.Pigeonhole
import Ebnf.Proofs.Course
import Ebnf.Proofs.Program

/-!
# To which entity an action belongs

The bodies of the entities fill the arenas of a model that was built: every action is one of the
tree of exactly one entity, and every property was made for a leaf of an entity or is its proxy.

* `ActionTree.ids`, `Model.Owns`: the actions in the tree of an entity;
* `Site.Hosts.owns_iff`, `Site.Hosts.linked_action`: the site of an entity tells which these are,
  and which of them fill a property;
* `Model.Filled`: nothing stands in the arenas but what belongs to the entities;
* `ensures_bodies_filled`, `ensures_alternatives_filled`: the stages keep to that, and a proxy has
  an id where all actions have one;
* `exists_filled`: so it is in a model that was built.
-/

namespace Ebnf

open Build (idsFrom mem_idsFrom)

/-! ## 1. The actions of a tree -/

namespace ActionTree

mutual

/-- The ids of the actions of a tree, children before the action they belong to. -/
def ids : ActionTree → List ActionId
  | node id _ _ ts => idsOf ts ++ [id]

/-- The ids of the actions of several trees. -/
def idsOf : List ActionTree → List ActionId
  | [] => []
  | t :: ts => t.ids ++ idsOf ts

end

end ActionTree

/-- An action is one of those that read an entity. -/
def Model.Owns (m : Model) (e : Entity) (id : ActionId) : Prop :=
  ∃ top t, e.action = some top ∧ m.tree top = .ok t ∧ id ∈ t.ids

namespace Plan

variable {m : Model} {entity : Name} {link : ActionId → Option PropertyId}

mutual

/-- The actions of the tree of a plan stand in a row. -/
theorem ids_treeOf {a q : Nat} {parent : Option ActionId} : ∀ p : Plan,
    (p.treeOf m link a q parent).ids = (List.range' a p.size).map ActionId.mk
  | leaf mods symbol slot => rfl
  | node mods choice parts => by
    rw [treeOf, ActionTree.ids, ids_treesOf parts, size, List.range'_concat, List.map_append,
      Nat.one_mul]
    rfl

theorem ids_treesOf {a q : Nat} {parent : Option ActionId} : ∀ ps : List Plan,
    ActionTree.idsOf (treesOf m link a q parent ps) = (List.range' a (sizes ps)).map ActionId.mk
  | [] => rfl
  | p :: ps => by
    rw [treesOf, ActionTree.idsOf, ids_treeOf p, ids_treesOf ps, sizes, ← List.map_append,
      List.range'_append_1]

end

mutual

/-- An action of a plan that fills a property is one with children that is linked, or a leaf with
    its own property. -/
theorem Stands.linked_action {a q i : Nat} {parent : Option ActionId} {x : Action}
    {id : PropertyId} : ∀ {p : Plan}, p.Stands m entity link a q parent → a ≤ i → i < a + p.size →
      m.actions[i]? = some x → x.property = some id → link ⟨i⟩ = some id ∨
        ∃ k < p.width, id = ⟨q + k⟩ ∧ ∃ name,
          m.properties[q + k]? = some { name := name, entity := entity, source := ⟨i⟩ }
  | leaf mods symbol slot, ⟨htop, hslot⟩, ha, hi, hx, hid => by
    obtain rfl : i = a := Nat.le_antisymm (Nat.le_of_lt_succ hi) ha
    obtain rfl := Option.some.inj (htop.symm.trans hx)
    cases slot with
    | none => exact absurd hid (by simp [top])
    | some name =>
      obtain rfl := Option.some.inj hid
      exact .inr ⟨0, Nat.one_pos, rfl, hslot rfl⟩
  | node mods choice parts, ⟨hparts, htop⟩, ha, hi, hx, hid => by
    rw [size, ← Nat.add_assoc] at hi
    rcases Nat.lt_succ_iff_lt_or_eq.1 hi with hlt | rfl
    · exact hparts.linked_action ha hlt hx hid
    · obtain rfl := Option.some.inj (htop.symm.trans hx)
      exact .inl hid

theorem StandInRow.linked_action {a q i : Nat} {parent : Option ActionId} {x : Action}
    {id : PropertyId} : ∀ {ps : List Plan}, StandInRow m entity link a q parent ps → a ≤ i →
      i < a + sizes ps → m.actions[i]? = some x → x.property = some id → link ⟨i⟩ = some id ∨
        ∃ k < (slotsOf ps).length, id = ⟨q + k⟩ ∧ ∃ name,
          m.properties[q + k]? = some { name := name, entity := entity, source := ⟨i⟩ }
  | [], _, ha, hi, _, _ => absurd (Nat.lt_of_le_of_lt ha hi) (Nat.lt_irrefl a)
  | p :: ps, ⟨hp, hps⟩, ha, hi, hx, hid => by
    rw [sizes, ← Nat.add_assoc] at hi
    rw [slotsOf, List.length_append]
    by_cases hlt : i < a + p.size
    · refine (hp.linked_action ha hlt hx hid).imp_right ?_
      rintro ⟨k, hk, hrest⟩
      exact ⟨k, Nat.lt_of_lt_of_le hk (Nat.le_add_right ..), hrest⟩
    · refine (hps.linked_action (Nat.le_of_not_lt hlt) hi hx hid).imp_right ?_
      rintro ⟨k, hk, hrest⟩
      rw [Nat.add_assoc] at hrest
      exact ⟨p.width + k, Nat.add_lt_add_left hk _, hrest⟩

end

end Plan

namespace Site

variable {m : Model} {e : Entity} {s : Site}

/-- The actions of an entity are those at its site. -/
theorem Hosts.owns_iff (h : s.Hosts m e) {id : ActionId} :
    m.Owns e id ↔ s.action ≤ id.index ∧ id.index < s.fin := by
  have hids : id ∈ (s.plan.treeOf m s.link s.action s.property none).ids ↔
      s.action ≤ id.index ∧ id.index < s.fin := by
    rw [Plan.ids_treeOf, List.mem_map]
    constructor
    · rintro ⟨i, hi, rfl⟩
      exact List.mem_range'_1.1 hi
    · exact fun hi => ⟨id.index, List.mem_range'_1.2 hi, rfl⟩
  constructor
  · rintro ⟨top, t, htop, ht, hmem⟩
    obtain rfl := Option.some.inj (h.action.symm.trans htop)
    obtain rfl := Except.ok.inj (h.tree_eq.symm.trans ht)
    exact hids.1 hmem
  · exact fun hwithin => ⟨_, _, h.action, h.tree_eq, hids.2 hwithin⟩

/-- An action of an entity that fills a property is the choice of the proxy, or a leaf with a
    property of its own. -/
theorem Hosts.linked_action (h : s.Hosts m e) {id : ActionId} {x : Action} {p : PropertyId}
    (howns : m.Owns e id) (hx : m.actions[id.index]? = some x) (hp : x.property = some p) :
    s.proxy = some (id, p) ∨ ∃ k < s.plan.width, p = ⟨s.property + k⟩ ∧
      ∃ f x, Plan.Fills m e.name s.action s.fin ⟨s.property + k⟩ f id.index x := by
  obtain ⟨ha, hi⟩ := h.owns_iff.1 howns
  rcases h.stands.linked_action ha hi hx hp with hlink | ⟨k, hk, rfl, name, hproperty⟩
  · refine .inl ?_
    cases hproxy : s.proxy with
    | none =>
      rw [link_plain hproxy] at hlink
      contradiction
    | some entry =>
      rw [link_proxy hproxy] at hlink
      split at hlink
      · next hchoice =>
        obtain rfl : entry.1 = id := hchoice.symm
        obtain rfl := Option.some.inj hlink
        rfl
      · contradiction
  · obtain ⟨f, i, y, _, hfills⟩ := h.exists_slot hk
    obtain ⟨name', hproperty'⟩ := hfills.property
    have hsource := congrArg Property.source (Option.some.inj (hproperty.symm.trans hproperty'))
    obtain rfl : id.index = i := congrArg ActionId.index hsource
    exact .inr ⟨k, hk, rfl, f, y, hfills⟩

/-- A property that was made for a leaf tells the entity, and stands for no other. -/
theorem Hosts.property_leaf (h : s.Hosts m e) {k : Nat} (hk : k < s.plan.width) :
    ∃ p, m.properties[s.property + k]? = some p ∧ p.entity = e.name ∧ p.subsumed = [] := by
  obtain ⟨f, i, x, _, hfills⟩ := h.exists_slot hk
  obtain ⟨name, hproperty⟩ := hfills.property
  exact ⟨_, hproperty, rfl, rfl⟩

end Site

/-! ## 2. Arenas without gaps -/

/-- Nothing stands in the arenas but the actions and the properties of the entities in `done`. -/
structure Model.Filled (m : Model) (site : Name → Site) (done : List Name) : Prop where
  actions : ∀ i < m.actions.size, ∃ n ∈ done, (site n).action ≤ i ∧ i < (site n).fin
  properties : ∀ k < m.properties.size, ∃ n ∈ done,
    (∃ j < (site n).plan.width, k = (site n).property + j) ∨
      ∃ choice, (site n).proxy = some (choice, ⟨k⟩)

namespace Build

variable {g : Grammar} {m m' m₁ m₂ m₃ : Model}

/-- One more body fills the arenas up to their end. -/
theorem LaidDown.filled {entity : Name} {plan : Plan} {site : Name → Site} {done : List Name}
    (h : LaidDown m m' entity plan) (hfilled : m.Filled site done) (hfresh : entity ∉ done) :
    m'.Filled (Function.update site entity (LaidDown.site m plan)) (done ++ [entity]) := by
  have hactions := h.actions_size
  have hproperties := h.properties_size
  have hold : ∀ n ∈ done, n ∈ done ++ [entity] ∧
      Function.update site entity (LaidDown.site m plan) n = site n := by
    intro n hn
    have hne : n ≠ entity := fun heq => hfresh (heq ▸ hn)
    exact ⟨List.mem_append_left _ hn, Function.update_of_ne hne ..⟩
  have hnew : entity ∈ done ++ [entity] := List.mem_append_right _ (List.mem_singleton_self _)
  constructor
  · intro i hi
    by_cases hlt : i < m.actions.size
    · obtain ⟨n, hn, hwithin⟩ := hfilled.actions i hlt
      obtain ⟨hmem, hsame⟩ := hold n hn
      exact ⟨n, hmem, by rwa [hsame]⟩
    · refine ⟨entity, hnew, ?_⟩
      rw [Function.update_self]
      refine ⟨Nat.le_of_not_lt hlt, ?_⟩
      rwa [hactions] at hi
  · intro k hk
    by_cases hlt : k < m.properties.size
    · obtain ⟨n, hn, hwithin⟩ := hfilled.properties k hlt
      obtain ⟨hmem, hsame⟩ := hold n hn
      exact ⟨n, hmem, by rwa [hsame]⟩
    · refine ⟨entity, hnew, .inl ⟨k - m.properties.size, ?_, ?_⟩⟩
      · rw [Function.update_self]
        show k - m.properties.size < plan.width
        omega
      · rw [Function.update_self]
        show k = m.properties.size + (k - m.properties.size)
        omega

/-- A proxy is one more property of its entity. -/
theorem Proxied.filled [Unicode.Xid] {e : Entity} {choice : ActionId} {site : Name → Site}
    (h : Proxied m m' e choice) (his : IsChoice m e choice) (hsited : m.Sited site m.names)
    (he : e ∈ m.entities) (hfilled : m.Filled site m.names) :
    m'.Filled (h.site site) m'.names := by
  rw [h.names_eq]
  constructor
  · intro i hi
    rw [h.actions, Array.size_modify] at hi
    obtain ⟨n, hn, hwithin⟩ := hfilled.actions i hi
    obtain ⟨hplan, haction, _⟩ := h.site_place site n
    refine ⟨n, hn, ?_⟩
    rwa [haction, Site.fin, haction, hplan]
  · intro k hk
    rw [h.properties, Array.size_push] at hk
    rcases Nat.lt_succ_iff_lt_or_eq.1 hk with hlt | rfl
    · obtain ⟨n, hn, hwithin⟩ := hfilled.properties k hlt
      obtain ⟨hplan, _, hproperty⟩ := h.site_place site n
      refine ⟨n, hn, ?_⟩
      rcases hwithin with hleaf | ⟨other, hproxy⟩
      · rw [hplan, hproperty]
        exact .inl hleaf
      · refine .inr ⟨other, ?_⟩
        have hne : n ≠ e.name := by
          rintro rfl
          rw [his.proxy_eq_none (hsited.hosts_of_mem he)] at hproxy
          contradiction
        rwa [h.site_of_ne hne]
    · refine ⟨e.name, List.mem_map_of_mem he, .inr ⟨choice, ?_⟩⟩
      rw [h.site_self]

/-- The bodies fill the arenas. -/
theorem ensures_bodies_filled [Unicode.Xid] {d : Draft} (hrules : d.model.OfRules g)
    (hbodiless : Bodiless d.model) :
    Ensures bodies d (Halted g) fun _ d' => d.model.SameKin d'.model ∧ d'.model.Closed ∧
      ∃ site, d'.model.Sited site d'.model.names ∧ d'.model.Filled site d'.model.names := by
  refine ensures_bodies_keep (P := fun site done m => m.Filled site done) hrules
    hbodiless.closed (fun site => ⟨fun i hi => ?_, fun k hk => ?_⟩)
    fun site done m₁ m₂ entity plan _ hfresh hlaid hfilled => hlaid.filled hfilled hfresh
  · rw [hbodiless.actions] at hi
    exact absurd hi (Nat.not_lt_zero i)
  · rw [hbodiless.properties] at hk
    exact absurd hk (Nat.not_lt_zero k)

/-- Where nothing stands in the arenas but the bodies, every property is linked. -/
theorem linked_of_filled [Unicode.Xid] {site : Name → Site} (hsited : m.Sited site m.names)
    (hfilled : m.Filled site m.names) (k : Fin m.properties.size) :
    ∃ x, m.Linked ⟨k⟩ m.properties[k] x := by
  have hk : m.properties[k.val]? = some m.properties[k] := Array.getElem?_eq_getElem k.isLt
  suffices hsome : ∃ p x, m.Linked ⟨k⟩ p x by
    obtain ⟨p, x, hx⟩ := hsome
    obtain rfl := Option.some.inj (hk.symm.trans hx.property)
    exact ⟨x, hx⟩
  obtain ⟨n, hn, hplace⟩ := hfilled.properties k k.isLt
  obtain ⟨o, ho, rfl⟩ := List.mem_map.1 hn
  have hosts := hsited.hosts_of_mem ho
  rcases hplace with ⟨j, hj, heq⟩ | ⟨other, hproxy⟩
  · rw [heq]
    exact hosts.linked hj
  · obtain ⟨y, hy, _⟩ := hosts.linked_proxy hproxy
    exact ⟨_, y, hy⟩

/-- A choice that is to get a proxy fills no property yet. -/
theorem IsChoice.property_eq_none {s : Site} {e : Entity} {choice : ActionId} {x : Action}
    (his : IsChoice m e choice) (hosts : s.Hosts m e) (hx : m.actions[choice.index]? = some x) :
    x.property = none := by
  obtain ⟨y, hy, hkind⟩ := his.action
  obtain rfl := Option.some.inj (hx.symm.trans hy)
  cases hproperty : x.property with
  | none => rfl
  | some p =>
    rcases hosts.linked_action (hosts.owns_iff.2 (his.within hosts)) hx hproperty with
      hproxy | ⟨k, hk, _, f, y, hfills⟩
    · rw [his.proxy_eq_none hosts] at hproxy
      contradiction
    · obtain rfl := Option.some.inj (hx.symm.trans hfills.action)
      rw [Action.isChoice, hfills.kind] at hkind
      cases hsymbol : f.symbol <;> rw [hsymbol] at hkind <;> contradiction

/-- Every property is filled by an action of its own. A choice that is to get a proxy fills none so
    far, so there are fewer properties than actions. -/
theorem IsChoice.size_lt [Unicode.Xid] {site : Name → Site} {e : Entity} {choice : ActionId}
    (his : IsChoice m e choice) (he : e ∈ m.entities) (hsited : m.Sited site m.names)
    (hfilled : m.Filled site m.names) : m.properties.size < m.actions.size := by
  have hlinked := linked_of_filled hsited hfilled
  let source (k : Fin m.properties.size) : Fin m.actions.size :=
    ⟨m.properties[k].source.index, by
      obtain ⟨x, hx⟩ := hlinked k
      exact (Array.getElem?_eq_some_iff.1 hx.source).1⟩
  have hinjective : Function.Injective source := by
    intro k j heq
    obtain ⟨x, hx⟩ := hlinked k
    obtain ⟨y, hy⟩ := hlinked j
    have hsame : m.properties[k].source.index = m.properties[j].source.index :=
      congrArg Fin.val heq
    obtain rfl := Option.some.inj (hx.source.symm.trans (hsame ▸ hy.source))
    exact Fin.ext (congrArg PropertyId.index (Option.some.inj (hx.link.symm.trans hy.link)))
  obtain ⟨y, hy, _⟩ := his.action
  have hlt : choice.index < m.actions.size := (Array.getElem?_eq_some_iff.1 hy).1
  have hmissed : ⟨choice.index, hlt⟩ ∉ Set.range source := by
    rintro ⟨k, heq⟩
    obtain ⟨x, hx⟩ := hlinked k
    have hsame : m.properties[k].source.index = choice.index := congrArg Fin.val heq
    have hnone := his.property_eq_none (hsited.hosts_of_mem he) (hsame ▸ hx.source)
    rw [hx.link] at hnone
    contradiction
  exact Fin.lt_of_injective_of_notMem source hinjective hmissed

/-- The proxies keep the arenas filled, and there are ids for them if there are for all actions. -/
theorem ensures_alternatives_filled [Unicode.Xid] {d : Draft} {site : Name → Site}
    (hnodup : d.model.names.Nodup) (hclosed : d.model.Closed)
    (hsited : d.model.Sited site d.model.names) (hfilled : d.model.Filled site d.model.names) :
    Ensures alternatives d (fun _ => idCount < d.model.actions.size) fun _ d' =>
      d.model.SameKin d'.model ∧ d'.model.Closed ∧
        ∃ site, d'.model.Sited site d'.model.names ∧ d'.model.Filled site d'.model.names := by
  refine (ensures_alternatives_keep (P := fun site m => m.Filled site m.names ∧
    m.actions.size = d.model.actions.size) hnodup hclosed hsited ⟨hfilled, rfl⟩
    fun site m₁ m₂ e choice hsited he his hproxied hkept =>
      ⟨hproxied.filled his hsited he hkept.1, ?_⟩).mono (fun stop hstop => ?_) fun _ d' hd' => ?_
  · rw [hproxied.actions, Array.size_modify, hkept.2]
  · obtain ⟨site, m, e, choice, hsited, hkept, he, his, hfull, _⟩ := hstop
    have hlt := his.size_lt he hsited hkept.1
    have hsize := hkept.2
    omega
  · obtain ⟨hkin, hclosed', site, hsited', hkept⟩ := hd'
    exact ⟨hkin, hclosed', site, hsited', hkept.1⟩

/-- The bodies of the entities fill the arenas of a model that was built. -/
theorem exists_filled [Unicode.Xid] (h : Model.ofGrammar g = .ok m) :
    m.names.Nodup ∧ ∃ site, m.Sited site m.names ∧ m.Filled site m.names := by
  obtain ⟨m₁, m₂, m₃, hcourse⟩ := exists_course h
  have halong := hcourse.along
  refine ⟨?_, hcourse.exists_kept (P := fun site done m => m.Filled site done)
    (fun site m hbodiless => ⟨fun i hi => ?_, fun k hk => ?_⟩)
    (fun site done m m' entity plan hfresh hlaid hfilled => hlaid.filled hfilled hfresh)
    (fun site m m' e choice hsited he his hproxied hfilled =>
      hproxied.filled his hsited he hfilled) fun site m m' hparts hfilled => ?_⟩
  · rw [halong.grown.parts.names_eq]
    exact halong.proxied.rules.nodup
  · rw [hbodiless.actions] at hi
    exact absurd hi (Nat.not_lt_zero i)
  · rw [hbodiless.properties] at hk
    exact absurd hk (Nat.not_lt_zero k)
  · rw [hparts.names_eq]
    exact ⟨hparts.actions ▸ hfilled.actions, hparts.properties ▸ hfilled.properties⟩

end Build

end Ebnf
