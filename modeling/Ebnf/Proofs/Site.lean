import Ebnf.Build.Alternative
import Ebnf.Proofs.Arena
import Ebnf.Proofs.Compile
import Ebnf.Proofs.Naming

/-!
# Where the parts of an entity stand

The actions and the properties of an entity stand next to each other in the arenas of its model. A
choice between entities has one more property elsewhere, the proxy for all the others.

* `Site`: the places of the parts of an entity;
* `Site.Hosts`: the parts of an entity stand where its site says;
* `Site.Hosts.congr`: they still do after a change elsewhere;
* `Site.Hosts.lists`: what there is to know of the current properties of an entity.
-/

namespace Ebnf

open Build (alternativeName distinctNames idsFrom renamed length_distinctNames)

/-! ## 1. Sites -/

/-- Where the actions and properties of an entity stand in a model. -/
structure Site where
  /-- What the rule of the entity describes. -/
  plan : Plan
  /-- The place of the first action. -/
  action : Nat
  /-- The place of the first property. -/
  property : Nat
  /-- The property that stands for all the others, with the choice that it is filled by. -/
  proxy : Option (ActionId × PropertyId) := none

namespace Site

/-- The place after the last action. -/
def fin (s : Site) : Nat :=
  s.action + s.plan.size

/-- The names of the properties that were made for the leaves. -/
def names (s : Site) : List Name :=
  distinctNames s.plan.slots

/-- The properties that were made for the leaves. -/
def ids (s : Site) : List PropertyId :=
  idsFrom s.property s.plan.width

/-- The property of an action with children. -/
def link (s : Site) (id : ActionId) : Option PropertyId :=
  s.proxy.bind fun (choice, proxy) => if id = choice then some proxy else none

/-- The current properties. -/
def current (s : Site) : PropertyMap :=
  match s.proxy with
  | none => s.names.zip s.ids
  | some (_, proxy) => [(alternativeName, proxy)]

/-- Two entities have no action in common. -/
def Apart (s s' : Site) : Prop :=
  s.fin ≤ s'.action ∨ s'.fin ≤ s.action

/-- The property that stands for those made for the leaves. -/
def proxyOf (s : Site) (entity : Name) (choice : ActionId) : Property :=
  { name := alternativeName, entity := entity, source := choice, kind := .proxy s.ids }

/-- One property stands for those made for the leaves, all of which are references and branches of
    the same choice. -/
structure Chooses (s : Site) (m : Model) (entity : Name) (choice : ActionId) (proxy : PropertyId) :
    Prop where
  property : m.properties[proxy.index]? = some (s.proxyOf entity choice)
  fresh : s.property + s.plan.width ≤ proxy.index
  nonempty : 0 < s.plan.width
  within : s.action ≤ choice.index ∧ choice.index < s.fin
  action : ∃ y, m.actions[choice.index]? = some y ∧ y.isChoice = true ∧ y.property = some proxy
  branches : ∀ k < s.plan.width, ∃ p x, m.properties[s.property + k]? = some p ∧
    m.actions[p.source.index]? = some x ∧ x.parent = some choice ∧ x.target?.isSome = true

/-- The parts of an entity stand where its site says. -/
structure Hosts (s : Site) (m : Model) (e : Entity) : Prop where
  stands : s.plan.Stands m e.name s.link s.action s.property none
  named : ∀ k name, s.names[k]? = some name →
    ∃ p, m.properties[s.property + k]? = some p ∧ p.name = name
  action : e.action = some ⟨s.action + s.plan.size - 1⟩
  current : e.properties = s.current
  chooses : ∀ choice proxy, s.proxy = some (choice, proxy) → s.Chooses m e.name choice proxy

end Site

/-! ## 2. Ids in a row -/

namespace Build

theorem length_idsFrom (q n : Nat) : (idsFrom q n).length = n := by
  rw [idsFrom, List.length_map, List.length_range']

theorem getElem?_idsFrom {q n k : Nat} (hk : k < n) : (idsFrom q n)[k]? = some ⟨q + k⟩ := by
  rw [idsFrom, List.getElem?_map, List.getElem?_range' hk, Nat.one_mul]
  rfl

theorem mem_idsFrom {q n : Nat} {id : PropertyId} :
    id ∈ idsFrom q n ↔ ∃ k < n, id = ⟨q + k⟩ := by
  rw [idsFrom, List.mem_map]
  constructor
  · rintro ⟨i, hi, rfl⟩
    obtain ⟨hle, hlt⟩ := List.mem_range'_1.1 hi
    exact ⟨i - q, by omega, by rw [Nat.add_sub_cancel' hle]⟩
  · rintro ⟨k, hk, rfl⟩
    exact ⟨q + k, List.mem_range'_1.2 ⟨Nat.le_add_right .., by omega⟩, rfl⟩

end Build

open Build (getElem?_idsFrom mem_idsFrom length_idsFrom)

namespace Site

variable {m m' : Model} {e : Entity} {s : Site}

theorem length_names (s : Site) : s.names.length = s.plan.width :=
  length_distinctNames s.plan.slots

theorem length_ids (s : Site) : s.ids.length = s.plan.width :=
  length_idsFrom ..

theorem nodup_names (s : Site) : s.names.Nodup :=
  Build.nodup_distinctNames s.plan.slots

theorem link_plain (h : s.proxy = none) (id : ActionId) : s.link id = none := by
  rw [link, h]
  rfl

theorem link_proxy {choice : ActionId} {proxy : PropertyId} (h : s.proxy = some (choice, proxy))
    (id : ActionId) : s.link id = if id = choice then some proxy else none := by
  rw [link, h]
  rfl

/-- An entity that has no proxy has the properties made for its leaves. -/
theorem current_plain (h : s.proxy = none) : s.current = s.names.zip s.ids := by
  rw [current, h]

theorem current_proxy {choice : ActionId} {proxy : PropertyId}
    (h : s.proxy = some (choice, proxy)) : s.current = [(alternativeName, proxy)] := by
  rw [current, h]

theorem ids_current_plain (h : s.proxy = none) : s.current.ids = s.ids := by
  rw [current_plain h, PropertyMap.ids, List.map_snd_zip]
  exact Nat.le_of_eq (by rw [length_ids, length_names])

theorem ids_current_proxy {choice : ActionId} {proxy : PropertyId}
    (h : s.proxy = some (choice, proxy)) : s.current.ids = [proxy] := by
  rw [current_proxy h]
  rfl

/-- The properties of the leaves under their names. -/
theorem mem_zip_names {key : Name} {id : PropertyId} (h : (key, id) ∈ s.names.zip s.ids) :
    ∃ k < s.plan.width, s.names[k]? = some key ∧ id = ⟨s.property + k⟩ := by
  obtain ⟨k, hk⟩ := List.mem_iff_getElem?.1 h
  obtain ⟨hname, hid⟩ := List.getElem?_zip_eq_some.1 hk
  have hlt : k < s.plan.width := by
    rw [← s.length_names]
    exact (List.getElem?_eq_some_iff.1 hname).1
  rw [ids, getElem?_idsFrom hlt] at hid
  exact ⟨k, hlt, hname, (Option.some.inj hid).symm⟩

/-! ## 3. Changes elsewhere -/

/-- A change that keeps the actions of a choice and all properties keeps what it is a choice of. -/
theorem Chooses.congr {entity : Name} {choice : ActionId} {proxy : PropertyId}
    (h : s.Chooses m entity choice proxy)
    (hsources : ∀ (k : Nat) p, s.property ≤ k → k < s.property + s.plan.width →
      m.properties[k]? = some p → s.action ≤ p.source.index ∧ p.source.index < s.fin)
    (hactions : ∀ i : Nat, s.action ≤ i → i < s.fin → m'.actions[i]? = m.actions[i]?)
    (hproperties : ∀ (k : Nat) p, m.properties[k]? = some p → m'.properties[k]? = some p) :
    s.Chooses m' entity choice proxy where
  property := hproperties _ _ h.property
  fresh := h.fresh
  nonempty := h.nonempty
  within := h.within
  action := by
    rw [hactions _ h.within.1 h.within.2]
    exact h.action
  branches := by
    intro k hk
    obtain ⟨p, x, hp, hx, hparent, htarget⟩ := h.branches k hk
    obtain ⟨ha, hb⟩ := hsources _ p (Nat.le_add_right ..) (Nat.add_lt_add_left hk _) hp
    exact ⟨p, x, hproperties _ _ hp, (hactions _ ha hb).trans hx, hparent, htarget⟩

/-- Every property that was made for a leaf is filled by it. -/
theorem Hosts.slot (h : s.Hosts m e) {k : Nat} {f : Plan.Filler}
    (hk : (s.plan.fillers false)[k]? = some f) :
    ∃ i x, Plan.Fills m e.name s.action s.fin ⟨s.property + k⟩ f i x :=
  h.stands.slot (Nat.le_refl _) rfl hk

/-- The same by the number of the leaf. -/
theorem Hosts.exists_slot (h : s.Hosts m e) {k : Nat} (hk : k < s.plan.width) :
    ∃ f i x, (s.plan.fillers false)[k]? = some f ∧
      Plan.Fills m e.name s.action s.fin ⟨s.property + k⟩ f i x := by
  have hlt : k < (s.plan.fillers false).length := by rwa [Plan.length_fillers]
  obtain ⟨i, x, hfills⟩ := h.slot (List.getElem?_eq_getElem hlt)
  exact ⟨_, i, x, List.getElem?_eq_getElem hlt, hfills⟩

/-- The parts of an entity are where they were after a change that keeps its actions and all
    properties. -/
theorem Hosts.congr (h : s.Hosts m e)
    (hactions : ∀ i : Nat, s.action ≤ i → i < s.fin → m'.actions[i]? = m.actions[i]?)
    (hproperties : ∀ (k : Nat) p, m.properties[k]? = some p → m'.properties[k]? = some p) :
    s.Hosts m' e where
  stands := by
    refine h.stands.transfer (fun i x ha hi hx hlink => ?_) fun k p _ _ hp =>
      ⟨p.name, hproperties k p hp⟩
    rw [hactions i ha hi, hx]
    split
    · rfl
    · next hleaf => rw [← hlink (Bool.eq_false_iff.2 hleaf)]
  named := fun k name hk => by
    obtain ⟨p, hp, hname⟩ := h.named k name hk
    exact ⟨p, hproperties _ p hp, hname⟩
  action := h.action
  current := h.current
  chooses := fun choice proxy hproxy => by
    refine (h.chooses choice proxy hproxy).congr (fun k p hk hk' hp => ?_) hactions hproperties
    obtain ⟨f, i, x, _, hfills⟩ := h.exists_slot (k := k - s.property) (by omega)
    obtain ⟨name, hproperty⟩ := hfills.property
    rw [show s.property + (k - s.property) = k by omega, hp] at hproperty
    rw [Option.some.inj hproperty]
    exact hfills.within

/-- The parts of an entity are those of any entity that agrees with it. -/
theorem Hosts.of_eq {e' : Entity} (h : s.Hosts m e) (hname : e'.name = e.name)
    (haction : e'.action = e.action) (hproperties : e'.properties = e.properties) :
    s.Hosts m e' where
  stands := hname ▸ h.stands
  named := h.named
  action := haction.trans h.action
  current := hproperties.trans h.current
  chooses := fun choice proxy hproxy => hname ▸ h.chooses choice proxy hproxy

end Site

/-! ## 4. Current properties -/

/-- A property and the action that fills it refer to each other. -/
structure Model.Linked (m : Model) (id : PropertyId) (p : Property) (x : Action) : Prop where
  property : m.properties[id.index]? = some p
  source : m.actions[p.source.index]? = some x
  link : x.property = some id
  line : ∃ line, m.lineage p.source = .ok line
  around : ∀ parent, x.parent = some parent → ∃ y, m.actions[parent.index]? = some y

/-- A property that is listed under a name has it, and it and those it stands for are linked. -/
def Model.Lists (m : Model) (key : Name) (id : PropertyId) : Prop :=
  ∃ p x, m.Linked id p x ∧ p.name = key ∧ ∀ sub ∈ p.subsumed, ∃ q y, m.Linked sub q y

/-- An entity that is as its rule says so far: it has an action if any properties, and lists its
    properties as they are. -/
structure Model.Orderly (m : Model) (e : Entity) : Prop where
  action : ∀ id, e.action = some id → ∃ x, m.actions[id.index]? = some x
  properties : ∀ key id, (key, id) ∈ e.properties → m.Lists key id

namespace Site

variable {m : Model} {e : Entity} {s : Site}

/-- What is around an action of an entity is one of its actions too. -/
theorem Hosts.around (h : s.Hosts m e) {i : Nat} {x : Action} {parent : ActionId}
    (hi : s.action ≤ i ∧ i < s.fin) (hx : m.actions[i]? = some x)
    (hparent : x.parent = some parent) :
    i < parent.index ∧ parent.index < s.fin ∧ ∃ y, m.actions[parent.index]? = some y := by
  rcases h.stands.parent hi.1 hi.2 hx with ⟨_, hnone⟩ | ⟨j, hj, hij, hlt⟩
  · rw [hparent] at hnone
    contradiction
  · rw [hparent] at hj
    obtain rfl := Option.some.inj hj
    have hsize : j < m.actions.size := Nat.lt_of_lt_of_le hlt h.stands.size_le
    exact ⟨hij, hlt, _, Array.getElem?_eq_getElem hsize⟩

/-- A leaf and its property are linked. -/
theorem Hosts.linked (h : s.Hosts m e) {k : Nat} (hk : k < s.plan.width) :
    ∃ p x, m.Linked ⟨s.property + k⟩ p x := by
  obtain ⟨f, i, x, _, hfills⟩ := h.exists_slot hk
  obtain ⟨name, hproperty⟩ := hfills.property
  obtain ⟨line, hline, _⟩ := hfills.line
  exact ⟨_, x, hproperty, hfills.action, hfills.link, ⟨line, hline⟩,
    fun parent hparent => (h.around hfills.within hfills.action hparent).2.2⟩

/-- The way up from a leaf of a choice goes on with the way up from the choice. -/
theorem Hosts.lineage_branch (h : s.Hosts m e) {choice : ActionId} {proxy : PropertyId}
    (hproxy : s.proxy = some (choice, proxy)) {k : Nat} {f : Plan.Filler} {i : Nat} {x : Action}
    (hk : k < s.plan.width)
    (hfills : Plan.Fills m e.name s.action s.fin ⟨s.property + k⟩ f i x) :
    x.parent = some choice ∧ m.lineage ⟨i⟩ = (m.lineage choice).map ((⟨i⟩, x) :: ·) := by
  obtain ⟨p, y, hp, hy, hparent, _⟩ := (h.chooses choice proxy hproxy).branches k hk
  obtain ⟨name, hproperty⟩ := hfills.property
  obtain rfl := Option.some.inj (hp.symm.trans hproperty)
  obtain rfl := Option.some.inj (hy.symm.trans hfills.action)
  refine ⟨hparent, Model.lineage_parent hy hparent ?_⟩
  exact (h.around hfills.within hy hparent).1

/-- A proxy and its choice are linked. -/
theorem Hosts.linked_proxy (h : s.Hosts m e) {choice : ActionId} {proxy : PropertyId}
    (hproxy : s.proxy = some (choice, proxy)) :
    ∃ y, m.Linked proxy (s.proxyOf e.name choice) y ∧ y.isChoice = true := by
  have hchooses := h.chooses choice proxy hproxy
  obtain ⟨y, hy, hchoice, hlink⟩ := hchooses.action
  obtain ⟨f, i, x, _, hfills⟩ := h.exists_slot hchooses.nonempty
  obtain ⟨line, hline, _⟩ := hfills.line
  have hbranch := (h.lineage_branch hproxy hchooses.nonempty hfills).2
  have hchoiceLine : ∃ line, m.lineage choice = .ok line := by
    cases hup : m.lineage choice with
    | ok line => exact ⟨line, rfl⟩
    | error fault =>
      rw [hline, hup] at hbranch
      contradiction
  exact ⟨y, ⟨hchooses.property, hy, hlink, hchoiceLine,
    fun parent hparent => (h.around hchooses.within hy hparent).2.2⟩, hchoice⟩

/-- The current properties of an entity are listed as they are. -/
theorem Hosts.lists (h : s.Hosts m e) {key : Name} {id : PropertyId}
    (hmem : (key, id) ∈ e.properties) : m.Lists key id := by
  rw [h.current] at hmem
  cases hproxy : s.proxy with
  | none =>
    rw [current_plain hproxy] at hmem
    obtain ⟨k, hk, hname, rfl⟩ := mem_zip_names hmem
    obtain ⟨f, i, x, _, hfills⟩ := h.exists_slot hk
    obtain ⟨p, y, hlinked⟩ := h.linked hk
    obtain ⟨name, hproperty⟩ := hfills.property
    obtain ⟨p', hp', rfl⟩ := h.named k key hname
    obtain rfl := Option.some.inj (hlinked.property.symm.trans hp')
    refine ⟨p, y, hlinked, rfl, fun sub hsub => ?_⟩
    rw [Option.some.inj (hlinked.property.symm.trans hproperty)] at hsub
    exact absurd hsub List.not_mem_nil
  | some proxy =>
    obtain ⟨choice, proxy⟩ := proxy
    rw [current_proxy hproxy, List.mem_singleton, Prod.mk.injEq] at hmem
    obtain ⟨rfl, rfl⟩ := hmem
    obtain ⟨y, hlinked, _⟩ := h.linked_proxy hproxy
    refine ⟨_, y, hlinked, rfl, fun sub hsub => ?_⟩
    obtain ⟨k, hk, rfl⟩ := mem_idsFrom.1 (show sub ∈ s.ids from hsub)
    exact h.linked hk

/-- An entity that is as its rule says is orderly. -/
theorem Hosts.orderly (h : s.Hosts m e) : m.Orderly e where
  action := by
    intro id hid
    rw [h.action] at hid
    obtain rfl := Option.some.inj hid
    have hpos := s.plan.size_pos
    have hsize := h.stands.size_le
    have hlt : s.action + s.plan.size - 1 < m.actions.size := by omega
    exact ⟨_, Array.getElem?_eq_getElem hlt⟩
  properties := fun _ _ => h.lists

end Site

end Ebnf
