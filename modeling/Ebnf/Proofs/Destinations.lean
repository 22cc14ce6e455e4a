import Ebnf.Proofs.Ownership
import Ebnf.Proofs.Simulation

/-!
# Where a value ends up

In a model that was built, an action that fills a property belongs to one entity, and the value it
reads ends up in one of the current properties of that entity: in its own, or in the proxy that took
it over. No current property goes without a leaf that fills it.

* `Model.Current`: a property that an entity lists;
* `Site.Hosts.assigned`, `Site.Hosts.exists_leaf`: both directions, for one entity;
* `one_destination`: for a model that was built.
-/

namespace Ebnf

open Build (mem_idsFrom)

/-- An entity lists the property. -/
def Model.Current (m : Model) (id : PropertyId) : Prop :=
  ∃ e ∈ m.entities, id ∈ e.properties.ids

/-! ## 1. One entity -/

namespace Site

variable {m : Model} {e : Entity} {s : Site}

/-- The properties that an entity lists were made for it. -/
theorem Hosts.entity_of_mem (h : s.Hosts m e) {id : PropertyId} (hid : id ∈ e.properties.ids) :
    ∃ p, m.properties[id.index]? = some p ∧ p.entity = e.name := by
  rw [h.current] at hid
  cases hproxy : s.proxy with
  | none =>
    rw [ids_current_plain hproxy] at hid
    obtain ⟨k, hk, rfl⟩ := mem_idsFrom.1 hid
    obtain ⟨p, hp, hentity, _⟩ := h.property_leaf hk
    exact ⟨p, hp, hentity⟩
  | some entry =>
    obtain ⟨choice, proxy⟩ := entry
    rw [ids_current_proxy hproxy] at hid
    obtain rfl := List.mem_singleton.1 hid
    exact ⟨_, (h.chooses _ _ hproxy).property, rfl⟩

/-- Every listed property is where the value of a leaf ends up. -/
theorem Hosts.exists_leaf (h : s.Hosts m e) (hnodup : m.names.Nodup) (he : e ∈ m.entities)
    {q : PropertyId} (hq : q ∈ e.properties.ids) : ∃ id x, m.Owns e id ∧
      m.actions[id.index]? = some x ∧ x.isLeaf = true ∧ m.assignmentTarget id = .ok (some q) := by
  have hleaf : ∃ k < s.plan.width, s.target k = q := by
    rw [h.current] at hq
    unfold target
    cases hproxy : s.proxy with
    | none =>
      rw [ids_current_plain hproxy] at hq
      obtain ⟨k, hk, rfl⟩ := mem_idsFrom.1 hq
      exact ⟨k, hk, rfl⟩
    | some entry =>
      rw [ids_current_proxy hproxy] at hq
      obtain rfl := List.mem_singleton.1 hq
      exact ⟨0, (h.chooses _ _ hproxy).nonempty, rfl⟩
  obtain ⟨k, hk, rfl⟩ := hleaf
  obtain ⟨f, i, x, _, hfills⟩ := h.exists_slot hk
  refine ⟨⟨i⟩, x, h.owns_iff.2 hfills.within, hfills.action, ?_, h.assigns hnodup he hk hfills⟩
  rw [Action.isLeaf, hfills.kind]
  cases f.symbol <;> rfl

/-- What an action of an entity fills ends up in a listed property: in the same if that is listed,
    and else in a proxy that stands for it. -/
theorem Hosts.assigned (h : s.Hosts m e) (hnodup : m.names.Nodup) (he : e ∈ m.entities)
    {id : ActionId} {x : Action} {p : PropertyId} (howns : m.Owns e id)
    (hx : m.actions[id.index]? = some x) (hp : x.property = some p) :
    ∃ q, m.assignmentTarget id = .ok (some q) ∧ q ∈ e.properties.ids ∧
      (p ∈ e.properties.ids → q = p) ∧ (p ∉ e.properties.ids → ∃ k < s.plan.width,
        p = ⟨s.property + k⟩ ∧ ∃ choice, s.proxy = some (choice, q)) := by
  rw [h.current]
  rcases h.linked_action howns hx hp with hproxy | ⟨k, hk, rfl, f, y, hfills⟩
  · rw [ids_current_proxy hproxy]
    exact ⟨p, h.assigns_choice hnodup he hproxy, List.mem_singleton_self p, fun _ => rfl,
      fun hno => absurd (List.mem_singleton_self p) hno⟩
  · refine ⟨s.target k, h.assigns hnodup he hk hfills, ?_⟩
    unfold target
    cases hproxy : s.proxy with
    | none =>
      have hmem : (⟨s.property + k⟩ : PropertyId) ∈ s.ids := mem_idsFrom.2 ⟨k, hk, rfl⟩
      rw [ids_current_plain hproxy]
      exact ⟨hmem, fun _ => rfl, fun hno => absurd hmem hno⟩
    | some entry =>
      rw [ids_current_proxy hproxy]
      exact ⟨List.mem_singleton_self _, fun hmem => (List.mem_singleton.1 hmem).symm,
        fun _ => ⟨k, hk, rfl, entry.1, rfl⟩⟩

end Site

/-! ## 2. All entities -/

namespace Model

variable {m : Model} {site : Name → Site} {e o : Entity}

/-- No action belongs to two entities. -/
theorem Sited.owner_unique [Unicode.Xid] (h : m.Sited site m.names) (hnodup : m.names.Nodup)
    (he : e ∈ m.entities) (ho : o ∈ m.entities) {id : ActionId} (hid : m.Owns e id)
    (hid' : m.Owns o id) : o = e := by
  by_contra hne
  have hname : o.name ≠ e.name := fun heq => hne (List.inj_on_of_nodup_map hnodup ho he heq)
  have hwithin := (h.hosts_of_mem he).owns_iff.1 hid
  have hwithin' := (h.hosts_of_mem ho).owns_iff.1 hid'
  rcases h.apart _ (List.mem_map_of_mem ho) _ (List.mem_map_of_mem he) hname with h | h <;> omega

/-- A property that was made for an entity is listed by no other. -/
theorem Sited.lister_unique [Unicode.Xid] (h : m.Sited site m.names) (hnodup : m.names.Nodup)
    (he : e ∈ m.entities) (ho : o ∈ m.entities) {id : PropertyId} {p : Property}
    (hp : m.properties[id.index]? = some p) (hentity : p.entity = e.name)
    (hid : id ∈ o.properties.ids) : o = e := by
  obtain ⟨p', hp', hentity'⟩ := (h.hosts_of_mem ho).entity_of_mem hid
  obtain rfl := Option.some.inj (hp.symm.trans hp')
  exact List.inj_on_of_nodup_map hnodup ho he (hentity'.symm.trans hentity)

/-- Only the proxy of its entity stands for a property that was made for a leaf. -/
theorem Sited.proxy_unique [Unicode.Xid] (h : m.Sited site m.names)
    (hfilled : m.Filled site m.names) (he : e ∈ m.entities) {k : Nat}
    (hk : k < (site e.name).plan.width) {j : Nat} {other : Property}
    (hother : m.properties[j]? = some other)
    (hmem : ⟨(site e.name).property + k⟩ ∈ other.subsumed) :
    ∃ choice, (site e.name).proxy = some (choice, ⟨j⟩) := by
  have hlt : j < m.properties.size := (Array.getElem?_eq_some_iff.1 hother).1
  obtain ⟨n, hn, hplace⟩ := hfilled.properties j hlt
  obtain ⟨o, ho, rfl⟩ := List.mem_map.1 hn
  have hosts := h.hosts_of_mem ho
  rcases hplace with ⟨i, hi, rfl⟩ | ⟨choice, hproxy⟩
  · obtain ⟨p, hp, _, hsubsumed⟩ := hosts.property_leaf hi
    obtain rfl := Option.some.inj (hp.symm.trans hother)
    rw [hsubsumed] at hmem
    exact absurd hmem List.not_mem_nil
  · obtain rfl := Option.some.inj ((hosts.chooses _ _ hproxy).property.symm.trans hother)
    obtain ⟨i, hi, heq⟩ := mem_idsFrom.1 (show _ ∈ (site o.name).ids from hmem)
    obtain ⟨p, hp, hentity, _⟩ := (h.hosts_of_mem he).property_leaf hk
    obtain ⟨p', hp', hentity', _⟩ := hosts.property_leaf hi
    have hindex : (site e.name).property + k = (site o.name).property + i :=
      congrArg PropertyId.index heq
    rw [hindex] at hp
    obtain rfl := Option.some.inj (hp.symm.trans hp')
    rw [← hentity, hentity']
    exact ⟨choice, hproxy⟩

end Model

/-- In a model that was built, every action that fills a property belongs to one entity, and its
    value ends up in one current property of it: in the same property if that is current, and else
    in the only proxy that stands for it. Every current property is where the value of a leaf of its
    entity ends up. -/
theorem one_destination [Unicode.Xid] {g : Grammar} {m : Model} (h : Model.ofGrammar g = .ok m) :
    (∀ (id : ActionId) (x : Action) (p : PropertyId),
      m.actions[id.index]? = some x → x.property = some p →
      ∃ e ∈ m.entities, m.Owns e id ∧ (∀ o ∈ m.entities, m.Owns o id → o = e) ∧
        ∃ q, m.assignmentTarget id = .ok (some q) ∧ q ∈ e.properties.ids ∧
          (m.Current p → q = p) ∧
          (¬ m.Current p → ∃ proxy, m.properties[q.index]? = some proxy ∧ p ∈ proxy.subsumed ∧
            ∀ (other : PropertyId) (r : Property), m.properties[other.index]? = some r →
              p ∈ r.subsumed → other = q)) ∧
    ∀ e ∈ m.entities, ∀ q ∈ e.properties.ids, ∃ id x, m.Owns e id ∧
      m.actions[id.index]? = some x ∧ x.isLeaf = true ∧ m.assignmentTarget id = .ok (some q) := by
  obtain ⟨hnodup, site, hsited, hfilled⟩ := Build.exists_filled h
  refine ⟨fun id x p hx hp => ?_,
    fun e he q hq => (hsited.hosts_of_mem he).exists_leaf hnodup he hq⟩
  obtain ⟨n, hn, hwithin⟩ := hfilled.actions id.index (Array.getElem?_eq_some_iff.1 hx).1
  obtain ⟨e, he, rfl⟩ := List.mem_map.1 hn
  have hosts := hsited.hosts_of_mem he
  have howns := hosts.owns_iff.2 hwithin
  obtain ⟨q, hq, hmem, hsame, htaken⟩ := hosts.assigned hnodup he howns hx hp
  refine ⟨e, he, howns, fun o ho => hsited.owner_unique hnodup he ho howns, q, hq, hmem,
    fun hcurrent => ?_, fun hno => ?_⟩
  · by_cases hp' : p ∈ e.properties.ids
    · exact hsame hp'
    · obtain ⟨k, hk, rfl, _⟩ := htaken hp'
      obtain ⟨o, ho, hlisted⟩ := hcurrent
      obtain ⟨r, hr, hentity, _⟩ := hosts.property_leaf hk
      obtain rfl := hsited.lister_unique hnodup he ho hr hentity hlisted
      exact absurd hlisted hp'
  · obtain ⟨k, hk, rfl, choice, hproxy⟩ := htaken fun hp' => hno ⟨e, he, hp'⟩
    refine ⟨_, (hosts.chooses _ _ hproxy).property, mem_idsFrom.2 ⟨k, hk, rfl⟩,
      fun other r hr hsub => ?_⟩
    obtain ⟨choice', hproxy'⟩ := hsited.proxy_unique hfilled he hk hr hsub
    exact (Prod.mk.inj (Option.some.inj (hproxy'.symm.trans hproxy))).2

/-- What is read for the first branch of the choice ends up in the property of both, which is no
    property of that branch's own. -/
theorem one_destination_sample :
    Model.ofGrammar Sample.grammar = .ok Sample.model ∧
    Sample.model.assignmentTarget ⟨0⟩ = .ok (some ⟨3⟩) ∧
    (∃ o ∈ Sample.model.entities, Sample.model.Owns o ⟨0⟩) ∧
    ∃ id x, Sample.model.Owns Sample.model.entities[0] id ∧
      Sample.model.actions[id.index]? = some x ∧ x.isLeaf = true ∧
      Sample.model.assignmentTarget id = .ok (some ⟨3⟩) := by
  obtain ⟨hforth, hback⟩ := one_destination Sample.ofGrammar_eq
  obtain ⟨e, he, howns, _, q, hq, _, _, htaken⟩ := hforth ⟨0⟩ _ ⟨0⟩ rfl rfl
  have hno : ¬ Sample.model.Current ⟨0⟩ := by
    unfold Model.Current
    decide
  obtain ⟨_, _, _, honly⟩ := htaken hno
  obtain rfl := honly ⟨3⟩ _ rfl (List.mem_cons_self ..)
  exact ⟨Sample.ofGrammar_eq, hq, ⟨e, he, howns⟩,
    hback Sample.model.entities[0] (by decide) ⟨3⟩ (by decide)⟩

end Ebnf
