import Ebnf.Proofs.Stages

/-!
# The stage of the proxies

An entity that is nothing but a choice between others gets one property for all of them. Its actions
stay where they are, and so does everything that belongs to other entities, since the choice is one
of its own actions.

* `Model.PureChoice`, `Build.IsChoice`: an entity is nothing but a choice, told from the sources of
  its properties alone or from all that is known of them;
* `Build.Proxied`: what becomes of the model for such an entity;
* `ensures_alternatives`: the stage as a whole.
-/

namespace Ebnf

open Build (alternativeName distinctNames idsFrom getElem?_idsFrom)

/-- A choice has branches. -/
theorem Action.isLeaf_of_isChoice {y : Action} (h : y.isChoice = true) : y.isLeaf = false := by
  rw [isChoice] at h
  rw [isLeaf]
  split at h
  · next hkind => rw [hkind]
  · contradiction

/-- A choice reads no entity. -/
theorem Action.target?_of_isChoice {y : Action} (h : y.isChoice = true) : y.target? = none := by
  rw [isChoice] at h
  rw [target?]
  split at h
  · next hkind => rw [hkind]
  · contradiction

/-! ## 1. Choices between entities -/

/-- A property is there, and so are the action that fills it and the one around that. -/
structure Model.Sourced (m : Model) (id : PropertyId) (p : Property) (x : Action) : Prop where
  property : m.properties[id.index]? = some p
  source : m.actions[p.source.index]? = some x
  around : ∀ parent, x.parent = some parent → ∃ y, m.actions[parent.index]? = some y

/-- An entity is nothing but a choice between others: it has properties, and each of them is filled
    by a branch of the choice that reads an entity. -/
structure Model.PureChoice (m : Model) (e : Entity) (choice : ActionId) : Prop where
  nonempty : e.properties ≠ []
  action : ∃ y, m.actions[choice.index]? = some y ∧ y.isChoice = true
  branches : ∀ id ∈ e.properties.ids, ∃ p x, m.properties[id.index]? = some p ∧
    m.actions[p.source.index]? = some x ∧ x.parent = some choice ∧ x.target?.isSome = true

/-- Linked properties have their source. -/
theorem Model.Linked.sourced {m : Model} {id : PropertyId} {p : Property} {x : Action}
    (h : m.Linked id p x) : m.Sourced id p x :=
  ⟨h.property, h.source, h.around⟩

namespace Build

variable {m m' : Model}

/-- What it means that an orderly entity is nothing but a choice between others. -/
structure IsChoice (m : Model) (e : Entity) (choice : ActionId) : Prop where
  nonempty : e.properties ≠ []
  action : ∃ y, m.actions[choice.index]? = some y ∧ y.isChoice = true
  branches : ∀ key id, (key, id) ∈ e.properties →
    ∃ p x, m.Linked id p x ∧ x.parent = some choice ∧ x.target?.isSome = true

/-- What the sources of some properties are like can be told, and holds of all answers where it
    holds of all sources. -/
theorem mapM_sourced {β : Type} (f : Action → β) {ids : List PropertyId}
    (h : ∀ id ∈ ids, ∃ p x, m.Sourced id p x) :
    ∃ answers, (ids.mapM fun id => do return f (← m.action (← m.property id).source)) =
        (.ok answers : Checked (List β)) ∧ answers.length = ids.length ∧
      ∀ Q : β → Prop, (∀ answer ∈ answers, Q answer) ↔
        ∀ id ∈ ids, ∀ p x, m.Sourced id p x → Q (f x) := by
  obtain ⟨answers, hanswers, hall⟩ := Checked.mapM_ok ids
    (f := fun id => do return f (← m.action (← m.property id).source))
    (P := fun id answer => ∃ p x, m.Sourced id p x ∧ f x = answer) fun id hid => by
      obtain ⟨p, x, hsourced⟩ := h id hid
      refine ⟨f x, ?_, p, x, hsourced, rfl⟩
      simp only [bind, Except.bind, Model.property_eq_ok_iff.2 hsourced.property,
        Model.action_eq_ok_iff.2 hsourced.source, pure, Except.pure]
  refine ⟨answers, hanswers, hall.length_eq.symm, fun Q => ⟨fun hQ id hid p x hx => ?_,
    fun hQ answer hanswer => ?_⟩⟩
  · obtain ⟨answer, hanswer, p', x', hx', rfl⟩ := exists_answer hall hid
    obtain rfl := Option.some.inj (hx.property.symm.trans hx'.property)
    obtain rfl := Option.some.inj (hx.source.symm.trans hx'.source)
    exact hQ _ hanswer
  · obtain ⟨id, hid, p, x, hx, rfl⟩ := exists_answer hall.flip hanswer
    exact hQ id hid p x hx

/-- Whether all properties of an entity branch off the same choice can be told. -/
theorem sharedChoice_ok {ids : List PropertyId} (h : ∀ id ∈ ids, ∃ p x, m.Sourced id p x) :
    ∃ choice?, sharedChoice? m ids = .ok choice? ∧ ∀ choice, choice? = some choice ↔
      ids ≠ [] ∧ (∃ y, m.actions[choice.index]? = some y ∧ y.isChoice = true) ∧
        ∀ id ∈ ids, ∀ p x, m.Sourced id p x → x.parent = some choice := by
  obtain ⟨parents, hparents, hlength, hall⟩ := mapM_sourced Action.parent h
  have hnil : ids = [] ↔ parents = [] := by
    rw [← List.length_eq_zero_iff, ← List.length_eq_zero_iff, hlength]
  have haround : ∀ parent? ∈ parents, ∀ parent, parent? = some parent →
      ∃ y, m.actions[parent.index]? = some y :=
    (hall fun parent? => ∀ parent, parent? = some parent → ∃ y, m.actions[parent.index]? = some y).2
      fun _ _ _ _ hx => hx.around
  have hshares : ∀ choice, (∀ id ∈ ids, ∀ p x, m.Sourced id p x → x.parent = some choice) ↔
      ∀ parent? ∈ parents, parent? = some choice :=
    fun choice => (hall fun parent? => parent? = some choice).symm
  simp only [Ne, hnil, hshares]
  rw [sharedChoice?, hparents]
  match parents, haround with
  | [], _ => exact ⟨none, rfl, by simp⟩
  | none :: rest, _ => exact ⟨none, rfl, by simp⟩
  | some parent :: rest, haround =>
    obtain ⟨y, hy⟩ := haround _ List.mem_cons_self parent rfl
    simp only [bind, Except.bind, Model.action_eq_ok_iff.2 hy]
    by_cases hshared : (rest.all (· = some parent) && y.isChoice) = true
    · rw [if_pos hshared]
      obtain ⟨hsame, hchoice⟩ := Bool.and_eq_true_iff.1 hshared
      refine ⟨some parent, rfl, fun choice => ⟨?_, fun ⟨_, _, hbranch⟩ => ?_⟩⟩
      · rintro ⟨⟩
        refine ⟨List.cons_ne_nil _ _, ⟨y, hy, hchoice⟩, fun parent? hmem => ?_⟩
        rcases List.mem_cons.1 hmem with rfl | hmem
        · rfl
        · simpa using List.all_eq_true.1 hsame parent? hmem
      · exact hbranch _ List.mem_cons_self
    · rw [if_neg hshared]
      refine ⟨none, rfl, fun choice => ⟨fun hnone => absurd hnone (by simp), ?_⟩⟩
      rintro ⟨_, ⟨y', hy', hchoice⟩, hbranch⟩
      obtain rfl := Option.some.inj (hbranch _ List.mem_cons_self)
      obtain rfl := Option.some.inj (hy.symm.trans hy')
      refine absurd (Bool.and_eq_true_iff.2 ⟨List.all_eq_true.2 fun parent? hmem => ?_, hchoice⟩)
        hshared
      exact decide_eq_true (hbranch parent? (List.mem_cons_of_mem _ hmem))

/-- Whether an entity is nothing but a choice can be told. -/
theorem entityChoice_ok {e : Entity} (h : ∀ id ∈ e.properties.ids, ∃ p x, m.Sourced id p x) :
    ∃ choice?, entityChoice? m e = .ok choice? ∧
      ∀ choice, choice? = some choice ↔ m.PureChoice e choice := by
  have hnil : e.properties.ids = [] ↔ e.properties = [] := List.map_eq_nil_iff
  obtain ⟨shared, hshared, hchoice⟩ := sharedChoice_ok h
  obtain ⟨targets, htargets, _, hall⟩ := mapM_sourced Action.target? h
  have hbranches : ∀ choice, m.PureChoice e choice ↔
      shared = some choice ∧ targets.all Option.isSome = true := by
    intro choice
    rw [hchoice, List.all_eq_true, hall fun target => target.isSome = true, Ne, hnil]
    constructor
    · intro hpure
      have hbranch : ∀ id ∈ e.properties.ids, ∀ p x, m.Sourced id p x →
          x.parent = some choice ∧ x.target?.isSome = true := by
        intro id hid p x hx
        obtain ⟨p', x', hp', hx', hbranch⟩ := hpure.branches id hid
        obtain rfl := Option.some.inj (hp'.symm.trans hx.property)
        obtain rfl := Option.some.inj (hx'.symm.trans hx.source)
        exact hbranch
      exact ⟨⟨hpure.nonempty, hpure.action, fun id hid p x hx => (hbranch id hid p x hx).1⟩,
        fun id hid p x hx => (hbranch id hid p x hx).2⟩
    · rintro ⟨⟨hnonempty, haction, hparent⟩, htarget⟩
      refine ⟨hnonempty, haction, fun id hid => ?_⟩
      obtain ⟨p, x, hx⟩ := h id hid
      exact ⟨p, x, hx.property, hx.source, hparent id hid p x hx, htarget id hid p x hx⟩
  simp only [hbranches]
  rw [entityChoice?, hshared]
  cases shared with
  | none => exact ⟨none, rfl, by simp⟩
  | some choice =>
    have htargets' : e.properties.ids.mapM m.sourceTarget? = .ok targets := htargets
    simp only [bind, Except.bind, htargets']
    cases hsome : targets.all Option.isSome with
    | true => exact ⟨some choice, by simp [pure, Except.pure], by simp⟩
    | false => exact ⟨none, by simp [pure, Except.pure], by simp⟩

/-- An entity that is nothing but a choice got one property for all. -/
structure Proxied (m m' : Model) (e : Entity) (choice : ActionId) : Prop where
  actions : m'.actions = m.actions.modify choice.index fun a =>
    { a with property := some ⟨m.properties.size⟩ }
  properties : m'.properties = m.properties.push
    { name := alternativeName, entity := e.name, source := choice,
      kind := .proxy e.properties.ids }
  root : m'.root = m.root
  entities : m'.entities = (m.modifyEntity e.name fun _ =>
    { e with properties := [(alternativeName, ⟨m.properties.size⟩)] }).entities

/-- Only an entity that is nothing but a choice is changed, and needs an id. -/
theorem ensures_collapse_of_sourced {d : Draft}
    (h : ∀ e ∈ d.model.entities, ∀ id ∈ e.properties.ids, ∃ p x, d.model.Sourced id p x)
    (name : Name) :
    Ensures (collapse name) d
      (fun stop => stop = .fault (.tooManyEntries d.model.properties.size) ∧
        idCount ≤ d.model.properties.size ∧
        ∃ e, d.model.entity? name = some e ∧ ∃ choice, d.model.PureChoice e choice)
      fun _ d' =>
        (d'.model = d.model ∧
          ∀ e, d.model.entity? name = some e → ∀ choice, ¬ d.model.PureChoice e choice) ∨
        ∃ e, d.model.entity? name = some e ∧ ∃ choice, d.model.PureChoice e choice ∧
          Proxied d.model d'.model e choice := by
  rw [collapse, ensures_bind, ensures_model]
  cases hfound : d.model.entity? name with
  | none => exact .inl ⟨rfl, fun e he => absurd he (by simp)⟩
  | some e =>
    obtain ⟨choice?, hok, hchoice⟩ := entityChoice_ok (h e (Model.mem_of_entity?_eq_some hfound))
    show Ensures (model >>= _) d _ _
    rw [ensures_bind, ensures_model, ensures_bind, ensures_check_ok hok]
    cases choice? with
    | none =>
      refine .inl ⟨rfl, fun o ho choice his => ?_⟩
      obtain rfl := Option.some.inj ho
      exact absurd ((hchoice choice).2 his) (by simp)
    | some choice =>
      have his := (hchoice choice).1 rfl
      obtain ⟨y, hy, _⟩ := his.action
      have hlt : choice.index < d.model.actions.size := (Array.getElem?_eq_some_iff.1 hy).1
      show Ensures (tell _ >>= _) d _ _
      rw [ensures_bind, ensures_tell, ensures_bind, ensures_change, Model.addProperty,
        PropertyId.ofIndex]
      by_cases hsize : d.model.properties.size < idCount
      · simp only [if_pos hsize, bind, Except.bind, Model.modifyAction, Model.modifyAt, if_pos hlt,
          pure, Except.pure]
        exact .inr ⟨e, rfl, choice, his, rfl, rfl, rfl, rfl⟩
      · simp only [if_neg hsize, bind, Except.bind]
        exact ⟨trivial, Nat.le_of_not_lt hsize, e, rfl, choice, his⟩

/-- An orderly entity is nothing but a choice where its properties show it. -/
theorem isChoice_iff {e : Entity} {choice : ActionId} (h : m.Orderly e) :
    IsChoice m e choice ↔ m.PureChoice e choice := by
  constructor
  · intro his
    refine ⟨his.nonempty, his.action, fun id hid => ?_⟩
    obtain ⟨⟨key, id⟩, hmem, rfl⟩ := List.mem_map.1 hid
    obtain ⟨p, x, hlinked, hbranch⟩ := his.branches key id hmem
    exact ⟨p, x, hlinked.property, hlinked.source, hbranch⟩
  · intro hpure
    refine ⟨hpure.nonempty, hpure.action, fun key id hmem => ?_⟩
    obtain ⟨p, x, hlinked, _⟩ := h.properties key id hmem
    obtain ⟨p', x', hp', hx', hbranch⟩ :=
      hpure.branches id (List.mem_map_of_mem (f := Prod.snd) hmem)
    obtain rfl := Option.some.inj (hp'.symm.trans hlinked.property)
    obtain rfl := Option.some.inj (hx'.symm.trans hlinked.source)
    exact ⟨p', x', hlinked, hbranch⟩

/-- The properties of an orderly entity have their sources. -/
theorem sourced_of_orderly {e : Entity} (h : m.Orderly e) :
    ∀ id ∈ e.properties.ids, ∃ p x, m.Sourced id p x := by
  intro id hid
  obtain ⟨⟨key, id⟩, hmem, rfl⟩ := List.mem_map.1 hid
  obtain ⟨p, x, hlinked, _⟩ := h.properties key id hmem
  exact ⟨p, x, hlinked.sourced⟩

/-- The same where all entities are orderly. -/
theorem ensures_collapse {d : Draft} (h : ∀ e ∈ d.model.entities, d.model.Orderly e) (name : Name) :
    Ensures (collapse name) d
      (fun stop => (stop = .fault (.tooManyEntries d.model.properties.size) ∧
          idCount ≤ d.model.properties.size) ∧
        ∃ e ∈ d.model.entities, ∃ choice, IsChoice d.model e choice)
      fun _ d' =>
        (d'.model = d.model ∧ ∀ e, d.model.entity? name = some e →
          ∀ choice, ¬ IsChoice d.model e choice) ∨
        ∃ e ∈ d.model.entities, e.name = name ∧ ∃ choice, IsChoice d.model e choice ∧
          Proxied d.model d'.model e choice := by
  refine (ensures_collapse_of_sourced (fun e he => sourced_of_orderly (h e he)) name).mono
    (fun stop hstop => ?_) fun _ d' hd' => ?_
  · obtain ⟨rfl, hsize, e, hfound, choice, hpure⟩ := hstop
    have he := Model.mem_of_entity?_eq_some hfound
    exact ⟨⟨rfl, hsize⟩, e, he, choice, (isChoice_iff (h e he)).2 hpure⟩
  · rcases hd' with ⟨hsame, hno⟩ | ⟨e, hfound, choice, hpure, hproxied⟩
    · refine .inl ⟨hsame, fun e hfound choice his => hno e hfound choice ?_⟩
      exact (isChoice_iff (h e (Model.mem_of_entity?_eq_some hfound))).1 his
    · have he := Model.mem_of_entity?_eq_some hfound
      exact .inr ⟨e, he, Model.name_of_entity?_eq_some hfound, choice,
        (isChoice_iff (h e he)).2 hpure, hproxied⟩

section

variable {e : Entity} {choice : ActionId} {s : Site}

/-- An entity that is nothing but a choice has no proxy yet: a proxy is filled by a choice, and no
    choice reads an entity. -/
theorem IsChoice.proxy_eq_none (h : IsChoice m e choice) (hosts : s.Hosts m e) :
    s.proxy = none := by
  cases hproxy : s.proxy with
  | none => rfl
  | some entry =>
    obtain ⟨choice', proxy⟩ := entry
    obtain ⟨y, hlinked, hchoice⟩ := hosts.linked_proxy hproxy
    have hmem : (alternativeName, proxy) ∈ e.properties := by
      rw [hosts.current, Site.current_proxy hproxy]
      exact List.mem_singleton_self _
    obtain ⟨p, x, hlinked', _, htarget⟩ := h.branches _ _ hmem
    obtain rfl := Option.some.inj (hlinked.property.symm.trans hlinked'.property)
    obtain rfl := Option.some.inj (hlinked.source.symm.trans hlinked'.source)
    rw [Action.target?_of_isChoice hchoice] at htarget
    contradiction

/-- Its leaves are branches of the choice. -/
theorem IsChoice.branch (h : IsChoice m e choice) (hosts : s.Hosts m e) {k : Nat}
    (hk : k < s.plan.width) : ∃ p x, m.Linked ⟨s.property + k⟩ p x ∧
      x.parent = some choice ∧ x.target?.isSome = true := by
  have hname : k < s.names.length := by rwa [Site.length_names]
  have hid : k < s.ids.length := by rwa [Site.length_ids]
  refine h.branches s.names[k] _ ?_
  rw [hosts.current, Site.current_plain (h.proxy_eq_none hosts)]
  refine List.mem_of_getElem? (i := k) (List.getElem?_zip_eq_some.2 ⟨?_, ?_⟩)
  · exact List.getElem?_eq_getElem hname
  · exact getElem?_idsFrom hk

theorem IsChoice.width_pos (h : IsChoice m e choice) (hosts : s.Hosts m e) :
    0 < s.plan.width := by
  refine Nat.pos_of_ne_zero fun hzero => h.nonempty ?_
  rw [hosts.current, Site.current_plain (h.proxy_eq_none hosts)]
  have hnames : s.names = [] := List.length_eq_zero_iff.1 (by rw [Site.length_names, hzero])
  rw [hnames]
  rfl

/-- The choice is one of the actions of the entity. -/
theorem IsChoice.within (h : IsChoice m e choice) (hosts : s.Hosts m e) :
    s.action ≤ choice.index ∧ choice.index < s.fin := by
  obtain ⟨p, x, hlinked, hparent, _⟩ := h.branch hosts (h.width_pos hosts)
  obtain ⟨f, i, y, _, hfills⟩ := hosts.exists_slot (h.width_pos hosts)
  obtain ⟨name, hproperty⟩ := hfills.property
  obtain rfl := Option.some.inj (hlinked.property.symm.trans hproperty)
  obtain ⟨hlt, hfin, _⟩ := hosts.around hfills.within hlinked.source hparent
  exact ⟨Nat.le_trans hfills.within.1 (Nat.le_of_lt hlt), hfin⟩

end

/-! ## 2. One property for all -/

namespace Proxied

variable {e : Entity} {choice : ActionId}

theorem property_old (h : Proxied m m' e choice) {k : Nat} {p : Property}
    (hp : m.properties[k]? = some p) : m'.properties[k]? = some p := by
  have hk : k < m.properties.size := (Array.getElem?_eq_some_iff.1 hp).1
  rw [h.properties, Array.getElem?_push_lt hk]
  rw [Array.getElem?_eq_getElem hk] at hp
  exact hp

theorem action_of_ne (h : Proxied m m' e choice) {i : Nat} (hi : i ≠ choice.index) :
    m'.actions[i]? = m.actions[i]? := by
  rw [h.actions, Array.getElem?_modify, if_neg hi.symm]

theorem action_choice (h : Proxied m m' e choice) {y : Action}
    (hy : m.actions[choice.index]? = some y) :
    m'.actions[choice.index]? = some { y with property := some ⟨m.properties.size⟩ } := by
  rw [h.actions, Array.getElem?_modify, if_pos rfl, hy]
  rfl

/-- An action of a model in which an entity got a proxy is an action of the model before, but for
    the property that it fills. -/
theorem exists_action (h : Proxied m m' e choice) {i : Nat}
    {x' : Action} (hx' : m'.actions[i]? = some x') :
    ∃ x, m.actions[i]? = some x ∧ x' = { x with property := x'.property } := by
  rw [h.actions, Array.getElem?_modify] at hx'
  split at hx'
  · obtain ⟨x, hx, rfl⟩ := Option.map_eq_some_iff.1 hx'
    exact ⟨x, hx, rfl⟩
  · exact ⟨x', hx', rfl⟩

theorem names_eq (h : Proxied m m' e choice) : m'.names = m.names := by
  rw [Model.names, h.entities]
  exact Model.names_modifyEntity fun _ _ => rfl

theorem sameKin (h : Proxied m m' e choice) (hnodup : m.names.Nodup) (he : e ∈ m.entities) :
    m.SameKin m' := by
  refine ⟨?_, h.root⟩
  rw [h.entities, Model.modifyEntity, List.map_map]
  refine List.map_congr_left fun o ho => ?_
  show Entity.kin (if o.name = e.name then _ else o) = o.kin
  split
  · next hname => rw [List.inj_on_of_nodup_map hnodup ho he hname]; rfl
  · rfl

theorem closed (h : Proxied m m' e choice) (hnames : m'.names = m.names) (hclosed : m.Closed) :
    m'.Closed := by
  intro i x t hx ht
  rw [hnames]
  rw [h.actions, Array.getElem?_modify] at hx
  split at hx
  · cases hy : m.actions[i]? with
    | none => rw [hy] at hx; contradiction
    | some y =>
      rw [hy] at hx
      obtain rfl := Option.some.inj hx
      exact hclosed i y t hy ht
  · exact hclosed i x t hx ht

/-- The sites with the proxy of the entity. -/
def site (_h : Proxied m m' e choice) (site : Name → Site) : Name → Site :=
  Function.update site e.name
    { site e.name with proxy := some (choice, ⟨m.properties.size⟩) }

theorem site_self (h : Proxied m m' e choice) (site : Name → Site) :
    h.site site e.name = { site e.name with proxy := some (choice, ⟨m.properties.size⟩) } :=
  Function.update_self ..

theorem site_of_ne (h : Proxied m m' e choice) {site : Name → Site} {n : Name} (hn : n ≠ e.name) :
    h.site site n = site n :=
  Function.update_of_ne hn ..

/-- The bodies stay where they are. -/
theorem site_place (h : Proxied m m' e choice) (site : Name → Site) (n : Name) :
    (h.site site n).plan = (site n).plan ∧ (h.site site n).action = (site n).action ∧
      (h.site site n).property = (site n).property := by
  by_cases hn : n = e.name
  · subst hn
    rw [h.site_self]
    exact ⟨rfl, rfl, rfl⟩
  · rw [h.site_of_ne hn]
    exact ⟨rfl, rfl, rfl⟩

/-- The actions of the entity stand as before, and the choice fills the proxy. -/
theorem stands (h : Proxied m m' e choice) (his : IsChoice m e choice) {s : Site}
    (hosts : s.Hosts m e) :
    s.plan.Stands m' e.name (Site.link { s with proxy := some (choice, ⟨m.properties.size⟩) })
      s.action s.property none := by
  obtain ⟨y, hy, hchoice⟩ := his.action
  refine hosts.stands.transfer (fun i x _ _ hx hlink => ?_) fun k p _ _ hp =>
    ⟨p.name, h.property_old hp⟩
  by_cases hi : i = choice.index
  · subst hi
    obtain rfl := Option.some.inj (hy.symm.trans hx)
    rw [h.action_choice hx, Action.isLeaf_of_isChoice hchoice]
    simp [Site.link]
  · rw [h.action_of_ne hi, hx]
    cases hleaf : x.isLeaf with
    | true => rfl
    | false =>
      have hnone : x.property = none := by
        rw [hlink hleaf, Site.link, his.proxy_eq_none hosts]
        rfl
      have hne : (⟨i⟩ : ActionId) ≠ choice := fun heq => hi (congrArg ActionId.index heq)
      refine congrArg some ?_
      simp only [Bool.false_eq_true, if_false, Site.link, Option.bind_some, if_neg hne]
      rw [← hnone]

/-- The proxy stands for the properties that the entity had. -/
theorem chooses (h : Proxied m m' e choice) (his : IsChoice m e choice) {s : Site}
    (hosts : s.Hosts m e) :
    Site.Chooses { s with proxy := some (choice, ⟨m.properties.size⟩) } m' e.name choice
      ⟨m.properties.size⟩ where
  property := by
    rw [h.properties, hosts.current, Site.ids_current_plain (his.proxy_eq_none hosts)]
    exact Array.getElem?_push_size
  fresh := by
    have hpos := his.width_pos hosts
    obtain ⟨p, x, hlinked, _⟩ := his.branch hosts (Nat.sub_lt hpos Nat.one_pos)
    have hlt : s.property + (s.plan.width - 1) < m.properties.size :=
      (Array.getElem?_eq_some_iff.1 hlinked.property).1
    show s.property + s.plan.width ≤ m.properties.size
    omega
  nonempty := IsChoice.width_pos his (s := s) hosts
  within := IsChoice.within his (s := s) hosts
  action := by
    obtain ⟨y, hy, hchoice⟩ := his.action
    exact ⟨_, h.action_choice hy, hchoice, rfl⟩
  branches := fun k hk => by
    obtain ⟨p, x, hlinked, hparent, htarget⟩ := his.branch hosts hk
    obtain ⟨y, hy, hchoice⟩ := his.action
    have hne : p.source.index ≠ choice.index := by
      intro heq
      have hx := hlinked.source
      rw [heq] at hx
      obtain rfl := Option.some.inj (hy.symm.trans hx)
      rw [Action.target?_of_isChoice hchoice] at htarget
      contradiction
    exact ⟨p, x, h.property_old hlinked.property, (h.action_of_ne hne).trans hlinked.source,
      hparent, htarget⟩

/-- The entity stands as before, and its properties are replaced by the proxy. -/
theorem hosts (h : Proxied m m' e choice) (his : IsChoice m e choice) {s : Site}
    (hosts : s.Hosts m e) :
    Site.Hosts { s with proxy := some (choice, ⟨m.properties.size⟩) } m'
      { e with properties := [(alternativeName, ⟨m.properties.size⟩)] } where
  stands := h.stands his hosts
  named := fun k name hk => by
    obtain ⟨p, hp, hname⟩ := hosts.named k name hk
    exact ⟨p, h.property_old hp, hname⟩
  action := hosts.action
  current := rfl
  chooses := by
    intro choice' proxy hproxy
    obtain ⟨rfl, rfl⟩ := Prod.mk.inj (Option.some.inj hproxy)
    exact h.chooses his hosts

/-- The other entities stand as before. -/
theorem sited [Unicode.Xid] (h : Proxied m m' e choice) (his : IsChoice m e choice)
    {site : Name → Site} (hsited : m.Sited site m.names) (hnodup : m.names.Nodup)
    (he : e ∈ m.entities) :
    m'.Sited (h.site site) m'.names := by
  have hnames := (h.sameKin hnodup he).names_eq
  have hname := List.mem_map_of_mem (f := Entity.name) he
  have hosts := hsited.hosts e he hname
  refine ⟨fun n hn => hn, fun o ho _ => ?_, fun o ho _ => ?_, fun n hn n' hn' hne => ?_⟩
  · rw [h.entities] at ho
    rcases Model.mem_modifyEntity.1 ho with ⟨o', _, _, rfl⟩ | ⟨ho, hne⟩
    · rw [h.site_self]
      exact h.hosts his hosts
    · rw [h.site_of_ne hne]
      have hmem := List.mem_map_of_mem (f := Entity.name) ho
      refine (hsited.hosts o ho hmem).congr (fun i ha hi => h.action_of_ne ?_)
        fun k p => h.property_old
      rintro rfl
      -- the choice lies in the site of the entity, which is apart from that of the other one
      obtain ⟨hle, hlt⟩ := his.within hosts
      rcases hsited.apart _ hmem _ hname hne with hapart | hapart <;> omega
  · obtain ⟨hplan, _⟩ := h.site_place site o.name
    rw [hplan]
    rw [h.entities] at ho
    rcases Model.mem_modifyEntity.1 ho with ⟨o', _, _, rfl⟩ | ⟨ho, hne⟩
    · exact hsited.plan e he hname
    · exact hsited.plan_of_mem ho
  · rw [hnames] at hn hn'
    obtain ⟨hplan, haction, _⟩ := h.site_place site n
    obtain ⟨hplan', haction', _⟩ := h.site_place site n'
    have hapart := hsited.apart n hn n' hn' hne
    unfold Site.Apart Site.fin at hapart ⊢
    rw [hplan, hplan', haction, haction']
    exact hapart

end Proxied

/-! ## 3. The stage as a whole -/

/-- The stage of the proxies keeps the bodies of the entities where they stand. What a proxy that is
    made keeps, be it of the model or of the sites, holds at the end too, and also where there is no
    id for one. -/
theorem ensures_alternatives_keep [Unicode.Xid] {P : (Name → Site) → Model → Prop} {d : Draft}
    {site : Name → Site} (hnodup : d.model.names.Nodup) (hclosed : d.model.Closed)
    (hsited : d.model.Sited site d.model.names) (hstart : P site d.model)
    (hstep : ∀ site m₁ m₂ e choice, m₁.Sited site m₁.names → e ∈ m₁.entities →
      IsChoice m₁ e choice → ∀ h : Proxied m₁ m₂ e choice, P site m₁ → P (h.site site) m₂) :
    Ensures alternatives d
      (fun stop => ∃ site m e choice, m.Sited site m.names ∧ P site m ∧ e ∈ m.entities ∧
        IsChoice m e choice ∧ idCount ≤ m.properties.size ∧
        stop = .fault (.tooManyEntries m.properties.size))
      fun _ d' => d.model.SameKin d'.model ∧ d'.model.Closed ∧
        ∃ site, d'.model.Sited site d'.model.names ∧ P site d'.model := by
  rw [alternatives, ensures_bind, ensures_model]
  refine ensures_forM_keep (I := fun d' => d.model.SameKin d'.model ∧ d'.model.Closed ∧
    ∃ site, d'.model.Sited site d'.model.names ∧ P site d'.model)
    (fun name _ d₁ ⟨hkin, hclosed₁, site, hsited, hP⟩ => ?_)
    ⟨.refl _, hclosed, site, hsited, hstart⟩
  have hnodup₁ : d₁.model.names.Nodup := hkin.names_eq ▸ hnodup
  have horderly : ∀ e ∈ d₁.model.entities, d₁.model.Orderly e := fun e he =>
    (hsited.hosts_of_mem he).orderly
  refine (ensures_collapse horderly name).mono (fun stop h => ?_) fun _ d₂ h => ?_
  · obtain ⟨⟨rfl, hfull⟩, e, he, choice, his⟩ := h
    exact ⟨site, _, e, choice, hsited, hP, he, his, hfull, rfl⟩
  rcases h with ⟨hsame, _⟩ | ⟨e, he, _, choice, his, hproxied⟩
  · rw [hsame]
    exact ⟨hkin, hclosed₁, site, hsited, hP⟩
  · have hkin₂ := hproxied.sameKin hnodup₁ he
    exact ⟨hkin.trans hkin₂, hproxied.closed hkin₂.names_eq hclosed₁, _,
      hproxied.sited his hsited hnodup₁ he, hstep _ _ _ _ _ hsited he his hproxied hP⟩

/-- The proxies alone. -/
theorem ensures_alternatives [Unicode.Xid] {d : Draft} {site : Name → Site}
    (hnodup : d.model.names.Nodup) (hclosed : d.model.Closed)
    (hsited : d.model.Sited site d.model.names) :
    Ensures alternatives d Shortage fun _ d' =>
      d.model.SameKin d'.model ∧ d'.model.Closed ∧ ∃ site, d'.model.Sited site d'.model.names := by
  refine (ensures_alternatives_keep (P := fun _ _ => True) hnodup hclosed hsited trivial
    fun _ _ _ _ _ _ _ _ _ _ => trivial).mono (fun stop h => ?_) fun _ d' hd' => ?_
  · obtain ⟨_, m, _, _, _, _, _, _, hfull, rfl⟩ := h
    exact ⟨_, hfull, rfl⟩
  obtain ⟨hkin, hclosed', site, hsited', _⟩ := hd'
  exact ⟨hkin, hclosed', site, hsited'⟩

/-- Without a body an entity is orderly. -/
theorem Bodiless.orderly (h : Bodiless m) : ∀ e ∈ m.entities, m.Orderly e := by
  intro e he
  obtain ⟨hproperties, haction⟩ := h.entities e he
  refine ⟨fun id hid => ?_, fun key id hid => ?_⟩
  · rw [haction] at hid
    contradiction
  · rw [hproperties] at hid
    exact absurd hid List.not_mem_nil

/-- Before there are bodies, the stage of the proxies changes nothing. -/
theorem ensures_alternatives_bodiless {d : Draft} {E : BuildStop → Prop} (h : Bodiless d.model) :
    Ensures alternatives d E fun _ d' => d'.model = d.model := by
  rw [alternatives, ensures_bind, ensures_model]
  refine ensures_forM_keep (I := fun d' => d'.model = d.model) (fun name _ d₁ hsame => ?_) rfl
  have h₁ : Bodiless d₁.model := hsame ▸ h
  refine (ensures_collapse h₁.orderly name).mono (fun stop hstop => ?_) fun _ d₂ hd₂ => ?_
  · obtain ⟨_, e, he, choice, his⟩ := hstop
    exact absurd (h₁.entities e he).1 his.nonempty
  · rcases hd₂ with ⟨hd₂, _⟩ | ⟨e, he, _, choice, his, _⟩
    · exact hd₂.trans hsame
    · exact absurd (h₁.entities e he).1 his.nonempty

end Build

end Ebnf
