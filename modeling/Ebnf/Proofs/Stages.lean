import Mathlib.Data.List.Nodup
import Ebnf.Build.Skeleton
import Ebnf.Proofs.Site

/-!
# The stages of the entities and of the bodies

After the first stage there is one entity for each name that is declared, and nothing else. After
the second one every entity has the body that its rule describes, and the bodies stand apart from
each other in the arenas.

* `Model.OfRules`: the entities are those that are declared;
* `Model.Sited`: the bodies of some entities stand apart from each other;
* `ensures_skeleton`, `ensures_bodies`: the two stages.
-/

namespace Ebnf

open Build (alternativeName distinctNames idsFrom renamed length_distinctNames)

/-! ## 1. Entities and rules -/

/-- What a model says of an entity apart from its body. -/
def Entity.kin (e : Entity) : Name × Option Rule × List Name × List Name :=
  (e.name, e.rule, e.supers, e.subs)

namespace Model

variable {m m' : Model} {g : Grammar}

/-- The model has one entity for each name that is declared, made from the first rule of the
    name. -/
structure OfRules (m : Model) (g : Grammar) : Prop where
  nodup : m.names.Nodup
  names : ∀ n, n ∈ m.names ↔ ∃ r, g.rule? n = some r
  rule : ∀ e ∈ m.entities, e.rule = g.rule? e.name
  root : m.root = g.root?.map Rule.name

/-- Every action that reads an entity reads one of the model. -/
def Closed (m : Model) : Prop :=
  ∀ (i : Nat) x t, m.actions[i]? = some x → x.target? = some t → t ∈ m.names

/-- Two models that differ in the bodies of their entities only. -/
structure SameKin (m m' : Model) : Prop where
  kin : m'.entities.map Entity.kin = m.entities.map Entity.kin
  root : m'.root = m.root

theorem SameKin.refl (m : Model) : m.SameKin m :=
  ⟨rfl, rfl⟩

theorem SameKin.trans {m'' : Model} (h : m.SameKin m') (h' : m'.SameKin m'') : m.SameKin m'' :=
  ⟨h'.kin.trans h.kin, h'.root.trans h.root⟩

theorem SameKin.names_eq (h : m.SameKin m') : m'.names = m.names := by
  have hnames := congrArg (List.map Prod.fst) h.kin
  rw [List.map_map, List.map_map] at hnames
  exact hnames

/-- Each entity has its counterpart. -/
theorem SameKin.exists_mem (h : m.SameKin m') {e' : Entity} (he' : e' ∈ m'.entities) :
    ∃ e ∈ m.entities, e.kin = e'.kin := by
  have hmem : e'.kin ∈ m'.entities.map Entity.kin := List.mem_map_of_mem he'
  rw [h.kin] at hmem
  exact List.mem_map.1 hmem

theorem OfRules.of_sameKin (h : m.OfRules g) (hkin : m.SameKin m') : m'.OfRules g where
  nodup := hkin.names_eq ▸ h.nodup
  names := hkin.names_eq ▸ h.names
  rule := by
    intro e' he'
    obtain ⟨e, he, heq⟩ := hkin.exists_mem he'
    have hname : e.name = e'.name := congrArg Prod.fst heq
    have hrule : e.rule = e'.rule := congrArg (fun k => k.2.1) heq
    rw [← hrule, ← hname]
    exact h.rule e he
  root := hkin.root.trans h.root

/-- Every entity has a rule. -/
theorem OfRules.exists_rule (h : m.OfRules g) {e : Entity} (he : e ∈ m.entities) :
    ∃ r, e.rule = some r := by
  rw [h.rule e he]
  exact (h.names e.name).1 (List.mem_map_of_mem he)

section

variable {done : List Rule} {r : Rule}

/-- The rule of a name is the last one only if none before it is of that name. -/
theorem rule?_append (n : Name) : (Grammar.mk (done ++ [r])).rule? n =
    ((Grammar.mk done).rule? n).or (if r.name = n then some r else none) := by
  show List.find? _ (done ++ [r]) = _
  rw [List.find?_append, List.find?_singleton]
  by_cases hn : r.name = n <;> simp [Grammar.rule?, hn]

/-- The first rule of a name stays the one that counts. -/
theorem OfRules.repeated (h : m.OfRules ⟨done⟩) (hmem : r.name ∈ m.names) :
    m.OfRules ⟨done ++ [r]⟩ := by
  have hsame : ∀ n, (Grammar.mk (done ++ [r])).rule? n = (Grammar.mk done).rule? n := by
    intro n
    rw [rule?_append]
    by_cases hn : r.name = n
    · obtain ⟨r', hr'⟩ := (h.names n).1 (hn ▸ hmem)
      rw [hr']
      rfl
    · rw [if_neg hn, Option.or_none]
  have hdone : done ≠ [] := by
    rintro rfl
    obtain ⟨r', hr'⟩ := (h.names _).1 hmem
    exact absurd hr' (by simp [Grammar.rule?])
  refine ⟨h.nodup, fun n => ?_, fun e he => ?_, ?_⟩
  · rw [hsame]
    exact h.names n
  · rw [hsame]
    exact h.rule e he
  · rw [h.root, Grammar.root?, Grammar.root?, List.head?_append_of_ne_nil _ hdone]

/-- A rule of another name gets an entity of its own. -/
theorem OfRules.added (h : m.OfRules ⟨done⟩) (hmem : r.name ∉ m.names) :
    OfRules { m with entities := m.entities ++ [.ofRule r], root := m.root.or (some r.name) }
      ⟨done ++ [r]⟩ := by
  have hnone : (Grammar.mk done).rule? r.name = none := by
    cases hr : (Grammar.mk done).rule? r.name with
    | none => rfl
    | some r' => exact absurd ((h.names _).2 ⟨r', hr⟩) hmem
  have hnames : Model.names { m with
      entities := m.entities ++ [.ofRule r], root := m.root.or (some r.name) } =
      m.names ++ [r.name] := by
    rw [Model.names, List.map_append]
    rfl
  refine ⟨?_, fun n => ?_, fun e he => ?_, ?_⟩
  · rw [hnames, List.nodup_append]
    refine ⟨h.nodup, List.nodup_singleton _, ?_⟩
    rintro a ha b hb rfl
    exact hmem (List.mem_singleton.1 hb ▸ ha)
  · rw [hnames, rule?_append, List.mem_append, List.mem_singleton]
    constructor
    · rintro (hn | rfl)
      · obtain ⟨r', hr'⟩ := (h.names n).1 hn
        exact ⟨r', by rw [hr']; rfl⟩
      · exact ⟨r, by rw [hnone, if_pos rfl]; rfl⟩
    · rintro ⟨r', hr'⟩
      by_cases hn : r.name = n
      · exact .inr hn.symm
      · rw [if_neg hn, Option.or_none] at hr'
        exact .inl ((h.names n).2 ⟨r', hr'⟩)
  · rw [rule?_append]
    rcases List.mem_append.1 he with he | he
    · rw [h.rule e he]
      obtain ⟨r', hr'⟩ := (h.names e.name).1 (List.mem_map_of_mem he)
      rw [hr']
      rfl
    · rw [List.mem_singleton.1 he, show (Entity.ofRule r).name = r.name from rfl, hnone,
        if_pos rfl]
      rfl
  · show m.root.or (some r.name) = _
    rw [h.root, Grammar.root?, Grammar.root?]
    cases done with
    | nil => rfl
    | cons r' done => rfl

end

/-- With names that differ, an entity of the model is found under its name. -/
theorem entity?_of_mem (hnodup : m.names.Nodup) {e : Entity} (he : e ∈ m.entities) :
    m.entity? e.name = some e := by
  obtain ⟨o, ho⟩ := mem_names_iff.1 (List.mem_map_of_mem he)
  have hname := name_of_entity?_eq_some ho
  rw [ho, List.inj_on_of_nodup_map hnodup (mem_of_entity?_eq_some ho) he hname]

/-- Changing an entity keeps what the change does not affect. -/
theorem map_modifyEntity {β : Type} (φ : Entity → β) {name : Name} {f : Entity → Entity}
    (hf : ∀ e, φ (f e) = φ e) :
    (m.modifyEntity name f).entities.map φ = m.entities.map φ := by
  rw [modifyEntity, List.map_map]
  refine List.map_congr_left fun e _ => ?_
  show φ (if e.name = name then f e else e) = φ e
  split
  · exact hf e
  · rfl

/-- An entity of a changed model is the changed one or one of the others. -/
theorem mem_modifyEntity {name : Name} {f : Entity → Entity} {e' : Entity} :
    e' ∈ (m.modifyEntity name f).entities ↔
      (∃ e ∈ m.entities, e.name = name ∧ e' = f e) ∨ (e' ∈ m.entities ∧ e'.name ≠ name) := by
  rw [modifyEntity, List.mem_map]
  constructor
  · rintro ⟨e, he, rfl⟩
    by_cases hname : e.name = name
    · rw [if_pos hname]
      exact .inl ⟨e, he, hname, rfl⟩
    · rw [if_neg hname]
      exact .inr ⟨he, hname⟩
  · rintro (⟨e, he, hname, rfl⟩ | ⟨he, hname⟩)
    · exact ⟨e, he, if_pos hname⟩
    · exact ⟨e', he, if_neg hname⟩

end Model

namespace Build

variable {g : Grammar} {m m' : Model}

/-! ## 2. The stage of the entities -/

/-- A model that has entities only. -/
structure Bare (m : Model) : Prop where
  entities : ∀ e ∈ m.entities, ∃ r, e = .ofRule r
  actions : m.actions = #[]
  properties : m.properties = #[]

/-- A model whose entities have no bodies. -/
structure Bodiless (m : Model) : Prop where
  entities : ∀ e ∈ m.entities, e.properties = [] ∧ e.action = none
  actions : m.actions = #[]
  properties : m.properties = #[]

theorem Bare.bodiless (h : Bare m) : Bodiless m where
  entities := by
    intro e he
    obtain ⟨r, rfl⟩ := h.entities e he
    exact ⟨rfl, rfl⟩
  actions := h.actions
  properties := h.properties

/-- Without bodies there is nothing to be out of order. -/
theorem Bodiless.closed (h : Bodiless m) : m.Closed := by
  intro i x t hx
  rw [h.actions] at hx
  exact absurd hx (by simp)

/-- The rules that were looked at have their entities. -/
theorem ensures_addRule {done : List Rule} {r : Rule} {d : Draft} {E : BuildStop → Prop}
    (hrules : d.model.OfRules ⟨done⟩) (hbare : Bare d.model) :
    Ensures (addRule r) d E fun _ d' => d'.model.OfRules ⟨done ++ [r]⟩ ∧ Bare d'.model := by
  rw [addRule, ensures_bind, ensures_model, Model.addEntity?]
  by_cases hmem : r.name ∈ d.model.names
  · have hcontains : d.model.contains (Entity.ofRule r).name = true := Model.contains_iff.2 hmem
    simp only [hcontains, if_true, ensures_tell]
    exact ⟨hrules.repeated hmem, hbare⟩
  · have hcontains : d.model.contains (Entity.ofRule r).name = false := by
      rw [Bool.eq_false_iff]
      exact fun h => hmem (Model.contains_iff.1 h)
    simp only [hcontains, Bool.false_eq_true, if_false, ensures_setModel]
    refine ⟨hrules.added hmem, fun e he => ?_, hbare.actions, hbare.properties⟩
    rcases List.mem_append.1 he with he | he
    · exact hbare.entities e he
    · exact ⟨r, List.mem_singleton.1 he⟩

/-- The first stage makes the entities of the rules and nothing else. -/
theorem ensures_skeleton {d : Draft} {E : BuildStop → Prop} :
    Ensures (skeleton g) d E fun _ d' => d'.model.OfRules g ∧ Bare d'.model := by
  rw [skeleton, ensures_bind, ensures_setModel]
  refine ensures_forM (I := fun done d => d.model.OfRules ⟨done⟩ ∧ Bare d.model)
    (fun done r rest _ d ⟨hrules, hbare⟩ => ensures_addRule hrules hbare) ?_
  refine ⟨⟨List.nodup_nil, fun n => ?_, fun e he => absurd he List.not_mem_nil, rfl⟩,
    fun e he => absurd he List.not_mem_nil, rfl, rfl⟩
  simp [Model.names, Grammar.rule?, EmptyCollection.emptyCollection]

/-! ## 3. The stage of the bodies -/

end Build

/-- The bodies of the entities in `done` are as their rules say and stand apart from each other. -/
structure Model.Sited [Unicode.Xid] (m : Model) (site : Name → Site) (done : List Name) : Prop where
  known : ∀ n ∈ done, n ∈ m.names
  hosts : ∀ e ∈ m.entities, e.name ∈ done → (site e.name).Hosts m e
  plan : ∀ e ∈ m.entities, e.name ∈ done →
    ∃ r, e.rule = some r ∧ (site e.name).plan = r.body.plan e.name .top
  apart : ∀ n ∈ done, ∀ n' ∈ done, n ≠ n' → (site n).Apart (site n')

/-- The body of an entity ends before the arena does. -/
theorem Model.Sited.fin_le [Unicode.Xid] {m : Model} {site : Name → Site} {done : List Name}
    (h : m.Sited site done) {n : Name} (hn : n ∈ done) : (site n).fin ≤ m.actions.size := by
  obtain ⟨e, he, rfl⟩ := List.mem_map.1 (h.known n hn)
  exact (h.hosts e he hn).stands.size_le

section

variable [Unicode.Xid] {m : Model} {site : Name → Site} (h : m.Sited site m.names) {e : Entity}
  (he : e ∈ m.entities)

include h he

/-- Where all bodies stand, each one stands at its site. -/
theorem Model.Sited.hosts_of_mem : (site e.name).Hosts m e :=
  h.hosts e he (List.mem_map_of_mem he)

theorem Model.Sited.plan_of_mem :
    ∃ r, e.rule = some r ∧ (site e.name).plan = r.body.plan e.name .top :=
  h.plan e he (List.mem_map_of_mem he)

end

namespace Build

variable {g : Grammar} {m m' : Model}

/-- The names of renamed properties. -/
theorem getElem?_renamed {ps : List Property} {names : List Name} {k : Nat} {p : Property}
    {name : Name} (hp : ps[k]? = some p) (hname : names[k]? = some name) :
    (renamed ps names)[k]? = some { p with name := name } := by
  rw [renamed, List.getElem?_zipWith, hp, hname]

namespace LaidDown

variable {entity : Name} {plan : Plan}

theorem names_eq (h : LaidDown m m' entity plan) : m'.names = m.names := by
  rw [Model.names, h.entities]
  exact Model.map_modifyEntity Entity.name fun _ => rfl

theorem sameKin (h : LaidDown m m' entity plan) : m.SameKin m' :=
  ⟨by rw [h.entities]; exact Model.map_modifyEntity Entity.kin fun _ => rfl, h.root⟩

theorem actions_size (h : LaidDown m m' entity plan) :
    m'.actions.size = m.actions.size + plan.size := by
  rw [← Array.length_toList, h.actions, List.length_append, Array.length_toList, Plan.length_code]

theorem properties_size (h : LaidDown m m' entity plan) :
    m'.properties.size = m.properties.size + plan.width := by
  rw [← Array.length_toList, h.properties, List.length_append, Array.length_toList, renamed,
    List.length_zipWith, Plan.length_props, length_distinctNames]
  exact congrArg _ (Nat.min_self _)

/-- The actions that were there are still there. -/
theorem action_old (h : LaidDown m m' entity plan) {i : Nat} (hi : i < m.actions.size) :
    m'.actions[i]? = m.actions[i]? := by
  rw [← Array.getElem?_toList, h.actions, List.getElem?_append_left (by simpa using hi),
    Array.getElem?_toList]

/-- The properties that were there are still there. -/
theorem property_old (h : LaidDown m m' entity plan) {k : Nat} {p : Property}
    (hp : m.properties[k]? = some p) : m'.properties[k]? = some p := by
  have hk : k < m.properties.size := (Array.getElem?_eq_some_iff.1 hp).1
  rw [← Array.getElem?_toList, h.properties, List.getElem?_append_left (by simpa using hk),
    Array.getElem?_toList, hp]

/-- The properties of the body. -/
theorem property_new (h : LaidDown m m' entity plan) {k : Nat} {p : Property} {name : Name}
    (hp : (plan.props entity m.actions.size)[k]? = some p)
    (hname : (distinctNames plan.slots)[k]? = some name) :
    m'.properties[m.properties.size + k]? = some { p with name := name } :=
  Plan.found_of_toList_eq h.properties _ _ (getElem?_renamed hp hname)

/-- The site of the body. -/
def site (m : Model) (plan : Plan) : Site :=
  { plan := plan, action := m.actions.size, property := m.properties.size }

/-- The body stands at its site. -/
theorem hosts (h : LaidDown m m' entity plan) {e : Entity} (hname : e.name = entity)
    (haction : e.action = some ⟨m.actions.size + plan.size - 1⟩)
    (hproperties : e.properties =
      (distinctNames plan.slots).zip (idsFrom m.properties.size plan.width)) :
    (site m plan).Hosts m' e where
  stands := by
    subst hname
    -- the properties are found under the names the leaves ask for, and have been renamed since
    have hstands : plan.Stands { m' with properties :=
        (m.properties.toList ++ plan.props e.name m.actions.size).toArray } e.name
        (fun _ => none) m.actions.size m.properties.size none :=
      Plan.stands_of_code (Plan.found_of_toList_eq h.actions) (Plan.found_of_toList_eq rfl)
    refine hstands.transfer (fun i x _ _ hx hlink => ?_) fun k p hq hk hp => ?_
    · cases hleaf : x.isLeaf with
      | true => exact hx
      | false =>
        have hnone : x.property = none := hlink hleaf
        refine hx.trans (congrArg some ?_)
        show x = { x with property := none }
        rw [← hnone]
    · have hprops : (plan.props e.name m.actions.size)[k - m.properties.size]? = some p := by
        rw [← hp]
        show _ = (m.properties.toList ++ plan.props e.name m.actions.size).toArray[k]?
        rw [List.getElem?_toArray, List.getElem?_append_right (by simpa using hq),
          Array.length_toList]
      have hlt : k - m.properties.size < (distinctNames plan.slots).length := by
        rw [length_distinctNames]
        have : k < m.properties.size + plan.slots.length := hk
        omega
      have hnew := h.property_new hprops (List.getElem?_eq_getElem hlt)
      rw [Nat.add_sub_cancel' hq] at hnew
      exact ⟨_, hnew⟩
  named := by
    intro k name hk
    have hlt : k < (plan.props entity m.actions.size).length := by
      rw [Plan.length_props]
      have := (List.getElem?_eq_some_iff.1 hk).1
      rwa [Site.length_names] at this
    exact ⟨_, h.property_new (List.getElem?_eq_getElem hlt) hk, rfl⟩
  action := haction
  current := hproperties
  chooses := fun choice proxy hproxy => absurd hproxy (by simp [site])

/-- Laying down one more body keeps those that are laid down. -/
theorem sited [Unicode.Xid] (h : LaidDown m m' entity plan) {at' : Name → Site} {done : List Name}
    (hsited : m.Sited at' done) (hentity : entity ∈ m.names)
    (hplan : ∀ e ∈ m.entities, e.name = entity →
      ∃ r, e.rule = some r ∧ plan = r.body.plan e.name .top) :
    m'.Sited (Function.update at' entity (site m plan)) (done ++ [entity]) := by
  refine ⟨?_, fun e' he' hdone => ?_, fun e' he' hdone => ?_, ?_⟩
  · intro n hn
    rw [h.names_eq]
    rcases List.mem_append.1 hn with hn | hn
    · exact hsited.known n hn
    · exact List.mem_singleton.1 hn ▸ hentity
  · rw [h.entities] at he'
    rcases Model.mem_modifyEntity.1 he' with ⟨e, he, rfl, rfl⟩ | ⟨he, hne⟩
    · rw [Function.update_self]
      exact h.hosts rfl rfl rfl
    · rw [Function.update_of_ne hne]
      rcases List.mem_append.1 hdone with hdone | hdone
      · refine (hsited.hosts e' he hdone).congr (fun i _ hi => ?_) fun k p => h.property_old
        exact h.action_old (Nat.lt_of_lt_of_le hi (hsited.fin_le hdone))
      · exact absurd (List.mem_singleton.1 hdone) hne
  · rw [h.entities] at he'
    rcases Model.mem_modifyEntity.1 he' with ⟨e, he, rfl, rfl⟩ | ⟨he, hne⟩
    · rw [Function.update_self]
      exact hplan e he rfl
    · rw [Function.update_of_ne hne]
      rcases List.mem_append.1 hdone with hdone | hdone
      · exact hsited.plan e' he hdone
      · exact absurd (List.mem_singleton.1 hdone) hne
  · intro n hn n' hn' hne
    have hold : ∀ k ∈ done ++ [entity], k ≠ entity →
        (at' k).fin ≤ m.actions.size := by
      intro k hk hne
      rcases List.mem_append.1 hk with hk | hk
      · exact hsited.fin_le hk
      · exact absurd (List.mem_singleton.1 hk) hne
    by_cases hentity : n = entity
    · subst hentity
      rw [Function.update_self, Function.update_of_ne hne.symm]
      exact .inr (hold n' hn' hne.symm)
    · rw [Function.update_of_ne hentity]
      by_cases hentity' : n' = entity
      · subst hentity'
        rw [Function.update_self]
        exact .inl (hold n hn hne)
      · rw [Function.update_of_ne hentity']
        have hmem : ∀ k ∈ done ++ [entity], k ≠ entity → k ∈ done := fun k hk hk' =>
          (List.mem_append.1 hk).resolve_right fun hk => hk' (List.mem_singleton.1 hk)
        exact hsited.apart n (hmem n hn hentity) n' (hmem n' hn' hentity') hne

end LaidDown

/-- A body whose rule refers to entities only keeps the actions so. -/
theorem LaidDown.closed {entity : Name} {plan : Plan}
    (h : LaidDown m m' entity plan) (hclosed : m.Closed)
    (hrefs : ∀ t ∈ plan.references, t ∈ m.names) : m'.Closed := by
  intro i x t hx ht
  rw [h.names_eq]
  by_cases hi : i < m.actions.size
  · rw [h.action_old hi] at hx
    exact hclosed i x t hx ht
  · rw [← Array.getElem?_toList, h.actions,
      List.getElem?_append_right (by simpa using Nat.le_of_not_lt hi)] at hx
    exact hrefs t (Plan.target_mem_references ht (List.mem_of_getElem? hx))

/-- Why a stage may end early: the ids run out, or a rule refers to one that is not declared. -/
def Halted (g : Grammar) (stop : BuildStop) : Prop :=
  Shortage stop ∨ ∃ r target, g.rule? r.name = some r ∧ target ∈ r.body.references ∧
    g.rule? target = none ∧ stop = .error (.unknownReference r.name target)

/-- A rule that is refused refers to one that is not declared. -/
theorem Refused.halted {r : Rule} {stop : BuildStop} (hrules : m.OfRules g)
    (hr : g.rule? r.name = some r) (h : Refused r.name m.names r.body.references stop) :
    Halted g stop := by
  rcases h with h | ⟨target, hfind, rfl⟩
  · exact .inl h
  · have hunknown : target ∉ m.names := by simpa using List.find?_some hfind
    refine .inr ⟨r, target, hr, List.mem_of_find?_eq_some hfind, ?_, rfl⟩
    cases htarget : g.rule? target with
    | none => rfl
    | some r' => exact absurd ((hrules.names target).2 ⟨r', htarget⟩) hunknown

/-- After the stage of the bodies every entity has the body that its rule describes. What a body
    that is laid down keeps, be it of the model or of the sites, holds at the end too. -/
theorem ensures_bodies_keep [Unicode.Xid] {P : (Name → Site) → List Name → Model → Prop} {d : Draft}
    (hrules : d.model.OfRules g) (hclosed : d.model.Closed) (hstart : ∀ site, P site [] d.model)
    (hstep : ∀ site done m₁ m₂ entity plan, m₁.Sited site done → entity ∉ done →
      LaidDown m₁ m₂ entity plan → P site done m₁ →
      P (Function.update site entity (LaidDown.site m₁ plan)) (done ++ [entity]) m₂) :
    Ensures bodies d (Halted g) fun _ d' => d.model.SameKin d'.model ∧ d'.model.Closed ∧
      ∃ site, d'.model.Sited site d'.model.names ∧ P site d'.model.names d'.model := by
  rw [bodies, ensures_bind, ensures_model]
  have hstages : Ensures (d.model.entities.forM bodyOf) d (Halted g) fun _ d' =>
      d.model.SameKin d'.model ∧ d'.model.Closed ∧
        ∃ site, d'.model.Sited site (d.model.entities.map Entity.name) ∧
          P site (d.model.entities.map Entity.name) d'.model :=
    ensures_forM (I := fun done d' => d.model.SameKin d'.model ∧ d'.model.Closed ∧
      ∃ site, d'.model.Sited site (done.map Entity.name) ∧ P site (done.map Entity.name) d'.model)
      (fun done e rest hsplit d₁ ⟨hkin, hclosed₁, site, hsited, hP⟩ => ?_) ?_
  · refine hstages.mono (fun _ h => h) fun _ d' ⟨hkin, hclosed', site, hsited⟩ => ?_
    refine ⟨hkin, hclosed', site, ?_⟩
    rw [hkin.names_eq]
    exact hsited
  · have he : e ∈ d.model.entities := by
      rw [hsplit]
      exact List.mem_append_right _ List.mem_cons_self
    have hfresh : e.name ∉ done.map Entity.name := by
      have hnodup : ((done ++ e :: rest).map Entity.name).Nodup := hsplit ▸ hrules.nodup
      rw [List.map_append] at hnodup
      exact fun hmem => (List.nodup_append'.1 hnodup).2.2 hmem List.mem_cons_self
    obtain ⟨r, hr⟩ := hrules.exists_rule he
    have hrules₁ := hrules.of_sameKin hkin
    have hname : e.name ∈ d₁.model.names := by
      rw [hkin.names_eq]
      exact List.mem_map_of_mem he
    have hdeclared : g.rule? e.name = some r := (hrules.rule e he).symm.trans hr
    have hsame : r.name = e.name := (Grammar.rule?_eq_some hdeclared).2
    rw [bodyOf, hr]
    refine (ensures_body r.body d₁).mono (fun stop h => ?_) fun _ d₂ ⟨hlaid, hrefs, _⟩ => ?_
    · rw [← hsame] at h hdeclared
      exact h.1.halted hrules₁ hdeclared
    · refine ⟨hkin.trans hlaid.sameKin, ?_, ?_⟩
      · refine hlaid.closed hclosed₁ fun t ht => ?_
        rw [Expr.references_plan] at ht
        exact hrefs t ht
      · rw [List.map_append]
        refine ⟨_, hlaid.sited hsited hname fun o ho hsame => ?_,
          hstep _ _ _ _ _ _ hsited hfresh hlaid hP⟩
        refine ⟨r, ?_, by rw [hsame]⟩
        rw [hrules₁.rule o ho, hsame, ← hrules.rule e he, hr]
  · exact ⟨.refl _, hclosed, fun _ => LaidDown.site ∅ (.node ⟨false, false⟩ false []),
      ⟨fun n hn => absurd hn List.not_mem_nil, fun e _ hn => absurd hn List.not_mem_nil,
        fun e _ hn => absurd hn List.not_mem_nil, fun n hn => absurd hn List.not_mem_nil⟩,
      hstart _⟩

/-- The bodies alone. -/
theorem ensures_bodies [Unicode.Xid] {d : Draft} (hrules : d.model.OfRules g)
    (hclosed : d.model.Closed) :
    Ensures bodies d (Halted g) fun _ d' =>
      d.model.SameKin d'.model ∧ d'.model.Closed ∧ ∃ site, d'.model.Sited site d'.model.names := by
  refine (ensures_bodies_keep (P := fun _ _ _ => True) hrules hclosed (fun _ => trivial)
    fun _ _ _ _ _ _ _ _ _ _ => trivial).mono (fun _ h => h) fun _ d' hd' => ?_
  obtain ⟨hkin, hclosed', site, hsited, _⟩ := hd'
  exact ⟨hkin, hclosed', site, hsited⟩

end Build

end Ebnf
