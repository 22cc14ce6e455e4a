import Mathlib
import Ebnf.Proofs.Destinations
import Ebnf.Proofs.FirstRules

/-!
# The actions of a model form a forest

The actions of a model that was built are those of its entities and no others: one tree for each
entity, the trees one behind the other in the order of the rules, and in each of them the children
before the action they belong to. The links to parents say the same as the lists of children.

* `Plan.Stands.exists_parts`: an action that has a place for children has those of a plan;
* `Site.Hosts.bears`, `Site.Hosts.exists_parent`: what an action of an entity has to do with its
  children and with its parent;
* `Model.Packed`: the entities stand one behind the other, and nothing else does;
* `Model.Forest`: the trees of all entities;
* `actions_form_forest`: so it is in a model that was built.
-/

namespace Ebnf

/-- A leaf has no children. -/
theorem Action.children_of_isLeaf {x : Action} (h : x.isLeaf = true) : x.children = [] := by
  unfold Action.isLeaf at h
  unfold Action.children
  cases hkind : x.kind with
  | all cs => rw [hkind] at h; contradiction
  | any cs => rw [hkind] at h; contradiction
  | _ => rfl

namespace Plan

variable {m : Model} {entity : Name} {link : ActionId → Option PropertyId}

/-! ## 1. The children of an action -/

theorem length_roots (ps : List Plan) : ∀ a, (roots a ps).length = ps.length := by
  induction ps with
  | nil => exact fun _ => rfl
  | cons p ps ih => exact fun a => congrArg Nat.succ (ih (a + p.size))

/-- The topmost actions of plans in a row are among the actions of these plans. -/
theorem within_of_mem_roots {c : ActionId} : ∀ {ps : List Plan} {a : Nat}, c ∈ roots a ps →
    a ≤ c.index ∧ c.index < a + sizes ps
  | [], _, hc => absurd hc List.not_mem_nil
  | p :: ps, a, hc => by
    have hpos := p.size_pos
    rw [sizes]
    rcases List.mem_cons.1 hc with rfl | hc
    · constructor <;> simp only <;> omega
    · obtain ⟨hle, hlt⟩ := within_of_mem_roots hc
      omega

/-- They come in the order of the plans. -/
theorem pairwise_roots : ∀ (ps : List Plan) (a : Nat),
    (roots a ps).Pairwise fun c d => c.index < d.index
  | [], _ => .nil
  | p :: ps, a => by
    refine .cons (fun d hd => ?_) (pairwise_roots ps (a + p.size))
    have hpos := p.size_pos
    have hle := (within_of_mem_roots hd).1
    show a + p.size - 1 < d.index
    omega

/-- The topmost action of a plan belongs to the parent of the plan. -/
theorem Stands.parent_top {p : Plan} {a q : Nat} {parent : Option ActionId}
    (h : p.Stands m entity link a q parent) :
    ∃ x, m.actions[a + p.size - 1]? = some x ∧ x.parent = parent := by
  cases p with
  | leaf mods symbol slot => exact ⟨_, h.1, rfl⟩
  | node mods choice parts => exact ⟨_, h.2, rfl⟩

theorem StandInRow.parent_root {c : ActionId} {parent : Option ActionId} :
    ∀ {ps : List Plan} {a q : Nat}, StandInRow m entity link a q parent ps → c ∈ roots a ps →
      ∃ x, m.actions[c.index]? = some x ∧ x.parent = parent
  | [], _, _, _, hc => absurd hc List.not_mem_nil
  | p :: ps, a, q, ⟨hp, hps⟩, hc => by
    rcases List.mem_cons.1 hc with rfl | hc
    · exact hp.parent_top
    · exact hps.parent_root hc

mutual

/-- An action of a plan that has a place for children has the topmost actions of several plans,
    which stand right before it. -/
theorem Stands.exists_parts {a q i : Nat} {parent : Option ActionId} {x : Action} :
    ∀ {p : Plan}, p.Stands m entity link a q parent → p.Forked → a ≤ i → i < a + p.size →
      m.actions[i]? = some x → x.isLeaf = false → ∃ (parts : List Plan) (a' q' : Nat),
        StandInRow m entity link a' q' (some ⟨i⟩) parts ∧ a' + sizes parts = i ∧
          x.children = roots a' parts ∧ 2 ≤ parts.length
  | leaf mods symbol slot, ⟨htop, _⟩, _, ha, hi, hx, hnode => by
    obtain rfl : i = a := Nat.le_antisymm (Nat.le_of_lt_succ hi) ha
    obtain rfl := Option.some.inj (htop.symm.trans hx)
    rw [isLeaf_top_leaf] at hnode
    contradiction
  | node mods choice parts, ⟨hparts, htop⟩, hforked, ha, hi, hx, hnode => by
    cases hforked with
    | node _ _ htwo hforked =>
      rw [size, ← Nat.add_assoc] at hi
      rcases Nat.lt_succ_iff_lt_or_eq.1 hi with hlt | rfl
      · exact hparts.exists_parts hforked ha hlt hx hnode
      · obtain rfl := Option.some.inj (htop.symm.trans hx)
        exact ⟨parts, a, q, hparts, rfl, by cases choice <;> rfl, htwo⟩

theorem StandInRow.exists_parts {a q i : Nat} {parent : Option ActionId} {x : Action} :
    ∀ {ps : List Plan}, StandInRow m entity link a q parent ps → (∀ p ∈ ps, p.Forked) → a ≤ i →
      i < a + sizes ps → m.actions[i]? = some x → x.isLeaf = false →
      ∃ (parts : List Plan) (a' q' : Nat),
        StandInRow m entity link a' q' (some ⟨i⟩) parts ∧ a' + sizes parts = i ∧
          x.children = roots a' parts ∧ 2 ≤ parts.length
  | [], _, _, ha, hi, _, _ => absurd (Nat.lt_of_le_of_lt ha hi) (Nat.lt_irrefl a)
  | p :: ps, ⟨hp, hps⟩, hforked, ha, hi, hx, hnode => by
    rw [sizes, ← Nat.add_assoc] at hi
    by_cases hlt : i < a + p.size
    · exact hp.exists_parts (hforked p List.mem_cons_self) ha hlt hx hnode
    · exact hps.exists_parts (fun p hp => hforked p (List.mem_cons_of_mem _ hp))
        (Nat.le_of_not_lt hlt) hi hx hnode

end

end Plan

/-! ## 2. The actions of one entity -/

/-- The children of an action come before it, by increasing ids, and have it as their parent; and
    one that has a place for children has two at least. -/
structure Model.Bears (m : Model) (i : Nat) (x : Action) : Prop where
  below : ∀ c ∈ x.children, c.index < i
  rising : x.children.Pairwise fun c d => c.index < d.index
  parent : ∀ c ∈ x.children, ∃ y, m.actions[c.index]? = some y ∧ y.parent = some ⟨i⟩
  forked : x.isLeaf = false → 2 ≤ x.children.length

namespace Site

variable {m : Model} {e : Entity} {s : Site}

theorem Hosts.bears (h : s.Hosts m e) (hforked : s.plan.Forked) {i : Nat} {x : Action}
    (hi : s.action ≤ i ∧ i < s.fin) (hx : m.actions[i]? = some x) : m.Bears i x := by
  cases hleaf : x.isLeaf with
  | true =>
    have hnone := Action.children_of_isLeaf hleaf
    refine ⟨fun c hc => ?_, ?_, fun c hc => ?_, fun hnode => ?_⟩
    · exact absurd (hnone ▸ hc) List.not_mem_nil
    · rw [hnone]
      exact .nil
    · exact absurd (hnone ▸ hc) List.not_mem_nil
    · rw [hleaf] at hnode
      contradiction
  | false =>
    obtain ⟨parts, a, q, hparts, rfl, hchildren, htwo⟩ :=
      h.stands.exists_parts hforked hi.1 hi.2 hx hleaf
    rw [← Plan.length_roots parts a, ← hchildren] at htwo
    refine ⟨fun c hc => ?_, ?_, fun c hc => ?_, fun _ => htwo⟩
    · exact (Plan.within_of_mem_roots (hchildren ▸ hc)).2
    · rw [hchildren]
      exact Plan.pairwise_roots parts a
    · exact hparts.parent_root (hchildren ▸ hc)

/-- The parent of an action has it as a child. -/
theorem Hosts.exists_parent (h : s.Hosts m e) {i : Nat} {x : Action} {parent : ActionId}
    (hi : s.action ≤ i ∧ i < s.fin) (hx : m.actions[i]? = some x)
    (hparent : x.parent = some parent) :
    ∃ y, m.actions[parent.index]? = some y ∧ ⟨i⟩ ∈ y.children :=
  h.stands.child hi.1 hi.2 hx hparent (h.around hi hx hparent).2.1
    fun _ hid => absurd hid.symm (Option.some_ne_none _)

/-- The topmost action of an entity has no parent. -/
theorem Hosts.exists_top (h : s.Hosts m e) :
    ∃ x, m.actions[s.action + s.plan.size - 1]? = some x ∧ x.parent = none :=
  h.stands.parent_top

end Site

/-! ## 3. Arenas in the order of the entities -/

/-- The actions of the entities in `done` stand one behind the other, in this order, and nothing
    else stands in the arena. -/
def Model.Packed (m : Model) (site : Name → Site) (done : List Name) : Prop :=
  done.flatMap (fun n => List.range' (site n).action (site n).plan.size) =
    List.range m.actions.size

/-- An action of such an arena belongs to one of the entities. -/
theorem Model.Packed.exists_within {m : Model} {site : Name → Site} {done : List Name}
    (h : m.Packed site done) {i : Nat} (hi : i < m.actions.size) :
    ∃ n ∈ done, (site n).action ≤ i ∧ i < (site n).fin := by
  have hmem : i ∈ List.range m.actions.size := List.mem_range.2 hi
  rw [← h] at hmem
  obtain ⟨n, hn, hwithin⟩ := List.mem_flatMap.1 hmem
  exact ⟨n, hn, List.mem_range'_1.1 hwithin⟩

namespace Build

variable {g : Grammar} {m m' m₁ m₂ m₃ : Model}

/-- One more body is put behind the others. -/
theorem LaidDown.packed {entity : Name} {plan : Plan} {site : Name → Site} {done : List Name}
    (h : LaidDown m m' entity plan) (hpacked : m.Packed site done) (hfresh : entity ∉ done) :
    m'.Packed (Function.update site entity (LaidDown.site m plan)) (done ++ [entity]) := by
  have hold : done.flatMap (fun n => List.range'
      (Function.update site entity (LaidDown.site m plan) n).action
      (Function.update site entity (LaidDown.site m plan) n).plan.size) =
      List.range m.actions.size := by
    rw [← hpacked]
    refine List.flatMap_congr fun n hn => ?_
    have hne : n ≠ entity := fun heq => hfresh (heq ▸ hn)
    rw [Function.update_of_ne hne]
  rw [Model.Packed, List.flatMap_append, hold, List.flatMap_singleton, Function.update_self,
    h.actions_size, List.range_add, LaidDown.site, List.range'_eq_map_range]

/-- A proxy moves no action. -/
theorem Proxied.packed {e : Entity} {choice : ActionId} {site : Name → Site}
    (h : Proxied m m' e choice) (hpacked : m.Packed site m.names) :
    m'.Packed (h.site site) m'.names := by
  rw [Model.Packed, h.names_eq, h.actions, Array.size_modify, ← hpacked]
  refine List.flatMap_congr fun n _ => ?_
  obtain ⟨hplan, haction, _⟩ := h.site_place site n
  rw [hplan, haction]

/-- A model that was built has one entity for each rule that counts, in their order. -/
theorem Course.names_eq [Unicode.Xid] (h : Course g m₁ m₂ m₃ m) :
    m.names = g.firstRules.map Rule.name := by
  obtain ⟨m₀, hskeleton⟩ := h.skeleton
  have hrules : m₁.names = g.firstRules.map Rule.name := by
    refine hskeleton.of_ensures (E := fun _ => True)
      (Q := fun m => m.names = g.firstRules.map Rule.name) fun d _ => ?_
    obtain ⟨events, hok⟩ := exists_skeleton g d
    unfold Ensures
    rw [hok]
    exact Model.names_ofRules g.firstRules
  have halong := h.along
  rw [halong.grown.parts.names_eq, halong.kin'.names_eq, halong.kin.names_eq, hrules]

/-- The entities of a model that was built stand one behind the other. -/
theorem Course.exists_packed [Unicode.Xid] (h : Course g m₁ m₂ m₃ m) :
    ∃ site, m.Sited site m.names ∧ m.Packed site m.names := by
  refine h.exists_kept (P := fun site done m => m.Packed site done)
    (fun site m hbodiless => ?_)
    (fun site done m m' entity plan hfresh hlaid hpacked => hlaid.packed hpacked hfresh)
    (fun site m m' e choice _ _ _ hproxied hpacked => hproxied.packed hpacked)
    fun site m m' hparts hpacked => ?_
  · rw [Model.Packed, hbodiless.actions]
    rfl
  · rw [hparts.names_eq, Model.Packed, hparts.actions]
    exact hpacked

end Build

/-! ## 4. The trees of all entities -/

/-- The tree of an entity is all that is below its topmost action, which has no parent. Its actions
    have ids in a row. -/
structure Model.TreeOf (m : Model) (e : Entity) (t : ActionTree) : Prop where
  top : e.action = some t.id
  tree : m.tree t.id = .ok t
  parent : ∃ x, m.actions[t.id.index]? = some x ∧ x.parent = none
  row : ∃ first, t.ids = (List.range' first t.ids.length).map ActionId.mk

/-- Each entity has its tree. One behind the other, in the order of the entities, the trees list
    every action of the arena once, in the order of the ids. To be a child of an action is to have
    it as parent, whatever the entity. -/
structure Model.Forest (m : Model) (trees : List ActionTree) : Prop where
  each : List.Forall₂ m.TreeOf m.entities trees
  once : trees.flatMap ActionTree.ids = (List.range m.actions.size).map ActionId.mk
  linked : ∀ (c id : ActionId) x y, m.actions[c.index]? = some x → m.actions[id.index]? = some y →
    (c ∈ y.children ↔ x.parent = some id)
  parents : ∀ x ∈ m.actions, ∀ id ∈ x.parent, id.index < m.actions.size
  below : ∀ (i : Nat) x, m.actions[i]? = some x → ∀ c ∈ x.children, c.index < i
  rising : ∀ x ∈ m.actions, x.children.Pairwise fun c d => c.index < d.index
  forked : ∀ x ∈ m.actions, x.isLeaf = false → 2 ≤ x.children.length

/-- The trees of a forest hang from the actions that the entities name. -/
theorem Model.Forest.tops {m : Model} {trees : List ActionTree} (h : m.Forest trees) :
    trees.map (some ∘ ActionTree.id) = m.entities.map Entity.action := by
  have hall := List.forall₂_map_left_iff.2 (List.forall₂_map_right_iff.2
    (h.each.imp fun e t ht => ht.top))
  rw [List.forall₂_eq_eq_eq] at hall
  exact hall.symm

namespace Plan

theorem id_treeOf {m : Model} {link : ActionId → Option PropertyId} {a q : Nat}
    {parent : Option ActionId} (p : Plan) : (p.treeOf m link a q parent).id = ⟨a + p.size - 1⟩ := by
  cases p <;> rfl

end Plan

namespace Site

variable {m : Model} {e : Entity} {s : Site}

/-- The tree of a plan is that of its entity. -/
theorem Hosts.treeOf (h : s.Hosts m e) :
    m.TreeOf e (s.plan.treeOf m s.link s.action s.property none) where
  top := by
    rw [h.action, Plan.id_treeOf]
  tree := by
    rw [Plan.id_treeOf]
    exact h.tree_eq
  parent := by
    rw [Plan.id_treeOf]
    exact h.exists_top
  row := by
    rw [Plan.ids_treeOf, List.length_map, List.length_range']
    exact ⟨s.action, rfl⟩

end Site

namespace Model

variable {m : Model} {site : Name → Site}

/-- Where the entities stand one behind the other, every action is one of an entity. -/
theorem Sited.exists_host [Unicode.Xid] (h : m.Sited site m.names) (hpacked : m.Packed site m.names)
    {i : Nat} {x : Action} (hx : m.actions[i]? = some x) :
    ∃ e ∈ m.entities, (site e.name).Hosts m e ∧ (site e.name).plan.Forked ∧
      (site e.name).action ≤ i ∧ i < (site e.name).fin := by
  obtain ⟨n, hn, hwithin⟩ := hpacked.exists_within (Array.getElem?_eq_some_iff.1 hx).1
  obtain ⟨e, he, rfl⟩ := List.mem_map.1 hn
  obtain ⟨r, _, hplan⟩ := h.plan_of_mem he
  refine ⟨e, he, h.hosts_of_mem he, ?_, hwithin⟩
  rw [hplan]
  exact r.body.forked_plan _

/-- Entities that stand one behind the other make a forest. -/
theorem Sited.forest [Unicode.Xid] (h : m.Sited site m.names) (hpacked : m.Packed site m.names) :
    m.Forest (m.entities.map fun e => (site e.name).plan.treeOf m (site e.name).link
      (site e.name).action (site e.name).property none) := by
  have hbears : ∀ (i : Nat) x, m.actions[i]? = some x → m.Bears i x := by
    intro i x hx
    obtain ⟨e, _, hosts, hforked, hi⟩ := h.exists_host hpacked hx
    exact hosts.bears hforked hi hx
  have hparent : ∀ (i : Nat) x id, m.actions[i]? = some x → x.parent = some id →
      ∃ y, m.actions[id.index]? = some y ∧ ⟨i⟩ ∈ y.children := by
    intro i x id hx hid
    obtain ⟨e, _, hosts, _, hi⟩ := h.exists_host hpacked hx
    exact hosts.exists_parent hi hx hid
  refine ⟨?_, ?_, fun c id x y hx hy => ⟨fun hc => ?_, fun hid => ?_⟩, fun x hx id hid => ?_,
    fun i x hx => (hbears i x hx).below, fun x hx => ?_, fun x hx => ?_⟩
  · rw [List.forall₂_map_right_iff, List.forall₂_same]
    exact fun e he => (h.hosts_of_mem he).treeOf
  · rw [← hpacked, names, List.flatMap_map, List.flatMap_map, List.map_flatMap]
    simp only [Plan.ids_treeOf]
  · obtain ⟨x', hx', hid⟩ := (hbears _ _ hy).parent c hc
    obtain rfl := Option.some.inj (hx.symm.trans hx')
    exact hid
  · obtain ⟨y', hy', hc⟩ := hparent _ _ _ hx hid
    obtain rfl := Option.some.inj (hy.symm.trans hy')
    exact hc
  · obtain ⟨i, hi⟩ := Array.mem_iff_getElem?.1 hx
    obtain ⟨y, hy, _⟩ := hparent i x id hi hid
    exact (Array.getElem?_eq_some_iff.1 hy).1
  · obtain ⟨i, hi⟩ := Array.mem_iff_getElem?.1 hx
    exact (hbears i x hi).rising
  · obtain ⟨i, hi⟩ := Array.mem_iff_getElem?.1 hx
    exact (hbears i x hi).forked

end Model

/-- In a model that was built there is one entity for each rule that counts, in their order, the
    actions form a forest of one tree for each entity, and every action is in the tree of exactly
    one. -/
theorem actions_form_forest [Unicode.Xid] {g : Grammar} {m : Model}
    (h : Model.ofGrammar g = .ok m) :
    m.names = g.firstRules.map Rule.name ∧ (∃ trees, m.Forest trees) ∧
      ∀ id : ActionId, id.index < m.actions.size → ∃! e, e ∈ m.entities ∧ m.Owns e id := by
  obtain ⟨m₁, m₂, m₃, hcourse⟩ := Build.exists_course h
  obtain ⟨site, hsited, hpacked⟩ := hcourse.exists_packed
  have hnodup : m.names.Nodup := by
    rw [hcourse.along.grown.parts.names_eq]
    exact hcourse.along.proxied.rules.nodup
  refine ⟨hcourse.names_eq, ⟨_, hsited.forest hpacked⟩, fun id hid => ?_⟩
  obtain ⟨e, he, hosts, _, hwithin⟩ :=
    hsited.exists_host hpacked (Array.getElem?_eq_getElem hid)
  have howns := hosts.owns_iff.2 hwithin
  exact ⟨e, ⟨he, howns⟩, fun o ho => hsited.owner_unique hnodup he ho.1 howns ho.2⟩

namespace Lines

/-- Lines of a word after `let`, or of a word that two marks may follow, and a second rule for
    words, which does not count. -/
def grammar : Grammar where
  rules := [
    { name := "line",
      body := .repetition (.group (.choice
        (.sequence (.literal none "let") (.reference none "word"))
        (.sequence (.reference none "word")
          (.optional (.sequence (.reference none "mark") (.reference none "mark")))))) },
    { name := "word", body := .literal none "a" },
    { name := "mark", body := .sequence (.literal none "c") (.literal none "d") },
    { name := "word", body := .literal none "b" }]

def line : Entity where
  name := "line"
  rule := grammar.rule? "line"
  properties := [("has_let", ⟨0⟩), ("word0", ⟨1⟩), ("word1", ⟨2⟩), ("mark0", ⟨3⟩), ("mark1", ⟨4⟩)]
  action := some ⟨8⟩

def word : Entity where
  name := "word"
  rule := grammar.rule? "word"
  properties := [("word", ⟨5⟩)]
  action := some ⟨9⟩

def mark : Entity where
  name := "mark"
  rule := grammar.rule? "mark"
  action := some ⟨12⟩

def model : Model where
  entities := [line, word, mark]
  properties := #[
    { name := "has_let", entity := "line", source := ⟨0⟩ },
    { name := "word0", entity := "line", source := ⟨1⟩ },
    { name := "word1", entity := "line", source := ⟨3⟩ },
    { name := "mark0", entity := "line", source := ⟨4⟩ },
    { name := "mark1", entity := "line", source := ⟨5⟩ },
    { name := "word", entity := "word", source := ⟨9⟩ }]
  actions := #[
    { kind := .literal "let", isWitness := true, property := some ⟨0⟩, parent := some ⟨2⟩ },
    { kind := .entity "word", property := some ⟨1⟩, parent := some ⟨2⟩ },
    { kind := .all [⟨0⟩, ⟨1⟩], parent := some ⟨8⟩ },
    { kind := .entity "word", property := some ⟨2⟩, parent := some ⟨7⟩ },
    { kind := .entity "mark", property := some ⟨3⟩, parent := some ⟨6⟩ },
    { kind := .entity "mark", property := some ⟨4⟩, parent := some ⟨6⟩ },
    { kind := .all [⟨4⟩, ⟨5⟩], isOptional := true, parent := some ⟨7⟩ },
    { kind := .all [⟨3⟩, ⟨6⟩], parent := some ⟨8⟩ },
    { kind := .any [⟨2⟩, ⟨7⟩], isPlural := true },
    { kind := .literal "a", property := some ⟨5⟩ },
    { kind := .literal "c", parent := some ⟨12⟩ },
    { kind := .literal "d", parent := some ⟨12⟩ },
    { kind := .all [⟨10⟩, ⟨11⟩] }]
  root := some "line"

/-- The lines lead to words and marks, each of them twice, and no link is made. -/
theorem walk_eq (events : Array Event) (attached : List (Name × PropertyId)) :
    Build.walk ["line", "word", "mark"] [] ["line"] { model, events, attached } =
      .ok () { model, events, attached } := by
  have hline : Build.discover line { model, events, attached } =
      .ok ["word", "word", "mark", "mark"] { model, events, attached } := by
    cbv
  have hword : Build.discover word { model, events, attached } =
      .ok [] { model, events, attached } := by
    cbv
  have hmark : Build.discover mark { model, events, attached } =
      .ok [] { model, events, attached } := by
    cbv
  rw [Build.walk_cons (by decide) rfl hline, List.append_nil,
    Build.walk_cons (by decide) rfl hword, List.nil_append, Build.walk_pass (by decide),
    Build.walk_cons (by decide) rfl hmark, List.nil_append, Build.walk_pass (by decide), Build.walk]
  rfl

theorem ofGrammar_eq : Model.ofGrammar grammar = .ok model :=
  Build.ofGrammar_of_walk (m := model) (by cbv) rfl
    fun events attached => ⟨_, _, walk_eq events attached⟩

end Lines

/-- Thirteen actions in three trees: that of the lines, with marks three steps below the top, that
    of the words by their first rule, and that of the marks. -/
theorem actions_form_forest_lines :
    Model.ofGrammar Lines.grammar = .ok Lines.model ∧
    Lines.model.names = ["line", "word", "mark"] ∧
    (∃ trees, Lines.model.Forest trees ∧
      trees.map (some ∘ ActionTree.id) = [some ⟨8⟩, some ⟨9⟩, some ⟨12⟩]) ∧
    ∃! e, e ∈ Lines.model.entities ∧ Lines.model.Owns e ⟨4⟩ := by
  obtain ⟨hnames, ⟨trees, hforest⟩, howner⟩ := actions_form_forest Lines.ofGrammar_eq
  exact ⟨Lines.ofGrammar_eq, hnames, ⟨trees, hforest, hforest.tops⟩, howner ⟨4⟩ (by decide)⟩

end Ebnf
