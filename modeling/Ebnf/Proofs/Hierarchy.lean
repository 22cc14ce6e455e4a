import Mathlib.Logic.Relation
import Ebnf.Build.Subs
import Ebnf.Proofs.Proxies

/-!
# The order of the entities

The links between subs and supers are read as a relation. The search for a special case finds just
the ways over one link or more, and the one way in which links are added keeps them on both sides
and free of circles.

* `Model.Super`: one link up;
* `isA_iff`: what the search finds;
* `Model.Ranked`: the links are noted on both sides and lead in no circle;
* `Model.Ranked.register`: a new link keeps them so.
-/

namespace Ebnf

open Relation (TransGen ReflTransGen)

namespace Model

variable {m m' : Model}

/-! ## 1. Ways up -/

/-- There is a link from an entity up to a name. -/
def Super (m : Model) (child parent : Name) : Prop :=
  ∃ e, m.entity? child = some e ∧ parent ∈ e.supers

theorem Super.mem_names {child parent : Name} (h : m.Super child parent) : child ∈ m.names := by
  obtain ⟨e, he, _⟩ := h
  exact mem_names_iff.2 ⟨e, he⟩

/-- A name that starts a way up is one of the model. -/
theorem mem_names_of_transGen {child parent : Name} (h : TransGen m.Super child parent) :
    child ∈ m.names := by
  induction h with
  | single h => exact h.mem_names
  | tail _ _ ih => exact ih

/-- What the search finds is there. -/
theorem exists_way_of_passes {goal : Name} (visited stack : List Name)
    (h : m.passes goal visited stack = true) : ∃ n ∈ stack, TransGen m.Super n goal := by
  induction visited, stack using Model.passes.induct m goal with
  | case1 visited => rw [passes] at h; contradiction
  | case2 visited name rest hnone ih =>
    rw [passes, hnone] at h
    obtain ⟨n, hn, hway⟩ := ih h
    exact ⟨n, List.mem_cons_of_mem _ hn, hway⟩
  | case3 visited name rest e hsome hgoal =>
    exact ⟨name, List.mem_cons_self, .single ⟨e, hsome, hgoal⟩⟩
  | case4 visited name rest e hsome hgoal fresh ih =>
    rw [passes, hsome] at h
    simp only [if_neg hgoal] at h
    obtain ⟨n, hn, hway⟩ := ih h
    rcases List.mem_append.1 hn with hn | hn
    · have hsuper : n ∈ e.supers := (List.mem_filter.1 hn).1
      exact ⟨name, List.mem_cons_self, .head ⟨e, hsome, hsuper⟩ hway⟩
    · exact ⟨n, List.mem_cons_of_mem _ hn, hway⟩

/-- The search is done with a name: one more link does not lead to the goal, nor to an entity that
    was not met yet. -/
def Explored (m : Model) (goal : Name) (visited : List Name) (n : Name) : Prop :=
  ∀ s, m.Super n s → s ≠ goal ∧ (s ∈ m.names → s ∈ visited)

theorem Explored.mono {goal : Name} {visited visited' : List Name} {n : Name}
    (h : m.Explored goal visited n) (hsub : ∀ s ∈ visited, s ∈ visited') :
    m.Explored goal visited' n :=
  fun s hs => ⟨(h s hs).1, fun hmem => hsub s ((h s hs).2 hmem)⟩

/-- Where all that was met is done with, no way leads on to the goal. -/
theorem no_way_of_explored {goal : Name} {visited : List Name}
    (h : ∀ n ∈ visited, m.Explored goal visited n) {n : Name} (hn : n ∈ visited) :
    ¬ TransGen m.Super n goal := by
  intro hway
  induction hway using TransGen.head_induction_on with
  | single hlink => exact (h _ hn _ hlink).1 rfl
  | head hlink hway ih => exact ih ((h _ hn _ hlink).2 (mem_names_of_transGen hway))

/-- No way leads on from a name that is done with if none does from what was met. -/
theorem Explored.no_way {goal : Name} {visited : List Name} {n : Name}
    (h : m.Explored goal visited n) (hno : ∀ k ∈ visited, ¬ TransGen m.Super k goal) :
    ¬ TransGen m.Super n goal := by
  intro hway
  cases hway using TransGen.head_induction_on with
  | single hlink => exact (h _ hlink).1 rfl
  | head hlink hway => exact hno _ ((h _ hlink).2 (mem_names_of_transGen hway)) hway

/-- A name that is done with can be taken off the stack. -/
theorem Explored.pop {goal name : Name} {visited visited' rest : List Name}
    (h : m.Explored goal visited' name) (hsub : ∀ s ∈ visited, s ∈ visited')
    (hdone : ∀ n ∈ visited, n ∈ name :: rest ∨ m.Explored goal visited n) :
    ∀ n ∈ visited, n ∈ rest ∨ m.Explored goal visited' n := by
  intro n hn
  rcases hdone n hn with hmem | hexplored
  · rcases List.mem_cons.1 hmem with rfl | hmem
    · exact .inr h
    · exact .inl hmem
  · exact .inr (hexplored.mono hsub)

/-- Where the search finds nothing there is nothing, neither from what is on the stack nor from what
    was met before. -/
theorem no_way_of_not_passes {goal : Name} (visited stack : List Name)
    (hdone : ∀ n ∈ visited, n ∈ stack ∨ m.Explored goal visited n)
    (h : m.passes goal visited stack = false) :
    ∀ n, n ∈ stack ∨ n ∈ visited → ¬ TransGen m.Super n goal := by
  induction visited, stack using Model.passes.induct m goal with
  | case1 visited =>
    rintro n (hn | hn)
    · exact absurd hn List.not_mem_nil
    · refine no_way_of_explored (fun k hk => ?_) hn
      exact (hdone k hk).resolve_left List.not_mem_nil
  | case2 visited name rest hnone ih =>
    rw [passes, hnone] at h
    have hname : m.Explored goal visited name := by
      rintro s ⟨e, he, _⟩
      rw [hnone] at he
      contradiction
    have hrest := ih (hname.pop (fun _ hs => hs) hdone) h
    rintro n (hn | hn)
    · rcases List.mem_cons.1 hn with rfl | hn
      · exact hname.no_way fun k hk => hrest k (.inr hk)
      · exact hrest n (.inl hn)
    · exact hrest n (.inr hn)
  | case3 visited name rest e hsome hgoal =>
    rw [passes, hsome] at h
    simp only [if_pos hgoal] at h
    contradiction
  | case4 visited name rest e hsome hgoal fresh ih =>
    rw [passes, hsome] at h
    simp only [if_neg hgoal] at h
    have hlinks : ∀ s, m.Super name s → s ∈ e.supers := by
      rintro s ⟨e', he', hs⟩
      obtain rfl := Option.some.inj (hsome.symm.trans he')
      exact hs
    -- the supers of the name just looked at have now been met
    have hname : m.Explored goal (fresh ++ visited) name := by
      intro s hs
      refine ⟨fun heq => hgoal (heq ▸ hlinks s hs), fun hmem => ?_⟩
      by_cases hvisited : s ∈ visited
      · exact List.mem_append_right _ hvisited
      · refine List.mem_append_left _ (List.mem_filter.2 ⟨hlinks s hs, ?_⟩)
        simpa using ⟨hvisited, hmem⟩
    have hpop := hname.pop (fun s hs => List.mem_append_right _ hs) hdone
    have hnext := ih (fun n hn => by
      rcases List.mem_append.1 hn with hn | hn
      · exact .inl (List.mem_append_left _ hn)
      · exact (hpop n hn).imp_left (List.mem_append_right _)) h
    rintro n (hn | hn)
    · rcases List.mem_cons.1 hn with rfl | hn
      · exact hname.no_way fun k hk => hnext k (.inr hk)
      · exact hnext n (.inl (List.mem_append_right _ hn))
    · exact hnext n (.inr (List.mem_append_right _ hn))

/-- One entity is a special case of another where a way leads up to it. -/
theorem isA_iff {child parent : Name} :
    m.isA child parent = true ↔ TransGen m.Super child parent := by
  constructor
  · intro h
    obtain ⟨n, hn, hway⟩ := exists_way_of_passes [] [child] h
    rwa [List.mem_singleton.1 hn] at hway
  · intro hway
    cases h : m.isA child parent with
    | true => rfl
    | false =>
      refine absurd hway (no_way_of_not_passes [] [child] ?_ h child ?_)
      · exact fun n hn => absurd hn List.not_mem_nil
      · exact .inl (List.mem_singleton_self child)

/-! ## 2. New links -/

/-- The links are noted on both sides and lead in no circle. -/
structure Ranked (m : Model) : Prop where
  known : ∀ e ∈ m.entities, ∀ n, n ∈ e.supers ∨ n ∈ e.subs → n ∈ m.names
  both : ∀ e ∈ m.entities, ∀ o ∈ m.entities, o.name ∈ e.subs ↔ e.name ∈ o.supers
  acyclic : ∀ n, ¬ TransGen m.Super n n

/-- A sub of an entity has it as its super. -/
theorem Ranked.super_of_mem_subs (h : m.Ranked) {name sub : Name} {e : Entity}
    (he : m.entity? name = some e) (hsub : sub ∈ e.subs) : m.Super sub name := by
  have hmem := mem_of_entity?_eq_some he
  obtain rfl := name_of_entity?_eq_some he
  obtain ⟨o, ho⟩ := mem_names_iff.1 (h.known e hmem sub (.inr hsub))
  obtain rfl := name_of_entity?_eq_some ho
  exact ⟨o, ho, (h.both e hmem o (mem_of_entity?_eq_some ho)).1 hsub⟩

/-- Models that have the same entities up to their links. -/
structure SameParts (m m' : Model) : Prop where
  entities : m'.entities.map (fun e => (e.name, e.rule, e.action, e.properties)) =
    m.entities.map fun e => (e.name, e.rule, e.action, e.properties)
  properties : m'.properties = m.properties
  actions : m'.actions = m.actions
  root : m'.root = m.root

theorem SameParts.refl (m : Model) : m.SameParts m :=
  ⟨rfl, rfl, rfl, rfl⟩

theorem SameParts.trans {m'' : Model} (h : m.SameParts m') (h' : m'.SameParts m'') :
    m.SameParts m'' :=
  ⟨h'.entities.trans h.entities, h'.properties.trans h.properties, h'.actions.trans h.actions,
    h'.root.trans h.root⟩

theorem SameParts.names_eq (h : m.SameParts m') : m'.names = m.names := by
  have hnames := congrArg (List.map Prod.fst) h.entities
  rw [List.map_map, List.map_map] at hnames
  exact hnames

/-- Each entity has its counterpart. -/
theorem SameParts.exists_mem (h : m.SameParts m') {e' : Entity} (he' : e' ∈ m'.entities) :
    ∃ e ∈ m.entities, e'.name = e.name ∧ e'.rule = e.rule ∧ e'.action = e.action ∧
      e'.properties = e.properties := by
  have hmem := List.mem_map_of_mem (f := fun e => (e.name, e.rule, e.action, e.properties)) he'
  rw [h.entities] at hmem
  obtain ⟨e, he, heq⟩ := List.mem_map.1 hmem
  simp only [Prod.mk.injEq] at heq
  exact ⟨e, he, heq.1.symm, heq.2.1.symm, heq.2.2.1.symm, heq.2.2.2.symm⟩

/-- An entity with one more link noted, on the side that is its own. -/
def linked (parent child : Name) (e : Entity) : Entity :=
  { e with
    supers := if e.name = child then insertName e.supers parent else e.supers
    subs := if e.name = parent then insertName e.subs child else e.subs }

/-- A new link is noted on both sides. -/
theorem addSuper_addSub (parent child : Name) :
    (m.addSub parent child).addSuper child parent =
      { m with entities := m.entities.map (linked parent child) } := by
  simp only [addSuper, addSub, modifyEntity, List.map_map]
  refine congrArg (fun es => { m with entities := es }) (List.map_congr_left fun e _ => ?_)
  simp only [Function.comp, linked]
  by_cases hp : e.name = parent
  · simp only [if_pos hp]
    by_cases hc : e.name = child
    · simp only [if_pos hc]
    · simp only [if_neg hc]
  · simp only [if_neg hp]
    by_cases hc : e.name = child
    · simp only [if_pos hc]
    · simp only [if_neg hc]

/-- A link can be made between entities neither of which is a special case of the other. -/
theorem register?_of_isA_eq_false {parent child : Name} (hne : parent ≠ child)
    (hsub : m.isA child parent = false) (hsuper : m.isA parent child = false)
    (hparent : parent ∈ m.names) (hchild : child ∈ m.names) :
    m.register? parent child = some ((m.addSub parent child).addSuper child parent) := by
  rw [register?, hsub, hsuper]
  simp [hne, hparent, hchild]

/-- A link cannot be made if it would close a circle. -/
theorem register?_of_isA {parent child : Name} (h : m.isA parent child = true) :
    m.register? parent child = none := by
  rw [register?, if_pos (.inr (.inr (.inl h)))]

/-- The models to which a link may be added. -/
theorem register?_eq_some {parent child : Name} (h : m.register? parent child = some m') :
    m' = { m with entities := m.entities.map (linked parent child) } ∧ parent ≠ child ∧
      ¬ TransGen m.Super parent child ∧ parent ∈ m.names ∧ child ∈ m.names := by
  rw [register?] at h
  split at h
  · contradiction
  · next hfree =>
    simp only [not_or, not_not] at hfree
    obtain ⟨hne, _, hno, hparent, hchild⟩ := hfree
    rw [addSuper_addSub] at h
    exact ⟨(Option.some.inj h).symm, hne, fun hway => hno (isA_iff.2 hway), hparent, hchild⟩

/-- The entities of a model with a new link. -/
theorem entity?_linked {parent child name : Name} :
    Model.entity? { m with entities := m.entities.map (linked parent child) } name =
      (m.entity? name).map (linked parent child) := by
  show List.find? _ (m.entities.map (linked parent child)) = (List.find? _ m.entities).map _
  rw [List.find?_map]
  rfl

/-- The links of a model with a new link. -/
theorem super_linked {parent child x y : Name}
    (h : Super { m with entities := m.entities.map (linked parent child) } x y) :
    m.Super x y ∨ x = child ∧ y = parent := by
  obtain ⟨e', he', hy⟩ := h
  rw [entity?_linked] at he'
  obtain ⟨e, he, rfl⟩ := Option.map_eq_some_iff.1 he'
  have hname := name_of_entity?_eq_some he
  simp only [linked] at hy
  split at hy
  · next hchild =>
    rcases mem_insertName.1 hy with hy | hy
    · exact .inl ⟨e, he, hy⟩
    · exact .inr ⟨hname.symm.trans hchild, hy⟩
  · exact .inl ⟨e, he, hy⟩

/-- The same as an equivalence. -/
theorem super_linked_iff {parent child x y : Name} (hchild : child ∈ m.names) :
    Super { m with entities := m.entities.map (linked parent child) } x y ↔
      m.Super x y ∨ x = child ∧ y = parent := by
  refine ⟨super_linked, ?_⟩
  rintro (⟨e, he, hy⟩ | ⟨rfl, rfl⟩)
  · refine ⟨linked parent child e, by rw [entity?_linked, he, Option.map_some], ?_⟩
    rw [linked]
    split
    · exact mem_insertName.2 (.inl hy)
    · exact hy
  · obtain ⟨e, he⟩ := mem_names_iff.1 hchild
    refine ⟨linked y x e, by rw [entity?_linked, he, Option.map_some], ?_⟩
    rw [linked, if_pos (name_of_entity?_eq_some he)]
    exact mem_insertName.2 (.inr rfl)

/-- A way in a model with a new link goes without it, or up to it and on from it. -/
theorem way_linked {parent child x y : Name}
    (h : TransGen (Super { m with entities := m.entities.map (linked parent child) }) x y) :
    TransGen m.Super x y ∨ (ReflTransGen m.Super x child ∧ ReflTransGen m.Super parent y) := by
  induction h with
  | single hlink =>
    rcases super_linked hlink with hold | ⟨rfl, rfl⟩
    · exact .inl (.single hold)
    · exact .inr ⟨.refl, .refl⟩
  | tail _ hlink ih =>
    rcases super_linked hlink with hold | ⟨rfl, rfl⟩
    · rcases ih with hway | ⟨hx, hy⟩
      · exact .inl (hway.tail hold)
      · exact .inr ⟨hx, hy.tail hold⟩
    · rcases ih with hway | ⟨hx, hy⟩
      · exact .inr ⟨hway.to_reflTransGen, .refl⟩
      · exact .inr ⟨hx, .refl⟩

/-- A new link changes nothing but links. -/
theorem sameParts_linked (parent child : Name) :
    m.SameParts { m with entities := m.entities.map (linked parent child) } := by
  refine ⟨?_, rfl, rfl, rfl⟩
  rw [List.map_map]
  rfl

/-- A new link keeps the order. -/
theorem Ranked.register {parent child : Name} (h : m.Ranked)
    (hreg : m.register? parent child = some m') : m'.Ranked ∧ m.SameParts m' := by
  obtain ⟨rfl, hne, hno, hparent, hchild⟩ := register?_eq_some hreg
  have hsame := m.sameParts_linked parent child
  refine ⟨⟨fun e' he' n hn => ?_, fun e' he' o' ho' => ?_, fun n hcircle => ?_⟩, hsame⟩
  · rw [hsame.names_eq]
    obtain ⟨e, he, rfl⟩ := List.mem_map.1 he'
    simp only [linked] at hn
    rcases hn with hn | hn
    · split at hn
      · rcases mem_insertName.1 hn with hn | rfl
        · exact h.known e he n (.inl hn)
        · exact hparent
      · exact h.known e he n (.inl hn)
    · split at hn
      · rcases mem_insertName.1 hn with hn | rfl
        · exact h.known e he n (.inr hn)
        · exact hchild
      · exact h.known e he n (.inr hn)
  · obtain ⟨e, he, rfl⟩ := List.mem_map.1 he'
    obtain ⟨o, ho, rfl⟩ := List.mem_map.1 ho'
    have hboth := h.both e he o ho
    simp only [linked]
    by_cases hp : e.name = parent <;> by_cases hc : o.name = child
    · simp [hp, hc]
    · simp only [hp, hc, if_true, if_false, mem_insertName, or_false]
      rw [← hp]
      exact hboth
    · simp only [hp, hc, if_true, if_false, mem_insertName, or_false]
      rw [← hc]
      exact hboth
    · simp only [hp, hc, if_false]
      exact hboth
  · rcases way_linked hcircle with hway | ⟨hup, hdown⟩
    · exact h.acyclic n hway
    · rcases Relation.reflTransGen_iff_eq_or_transGen.1 (hdown.trans hup) with heq | hway
      · exact hne heq.symm
      · exact hno hway

/-! ## 3. What the stage asks for -/

/-- The way up from an action depends on the actions only. -/
theorem lineage_congr (h : m'.actions = m.actions) (id : ActionId) :
    m'.lineage id = m.lineage id := by
  induction id using Model.lineage.induct m with
  | case1 id hnone => rw [lineage_eq, lineage_eq, h, hnone]
  | case2 id a ha hparent =>
    rw [lineage_top ha hparent, lineage_top (by rw [h]; exact ha) hparent]
  | case3 id a ha parent hparent hlt ih =>
    rw [lineage_parent ha hparent hlt, lineage_parent (by rw [h]; exact ha) hparent hlt, ih]
  | case4 id a ha parent hparent hlt =>
    rw [lineage_eq, lineage_eq, h, ha]
    simp only [hparent, if_neg hlt]

/-- What an entity lists is listed by any model with the same arenas. -/
theorem Lists.of_eq {key : Name} {id : PropertyId} (h : m.Lists key id)
    (hactions : m'.actions = m.actions) (hproperties : m'.properties = m.properties) :
    m'.Lists key id := by
  have hlinked : ∀ {id p x}, m.Linked id p x → m'.Linked id p x := by
    intro id p x h
    refine ⟨?_, ?_, h.link, ?_, ?_⟩
    · rw [hproperties]
      exact h.property
    · rw [hactions]
      exact h.source
    · rw [lineage_congr hactions]
      exact h.line
    · rw [hactions]
      exact h.around
  obtain ⟨p, x, hpx, hname, hsubs⟩ := h
  refine ⟨p, x, hlinked hpx, hname, fun sub hsub => ?_⟩
  obtain ⟨q, y, hqy⟩ := hsubs sub hsub
  exact ⟨q, y, hlinked hqy⟩

/-- Every entity of a model is orderly after its links have changed. -/
theorem SameParts.orderly (h : m.SameParts m') (horderly : ∀ e ∈ m.entities, m.Orderly e) :
    ∀ e ∈ m'.entities, m'.Orderly e := by
  intro e' he'
  obtain ⟨e, he, _, _, haction, hproperties⟩ := h.exists_mem he'
  refine ⟨fun id hid => ?_, fun key id hmem => ?_⟩
  · rw [h.actions]
    exact (horderly e he).action id (haction ▸ hid)
  · exact ((horderly e he).properties key id (hproperties ▸ hmem)).of_eq h.actions h.properties

/-- Whether a listed property can be filled more than once can be told. -/
theorem Lists.isPlural_ok {key : Name} {id : PropertyId} (h : m.Lists key id) :
    ∃ b, m.isPlural id = .ok b := by
  obtain ⟨p, x, hlinked, _⟩ := h
  obtain ⟨line, hline⟩ := hlinked.line
  refine ⟨line.any (·.2.isPlural), ?_⟩
  simp only [isPlural, bind, Except.bind, property_eq_ok_iff.2 hlinked.property, hline, pure,
    Except.pure]

/-- Whether a listed property may be missing can be told. -/
theorem Lists.isOptional_ok {key : Name} {id : PropertyId} (h : m.Lists key id) :
    ∃ b, m.isOptional id = .ok b := by
  obtain ⟨p, x, hlinked, _⟩ := h
  obtain ⟨line, hline⟩ := hlinked.line
  simp only [isOptional, bind, Except.bind, property_eq_ok_iff.2 hlinked.property, hline, pure,
    Except.pure]
  cases line with
  | nil => exact ⟨_, rfl⟩
  | cons source around => exact ⟨_, rfl⟩

/-- What a listed property refers to can be told. -/
theorem Lists.referencedEntities_ok {key : Name} {id : PropertyId} (h : m.Lists key id) :
    ∃ names, m.referencedEntities id = .ok names := by
  obtain ⟨p, x, hlinked, _, hsubs⟩ := h
  rw [referencedEntities]
  simp only [bind, Except.bind, property_eq_ok_iff.2 hlinked.property]
  cases hkind : p.kind with
  | plain =>
    simp only [action_eq_ok_iff.2 hlinked.source, pure, Except.pure]
    exact ⟨_, rfl⟩
  | proxy subsumed =>
    obtain ⟨targets, htargets⟩ := Checked.exists_mapM (f := m.sourceTarget?) subsumed
      fun sub hsub => by
        obtain ⟨q, y, hqy⟩ := hsubs sub (by rw [Property.subsumed, hkind]; exact hsub)
        refine ⟨y.target?, ?_⟩
        simp only [sourceTarget?, bind, Except.bind, property_eq_ok_iff.2 hqy.property,
          action_eq_ok_iff.2 hqy.source, pure, Except.pure]
    simp only [htargets, pure, Except.pure]
    exact ⟨_, rfl⟩

end Model

end Ebnf
