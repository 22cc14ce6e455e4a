import Ebnf.Proofs.Course
import Ebnf.Proofs.Pairing

/-!
# The same rules in two models

Entities that two models have by the same rules have the same parts, in different places. This holds
of all that one entity leads to, whatever else there is in the models.

* `Plan.Stands.twin`, `Plan.Stands.twin_property`: a plan that stands in two models;
* `Site.Twice.proxies`: both models have the same proxies;
* `Twins`, `Twins.pairs`: the parts of the entities that both models have correspond.
-/

namespace Ebnf

open Build (alternativeName getElem?_idsFrom mem_idsFrom)

/-! ## 1. A plan that stands twice -/

namespace Pairing

/-- Actions and properties that stand in a row in two models correspond one by one, and what they
    refer to counts. -/
structure Spans (w : Pairing) (a a' q q' size width : Nat) (targets : List Name) : Prop where
  action : ∀ k < size, w.action ⟨a + k⟩ ⟨a' + k⟩
  property : ∀ k < width, w.property ⟨q + k⟩ ⟨q' + k⟩
  name : ∀ t ∈ targets, w.name t

variable {w : Pairing} {a a' q q' size size' width width' : Nat} {targets targets' : List Name}

theorem Spans.left
    (h : w.Spans a a' q q' (size + size') (width + width') (targets ++ targets')) :
    w.Spans a a' q q' size width targets where
  action := fun k hk => h.action k (Nat.lt_add_right _ hk)
  property := fun k hk => h.property k (Nat.lt_add_right _ hk)
  name := fun t ht => h.name t (List.mem_append_left _ ht)

theorem Spans.right
    (h : w.Spans a a' q q' (size + size') (width + width') (targets ++ targets')) :
    w.Spans (a + size) (a' + size) (q + width) (q' + width) size' width' targets' where
  action := fun k hk => by
    rw [Nat.add_assoc, Nat.add_assoc]
    exact h.action _ (Nat.add_lt_add_left hk _)
  property := fun k hk => by
    rw [Nat.add_assoc, Nat.add_assoc]
    exact h.property _ (Nat.add_lt_add_left hk _)
  name := fun t ht => h.name t (List.mem_append_right _ ht)

/-- The actions at two places are the same, up to places. Those with children have the properties
    that they are linked to. -/
def Twin (w : Pairing) (m m' : Model) (link link' : ActionId → Option PropertyId) (i i' : Nat) :
    Prop :=
  ∃ x x', m.actions[i]? = some x ∧ m'.actions[i']? = some x' ∧ w.Shapes x x' ∧
    if x.isLeaf then Option.Rel w.property x.property x'.property
    else x.property = link ⟨i⟩ ∧ x'.property = link' ⟨i'⟩

end Pairing

namespace Plan

variable {m m' : Model} {entity : Name} {link link' : ActionId → Option PropertyId} {w : Pairing}

/-- The topmost actions of several plans that stand in a row twice correspond. -/
theorem forall₂_roots {a a' : Nat} {ps : List Plan}
    (h : ∀ k < sizes ps, w.action ⟨a + k⟩ ⟨a' + k⟩) :
    List.Forall₂ w.action (roots a ps) (roots a' ps) := by
  induction ps generalizing a a' with
  | nil => exact .nil
  | cons p ps ih =>
    rw [sizes] at h
    have hpos := p.size_pos
    refine .cons ?_ (ih fun k hk => ?_)
    · rw [Nat.add_sub_assoc hpos, Nat.add_sub_assoc hpos]
      exact h _ (by omega)
    · rw [Nat.add_assoc, Nat.add_assoc]
      exact h _ (Nat.add_lt_add_left hk _)

mutual

/-- The actions of a plan that stands in two models are the same, up to places. -/
theorem Stands.twin {a a' q q' : Nat} {parent parent' : Option ActionId}
    (hparent : Option.Rel w.action parent parent') :
    ∀ {p : Plan}, p.Stands m entity link a q parent → p.Stands m' entity link' a' q' parent' →
      w.Spans a a' q q' p.size p.width p.references →
      ∀ k < p.size, w.Twin m m' link link' (a + k) (a' + k)
  | leaf mods symbol slot, ⟨htop, _⟩, ⟨htop', _⟩, hspans, k, hk => by
    obtain rfl : k = 0 := Nat.lt_one_iff.1 hk
    refine ⟨_, _, htop, htop', ⟨?_, rfl, rfl, rfl, hparent⟩, ?_⟩
    · cases symbol with
      | literal text witness => exact .literal text
      | pattern source => exact .pattern source
      | reference target => exact .entity (hspans.name target (List.mem_singleton_self target))
    · rw [isLeaf_top_leaf, if_pos rfl]
      cases slot with
      | none => exact .none
      | some name => exact .some (hspans.property 0 Nat.one_pos)
  | node mods choice parts, ⟨hparts, htop⟩, ⟨hparts', htop'⟩, hspans, k, hk => by
    have hroots := forall₂_roots fun k hk => hspans.action k (Nat.lt_succ_of_lt hk)
    rcases Nat.lt_succ_iff_lt_or_eq.1 hk with hlt | rfl
    · refine hparts.twin (.some (hspans.action _ (Nat.lt_succ_self _))) hparts' ?_ k hlt
      exact ⟨fun k hk => hspans.action k (Nat.lt_succ_of_lt hk), hspans.property, hspans.name⟩
    · refine ⟨_, _, htop, htop', ⟨?_, rfl, rfl, rfl, hparent⟩, ?_⟩
      · cases choice with
        | false => exact .all hroots
        | true => exact .any hroots
      · have hleaf : Action.isLeaf { (node mods choice parts).top a q parent with
            property := link ⟨a + sizes parts⟩ } = false :=
          isLeaf_top_node mods choice parts a q parent
        rw [hleaf]
        exact ⟨rfl, rfl⟩

theorem StandInRow.twin {a a' q q' : Nat} {parent parent' : Option ActionId}
    (hparent : Option.Rel w.action parent parent') :
    ∀ {ps : List Plan}, StandInRow m entity link a q parent ps →
      StandInRow m' entity link' a' q' parent' ps →
      w.Spans a a' q q' (sizes ps) (slotsOf ps).length (referencesOf ps) →
      ∀ k < sizes ps, w.Twin m m' link link' (a + k) (a' + k)
  | [], _, _, _, k, hk => absurd hk (Nat.not_lt_zero k)
  | p :: ps, ⟨hp, hps⟩, ⟨hp', hps'⟩, hspans, k, hk => by
    rw [sizes, slotsOf, List.length_append, referencesOf] at hspans
    rw [sizes] at hk
    by_cases hlt : k < p.size
    · exact hp.twin hparent hp' hspans.left k hlt
    · have hrest := hps.twin hparent hps' hspans.right (k - p.size) (by omega)
      rw [Nat.add_assoc, Nat.add_assoc, Nat.add_sub_cancel' (Nat.le_of_not_lt hlt)] at hrest
      exact hrest

end

mutual

/-- So are the properties that were made for the leaves, but for their names. -/
theorem Stands.twin_property {a a' q q' : Nat} {parent parent' : Option ActionId} :
    ∀ {p : Plan}, p.Stands m entity link a q parent → p.Stands m' entity link' a' q' parent' →
      ∀ k < p.width, ∃ j < p.size, ∃ name name',
        m.properties[q + k]? = some { name := name, entity := entity, source := ⟨a + j⟩ } ∧
        m'.properties[q' + k]? = some { name := name', entity := entity, source := ⟨a' + j⟩ }
  | leaf mods symbol slot, ⟨_, hslot⟩, ⟨_, hslot'⟩, k, hk => by
    cases slot with
    | none => exact absurd hk (Nat.not_lt_zero k)
    | some asked =>
      obtain rfl : k = 0 := Nat.lt_one_iff.1 hk
      obtain ⟨name, hname⟩ := hslot rfl
      obtain ⟨name', hname'⟩ := hslot' rfl
      exact ⟨0, Nat.one_pos, name, name', hname, hname'⟩
  | node mods choice parts, ⟨hparts, _⟩, ⟨hparts', _⟩, k, hk => by
    obtain ⟨j, hj, hnames⟩ := hparts.twin_property hparts' k hk
    exact ⟨j, Nat.lt_succ_of_lt hj, hnames⟩

theorem StandInRow.twin_property {a a' q q' : Nat} {parent parent' : Option ActionId} :
    ∀ {ps : List Plan}, StandInRow m entity link a q parent ps →
      StandInRow m' entity link' a' q' parent' ps →
      ∀ k < (slotsOf ps).length, ∃ j < sizes ps, ∃ name name',
        m.properties[q + k]? = some { name := name, entity := entity, source := ⟨a + j⟩ } ∧
        m'.properties[q' + k]? = some { name := name', entity := entity, source := ⟨a' + j⟩ }
  | [], _, _, k, hk => absurd hk (Nat.not_lt_zero k)
  | p :: ps, ⟨hp, hps⟩, ⟨hp', hps'⟩, k, hk => by
    rw [slotsOf, List.length_append] at hk
    rw [sizes]
    by_cases hlt : k < p.width
    · obtain ⟨j, hj, hnames⟩ := hp.twin_property hp' k hlt
      exact ⟨j, Nat.lt_add_right _ hj, hnames⟩
    · have hle : p.width ≤ k := Nat.le_of_not_lt hlt
      obtain ⟨j, hj, hnames⟩ := hps.twin_property hps' (k - p.width) (by
        rw [width] at hle ⊢
        omega)
      rw [Nat.add_assoc q, Nat.add_assoc q', Nat.add_sub_cancel' hle, Nat.add_assoc a,
        Nat.add_assoc a'] at hnames
      exact ⟨p.size + j, Nat.add_lt_add_left hj _, hnames⟩

end

end Plan

/-! ## 2. Two sites -/

namespace Site

variable {s s' : Site} {m m' : Model} {e e' : Entity}

/-- The parts of two sites correspond in their order. -/
def alongside (s s' : Site) : Pairing where
  action id id' := ∃ k < s.plan.size, id = ⟨s.action + k⟩ ∧ id' = ⟨s'.action + k⟩
  property id id' := ∃ k < s.plan.width, id = ⟨s.property + k⟩ ∧ id' = ⟨s'.property + k⟩
  name _ := True

/-- An entity stands in two models by the same plan. -/
structure Twice (s s' : Site) (m m' : Model) (e e' : Entity) : Prop where
  hosts : s.Hosts m e
  hosts' : s'.Hosts m' e'
  name : e'.name = e.name
  plan : s'.plan = s.plan

namespace Twice

variable (h : Twice s s' m m' e e')

include h

theorem stands : s.plan.Stands m' e.name s'.link s'.action s'.property none := by
  rw [← h.plan, ← h.name]
  exact h.hosts'.stands

/-- The actions of the two are the same, up to places. -/
theorem twin {k : Nat} (hk : k < s.plan.size) :
    (s.alongside s').Twin m m' s.link s'.link (s.action + k) (s'.action + k) :=
  h.hosts.stands.twin (w := s.alongside s') .none h.stands ⟨fun j hj => ⟨j, hj, rfl, rfl⟩,
    fun j hj => ⟨j, hj, rfl, rfl⟩, fun _ _ => trivial⟩ k hk

/-- The branches of a choice that has a proxy in one model branch off the same place in the
    other. -/
theorem branches {choice : ActionId} {proxy : PropertyId}
    (hproxy : s.proxy = some (choice, proxy)) :
    ∃ k < s.plan.size, choice = ⟨s.action + k⟩ ∧ ∀ j < s.plan.width, ∃ p' x',
      m'.properties[s'.property + j]? = some p' ∧ m'.actions[p'.source.index]? = some x' ∧
      x'.parent = some ⟨s'.action + k⟩ ∧ x'.target?.isSome = true := by
  have hchooses := h.hosts.chooses choice proxy hproxy
  obtain ⟨hle, hlt⟩ := hchooses.within
  rw [fin] at hlt
  refine ⟨choice.index - s.action, by omega, by rw [Nat.add_sub_cancel' hle], fun j hj => ?_⟩
  obtain ⟨p, x, hp, hx, hparent, htarget⟩ := hchooses.branches j hj
  obtain ⟨i, hi, name, name', hproperty, hproperty'⟩ :=
    h.hosts.stands.twin_property h.stands j hj
  obtain rfl := Option.some.inj (hp.symm.trans hproperty)
  obtain ⟨y, x', hy, hx', hshapes, _⟩ := h.twin hi
  obtain rfl := Option.some.inj (hx.symm.trans hy)
  have hrel := hshapes.parent
  rw [hparent] at hrel
  obtain ⟨parent', hparent', k, _, rfl, rfl⟩ := exists_some_of_rel hrel
  refine ⟨_, x', hproperty', hx', ?_, ?_⟩
  · rw [hparent', Nat.add_sub_cancel_left]
  · rw [← hshapes.target?_eq]
    exact htarget

theorem symm : Twice s' s m' m e' e :=
  ⟨h.hosts', h.hosts, h.name.symm, h.plan.symm⟩

/-- Where just one of the models has a proxy, the other one has a choice without. -/
theorem isChoice {choice : ActionId} {proxy : PropertyId} (hproxy : s.proxy = some (choice, proxy))
    (hnone : s'.proxy = none) : ∃ choice', Build.IsChoice m' e' choice' := by
  have hchooses := h.hosts.chooses choice proxy hproxy
  obtain ⟨k, hk, rfl, hbranches⟩ := h.branches hproxy
  refine ⟨⟨s'.action + k⟩, ?_, ?_, fun key id hmem => ?_⟩
  · rw [h.hosts'.current, current_plain hnone]
    refine List.ne_nil_of_length_pos ?_
    rw [List.length_zip, length_names, length_ids, Nat.min_self, h.plan]
    exact hchooses.nonempty
  · obtain ⟨y, hy, hchoice, _⟩ := hchooses.action
    obtain ⟨x, x', hx, hx', hshapes, _⟩ := h.twin hk
    obtain rfl := Option.some.inj (hy.symm.trans hx)
    exact ⟨x', hx', hshapes.isChoice ▸ hchoice⟩
  · rw [h.hosts'.current, current_plain hnone] at hmem
    obtain ⟨j, hj, _, rfl⟩ := mem_zip_names hmem
    obtain ⟨p, x, hlinked⟩ := h.hosts'.linked hj
    obtain ⟨p', x', hp', hx', hparent, htarget⟩ := hbranches j (h.plan ▸ hj)
    obtain rfl := Option.some.inj (hlinked.property.symm.trans hp')
    obtain rfl := Option.some.inj (hlinked.source.symm.trans hx')
    exact ⟨p, x, hlinked, hparent, htarget⟩

/-- Where no choice is left without a proxy, both models have a proxy for the same choice, or
    neither has one. -/
theorem proxies (hno : ∀ choice, ¬ Build.IsChoice m e choice)
    (hno' : ∀ choice, ¬ Build.IsChoice m' e' choice) :
    (s.proxy = none ∧ s'.proxy = none) ∨ ∃ k < s.plan.size, ∃ proxy proxy',
      s.proxy = some (⟨s.action + k⟩, proxy) ∧ s'.proxy = some (⟨s'.action + k⟩, proxy') := by
  cases hproxy : s.proxy with
  | none =>
    cases hproxy' : s'.proxy with
    | none => exact .inl ⟨rfl, rfl⟩
    | some entry =>
      obtain ⟨choice, his⟩ := h.symm.isChoice hproxy' hproxy
      exact absurd his (hno choice)
  | some entry =>
    obtain ⟨choice, proxy⟩ := entry
    cases hproxy' : s'.proxy with
    | none =>
      obtain ⟨choice, his⟩ := h.isChoice hproxy hproxy'
      exact absurd his (hno' choice)
    | some entry' =>
      obtain ⟨choice', proxy'⟩ := entry'
      have hpos := (h.hosts.chooses choice proxy hproxy).nonempty
      obtain ⟨k, hk, rfl, hbranches⟩ := h.branches hproxy
      obtain ⟨p', x', hp', hx', hparent, _⟩ := hbranches 0 hpos
      obtain ⟨q, y, hq, hy, hparent', _⟩ :=
        (h.hosts'.chooses choice' proxy' hproxy').branches 0 (h.plan ▸ hpos)
      obtain rfl := Option.some.inj (hp'.symm.trans hq)
      obtain rfl := Option.some.inj (hx'.symm.trans hy)
      obtain rfl := Option.some.inj (hparent.symm.trans hparent')
      exact .inr ⟨k, hk, proxy, proxy', rfl, rfl⟩

end Twice

end Site

/-! ## 3. All that is reached -/

/-- The children of a plan that is laid down stand below its topmost action. -/
theorem Plan.lt_of_mem_roots {a : Nat} {id : ActionId} {ps : List Plan} (h : id ∈ roots a ps) :
    id.index < a + sizes ps := by
  induction ps generalizing a with
  | nil => exact absurd h List.not_mem_nil
  | cons p ps ih =>
    have hpos := p.size_pos
    rw [sizes]
    rcases List.mem_cons.1 h with rfl | h
    · show a + p.size - 1 < _
      omega
    · have := ih h
      omega

/-- The links of the actions of an entity lead up to younger ones and down to older ones. -/
theorem Site.Hosts.nested {s : Site} {m : Model} {e : Entity} (h : s.Hosts m e) {i : Nat}
    {x : Action} (hi : s.action ≤ i ∧ i < s.fin) (hx : m.actions[i]? = some x) :
    Pairing.Nested ⟨i⟩ x where
  up := fun _ hparent => (h.around hi hx hparent).1
  down := by
    intro child hchild
    obtain ⟨p, a, q, parent, hstands, hsize, _⟩ := h.stands.sub hi.1 hi.2
    cases p with
    | leaf mods symbol slot =>
      obtain rfl : a = i := Nat.succ.inj hsize
      obtain rfl := Option.some.inj (hstands.1.symm.trans hx)
      cases symbol <;> exact absurd hchild List.not_mem_nil
    | node mods choice parts =>
      obtain rfl : a + Plan.sizes parts = i := Nat.succ.inj hsize
      obtain rfl := Option.some.inj (hstands.2.symm.trans hx)
      refine Plan.lt_of_mem_roots ?_
      cases choice <;> exact hchild

/-- The parts of the entities that count correspond in their order, and proxies do. -/
def Pairing.ofSites (R : Name → Prop) (site site' : Name → Site) : Pairing where
  action id id' := ∃ n, R n ∧ ((site n).alongside (site' n)).action id id'
  property id id' := ∃ n, R n ∧ (((site n).alongside (site' n)).property id id' ∨
    ∃ choice choice', (site n).proxy = some (choice, id) ∧ (site' n).proxy = some (choice', id'))
  name := R

/-- Two models have some entities by the same plans, and with them all that they refer to. No choice
    is left without a proxy. -/
structure Twins [Unicode.Xid] (R : Name → Prop) (site site' : Name → Site) (m m' : Model) :
    Prop where
  sited : m.Sited site m.names
  sited' : m'.Sited site' m'.names
  known : ∀ n, R n → n ∈ m.names ∧ n ∈ m'.names
  plan : ∀ n, R n → (site' n).plan = (site n).plan
  onward : ∀ n, R n → ∀ t ∈ (site n).plan.references, R t
  settled : ∀ e ∈ m.entities, ∀ choice, ¬ Build.IsChoice m e choice
  settled' : ∀ e ∈ m'.entities, ∀ choice, ¬ Build.IsChoice m' e choice

namespace Twins

variable {R : Name → Prop} {site site' : Name → Site} {m m' : Model}

/-- An entity that counts stands in both models. -/
theorem exists_twice [Unicode.Xid] (h : Twins R site site' m m') {n : Name} (hn : R n) :
    ∃ e e', m.entity? n = some e ∧ m'.entity? n = some e' ∧
      (site n).Twice (site' n) m m' e e' ∧
      (((site n).proxy = none ∧ (site' n).proxy = none) ∨
        ∃ k < (site n).plan.size, ∃ proxy proxy',
          (site n).proxy = some (⟨(site n).action + k⟩, proxy) ∧
          (site' n).proxy = some (⟨(site' n).action + k⟩, proxy')) := by
  obtain ⟨hin, hin'⟩ := h.known n hn
  obtain ⟨e, he⟩ := Model.mem_names_iff.1 hin
  obtain ⟨e', he'⟩ := Model.mem_names_iff.1 hin'
  have hmem := Model.mem_of_entity?_eq_some he
  have hmem' := Model.mem_of_entity?_eq_some he'
  have hname := Model.name_of_entity?_eq_some he
  have hname' := Model.name_of_entity?_eq_some he'
  have htwice : (site n).Twice (site' n) m m' e e' :=
    ⟨hname ▸ h.sited.hosts_of_mem hmem,
      hname' ▸ h.sited'.hosts_of_mem hmem', hname'.trans hname.symm,
      h.plan n hn⟩
  exact ⟨e, e', he, he', htwice, htwice.proxies (h.settled e hmem) (h.settled' e' hmem')⟩

variable [Unicode.Xid] (h : Twins R site site' m m')

include h

/-- Actions that correspond are the same, up to places. -/
theorem actions {n : Name} (hn : R n) {k : Nat} (hk : k < (site n).plan.size) :
    ∃ x x', m.actions[(site n).action + k]? = some x ∧
      m'.actions[(site' n).action + k]? = some x' ∧
      (Pairing.ofSites R site site').Actions x x' ∧
      Pairing.Nested ⟨(site n).action + k⟩ x ∧ Pairing.Nested ⟨(site' n).action + k⟩ x' := by
  obtain ⟨e, e', _, _, htwice, hproxies⟩ := h.exists_twice hn
  have hspans : (Pairing.ofSites R site site').Spans (site n).action (site' n).action
      (site n).property (site' n).property (site n).plan.size (site n).plan.width
      (site n).plan.references :=
    ⟨fun j hj => ⟨n, hn, j, hj, rfl, rfl⟩, fun j hj => ⟨n, hn, .inl ⟨j, hj, rfl, rfl⟩⟩,
      h.onward n hn⟩
  obtain ⟨x, x', hx, hx', hshapes, hproperty⟩ :=
    htwice.hosts.stands.twin .none htwice.stands hspans k hk
  refine ⟨x, x', hx, hx', ⟨hshapes, ?_⟩, ?_, ?_⟩
  · split at hproperty
    · exact hproperty
    · rw [hproperty.1, hproperty.2]
      rcases hproxies with ⟨hnone, hnone'⟩ | ⟨j, hj, proxy, proxy', hproxy, hproxy'⟩
      · rw [Site.link_plain hnone, Site.link_plain hnone']
        exact .none
      · rw [Site.link_proxy hproxy, Site.link_proxy hproxy']
        by_cases hkj : k = j
        · rw [if_pos (by rw [hkj]), if_pos (by rw [hkj])]
          exact .some ⟨n, hn, .inr ⟨_, _, hproxy, hproxy'⟩⟩
        · rw [if_neg (by simpa using hkj), if_neg (by simpa using hkj)]
          exact .none
  · exact htwice.hosts.nested ⟨Nat.le_add_right .., Nat.add_lt_add_left hk _⟩ hx
  · refine htwice.hosts'.nested ⟨Nat.le_add_right .., ?_⟩ hx'
    rw [Site.fin, htwice.plan]
    exact Nat.add_lt_add_left hk _

/-- So are properties. -/
theorem properties {n : Name} (hn : R n) {k : Nat} (hk : k < (site n).plan.width) :
    ∃ p p', m.properties[(site n).property + k]? = some p ∧
      m'.properties[(site' n).property + k]? = some p' ∧
      (Pairing.ofSites R site site').Properties p p' := by
  obtain ⟨e, e', _, _, htwice, _⟩ := h.exists_twice hn
  obtain ⟨j, hj, name, name', hp, hp'⟩ :=
    htwice.hosts.stands.twin_property htwice.stands k hk
  have hlt : k < (site n).names.length := by rwa [Site.length_names]
  have hname : (site n).names[k]? = some (site n).names[k] := List.getElem?_eq_getElem hlt
  have hname' : (site' n).names[k]? = some (site n).names[k] := by
    rw [Site.names, htwice.plan]
    exact hname
  obtain ⟨q, hq, hqname⟩ := htwice.hosts.named k _ hname
  obtain ⟨q', hq', hqname'⟩ := htwice.hosts'.named k _ hname'
  obtain rfl := Option.some.inj (hp.symm.trans hq)
  obtain rfl := Option.some.inj (hp'.symm.trans hq')
  exact ⟨_, _, hp, hp', hqname.trans hqname'.symm, rfl, ⟨n, hn, j, hj, rfl, rfl⟩, .plain⟩

/-- The properties made for the leaves correspond in their order. -/
theorem forall₂_entries {n : Name} (hn : R n) :
    List.Forall₂ (fun entry entry' => entry.1 = entry'.1 ∧
      (Pairing.ofSites R site site').property entry.2 entry'.2)
      ((site n).names.zip (site n).ids) ((site' n).names.zip (site' n).ids) := by
  have hplan := h.plan n hn
  have hnames : (site' n).names = (site n).names := by rw [Site.names, Site.names, hplan]
  refine forall₂_of_getElem? ?_ fun k x y hx hy => ?_
  · simp only [List.length_zip, Site.length_names, Site.length_ids, hplan]
  · obtain ⟨hkey, hid⟩ := List.getElem?_zip_eq_some.1 hx
    obtain ⟨hkey', hid'⟩ := List.getElem?_zip_eq_some.1 hy
    have hk : k < (site n).plan.width := by
      rw [← Site.length_names]
      exact (List.getElem?_eq_some_iff.1 hkey).1
    rw [Site.ids, getElem?_idsFrom hk] at hid
    rw [Site.ids, getElem?_idsFrom (hplan ▸ hk)] at hid'
    rw [hnames] at hkey'
    exact ⟨Option.some.inj (hkey.symm.trans hkey'), n, hn, .inl ⟨k, hk,
      (Option.some.inj hid).symm, (Option.some.inj hid').symm⟩⟩

/-- So are proxies. -/
theorem proxies {n : Name} (hn : R n) {choice choice' : ActionId} {proxy proxy' : PropertyId}
    (hproxy : (site n).proxy = some (choice, proxy))
    (hproxy' : (site' n).proxy = some (choice', proxy')) :
    ∃ p p', m.properties[proxy.index]? = some p ∧ m'.properties[proxy'.index]? = some p' ∧
      (Pairing.ofSites R site site').Properties p p' := by
  obtain ⟨e, e', _, _, htwice, ⟨hnone, _⟩ | ⟨k, hk, q, q', hq, hq'⟩⟩ := h.exists_twice hn
  · rw [hproxy] at hnone
    contradiction
  · obtain ⟨rfl, rfl⟩ := Prod.mk.inj (Option.some.inj (hproxy.symm.trans hq))
    obtain ⟨rfl, rfl⟩ := Prod.mk.inj (Option.some.inj (hproxy'.symm.trans hq'))
    refine ⟨_, _, (htwice.hosts.chooses _ _ hproxy).property,
      (htwice.hosts'.chooses _ _ hproxy').property, rfl, htwice.name.symm, ⟨n, hn, k, hk, rfl, rfl⟩,
      .proxy ?_⟩
    have hsnd : ∀ s : Site, (s.names.zip s.ids).map Prod.snd = s.ids := fun s =>
      List.map_snd_zip (Nat.le_of_eq (by rw [Site.length_ids, Site.length_names]))
    rw [← hsnd (site n), ← hsnd (site' n), List.forall₂_map_left_iff, List.forall₂_map_right_iff]
    exact (h.forall₂_entries hn).imp fun _ _ hentry => hentry.2

/-- So are entities. -/
theorem entities {n : Name} (hn : R n) :
    ∃ e e', m.entity? n = some e ∧ m'.entity? n = some e' ∧
      (Pairing.ofSites R site site').Entities e e' := by
  obtain ⟨e, e', he, he', htwice, hproxies⟩ := h.exists_twice hn
  have hpos := (site n).plan.size_pos
  refine ⟨e, e', he, he', ?_, ?_⟩
  · rw [htwice.hosts.action, htwice.hosts'.action, htwice.plan, Nat.add_sub_assoc hpos,
      Nat.add_sub_assoc hpos]
    exact .some ⟨n, hn, _, Nat.sub_lt hpos Nat.one_pos, rfl, rfl⟩
  · rw [htwice.hosts.current, htwice.hosts'.current]
    rcases hproxies with ⟨hnone, hnone'⟩ | ⟨k, hk, proxy, proxy', hproxy, hproxy'⟩
    · rw [Site.current_plain hnone, Site.current_plain hnone']
      exact h.forall₂_entries hn
    · rw [Site.current_proxy hproxy, Site.current_proxy hproxy']
      exact .cons ⟨rfl, n, hn, .inr ⟨_, _, hproxy, hproxy'⟩⟩ .nil

/-- All that belongs to entities that count corresponds. -/
theorem pairs : (Pairing.ofSites R site site').Pairs m m' where
  action := by
    rintro _ _ ⟨n, hn, k, hk, rfl, rfl⟩
    exact h.actions hn hk
  property := by
    rintro _ _ ⟨n, hn, ⟨k, hk, rfl, rfl⟩ | ⟨choice, choice', hproxy, hproxy'⟩⟩
    · exact h.properties hn hk
    · exact h.proxies hn hproxy hproxy'
  entity := h.entities

end Twins

end Ebnf
