import Ebnf.Proofs.Registration
import Ebnf.Proofs.Reordering
import Ebnf.Proofs.Typing

/-!
# The links of a built model

The stage of the special cases makes a link where an entity that the root leads to has nothing but
one reference or one choice between references, and nowhere else. Once it has been carried out there
is nothing left to link: an entity is in order with all that it might have for subs, so that the
stage changes nothing any more.

* `Build.Reached.leads_iff`: properties refer to what the rules refer to;
* `Build.Surveyed.ensures_hierarchy_again`: the stage once more;
* `links_justified_complete_stable`: why there are links, which there are, and that they stay.
-/

namespace Ebnf

open Relation (ReflTransGen)

/-! ## 1. References of rules and of properties -/

namespace Plan

theorem symbolsOf_eq_flatMap (ps : List Plan) : symbolsOf ps = ps.flatMap symbols := by
  induction ps with
  | nil => rfl
  | cons p ps ih => rw [symbolsOf, List.flatMap_cons, ih]

@[simp] theorem symbols_withMods (f : Modifiers → Modifiers) (p : Plan) :
    (p.withMods f).symbols = p.symbols := by
  cases p <;> rfl

end Plan

/-- Every reference of an expression yields a value. -/
theorem Expr.mem_symbols_plan [Unicode.Xid] {entity t : Name} (e : Expr) :
    ∀ place, Symbol.reference t ∈ (e.plan entity place).symbols ↔ t ∈ e.references := by
  have hparts : ∀ (es : List Expr) (place : Build.Place),
      (∀ e ∈ es, ∀ place, Symbol.reference t ∈ (e.plan entity place).symbols ↔ t ∈ e.references) →
      (Symbol.reference t ∈ Plan.symbolsOf (es.map (Expr.plan entity place)) ↔
        t ∈ es.flatMap Expr.references) := by
    intro es place h
    rw [Plan.symbolsOf_eq_flatMap, List.flatMap_map, List.mem_flatMap, List.mem_flatMap]
    exact exists_congr fun e => and_congr_right fun he => h e he place
  induction e using Expr.chainInduction with
  | choice left right ih =>
    intro place
    rw [Expr.plan_choice, Plan.symbols, hparts _ _ ih, List.flatMap_append,
      Expr.flatMap_references_alternatives, Expr.flatMap_references_alternatives, Expr.references]
  | sequence left right ih =>
    intro place
    rw [Expr.plan_sequence, Plan.symbols, hparts _ _ ih, List.flatMap_append,
      Expr.flatMap_references_members, Expr.flatMap_references_members, Expr.references]
  | optional inner ih =>
    intro place
    rw [Expr.plan, Plan.symbols_withMods, ih, Expr.references]
  | repetition inner ih =>
    intro place
    rw [Expr.plan, Plan.symbols_withMods, ih, Expr.references]
  | group inner ih =>
    intro place
    rw [Expr.plan, ih, Expr.references]
  | reference label target =>
    intro place
    simp [Expr.plan, Plan.symbols, Expr.references]
  | literal label text =>
    intro place
    simp [Expr.plan, Plan.symbols, Expr.references]
  | pattern label source =>
    intro place
    simp [Expr.plan, Plan.symbols, Expr.references]

variable {g : Grammar} {m : Model} {n t : Name}

/-- The properties of an entity refer to what its leaves read. -/
theorem Site.Hosts.leads_iff {s : Site} {e : Entity} (h : s.Hosts m e)
    (he : m.entity? e.name = some e) : m.Leads e.name t ↔ .reference t ∈ s.plan.symbols := by
  constructor
  · rintro ⟨e', id, he', hid, hrefers⟩
    obtain rfl := Option.some.inj (he.symm.trans he')
    obtain ⟨⟨key, id⟩, hmem, rfl⟩ := List.mem_map.1 hid
    obtain ⟨place, hplace⟩ := List.mem_iff_getElem?.1 hmem
    obtain ⟨k, hk, _⟩ := (h.refers_iff hplace).1 hrefers
    exact List.mem_of_getElem? hk
  · intro hmem
    obtain ⟨k, hk⟩ := List.mem_iff_getElem?.1 hmem
    obtain ⟨f, _, _, hlt⟩ := exists_filler hk
    obtain ⟨place, key, id, hdest, hplace⟩ := h.exists_place hlt
    exact ⟨e, id, he, List.mem_map_of_mem (List.mem_of_getElem? hplace),
      (h.refers_iff hplace).2 ⟨k, hk, hdest⟩⟩

/-- A property that is filled by a reference is no proxy. -/
theorem Site.Hosts.not_isProxy {s : Site} {e : Entity} (h : s.Hosts m e) {key : Name}
    {id : PropertyId} (hmem : (key, id) ∈ e.properties) {p : Property} (hp : m.property id = .ok p)
    (htarget : m.sourceTarget? id = .ok (some t)) : p.isProxy = false := by
  obtain ⟨place, hplace⟩ := List.mem_iff_getElem?.1 hmem
  rw [Model.property_eq_ok_iff] at hp
  cases hproxy : s.proxy with
  | none =>
    obtain ⟨hlt, rfl⟩ := h.place_plain hproxy hplace
    obtain ⟨f, i, x, _, hfills⟩ := h.exists_slot hlt
    obtain ⟨name, hproperty⟩ := hfills.property
    obtain rfl := Option.some.inj (hproperty.symm.trans hp)
    rfl
  | some entry =>
    obtain ⟨choice, proxy⟩ := entry
    obtain ⟨rfl, rfl⟩ := h.place_proxy hproxy hplace
    obtain ⟨y, hlinked, hchoice⟩ := h.linked_proxy hproxy
    obtain ⟨p', x, hp', hx, hreads⟩ := Model.sourceTarget?_eq_ok htarget
    rw [Model.property_eq_ok_iff, hlinked.property] at hp'
    obtain rfl := Option.some.inj hp'
    rw [Model.action_eq_ok_iff, hlinked.source] at hx
    obtain rfl := Option.some.inj hx
    -- a choice reads no entity itself
    rw [Action.isChoice] at hchoice
    rw [Action.target?] at hreads
    split at hreads
    · next hkind => rw [hkind] at hchoice; contradiction
    · contradiction

namespace Build

/-- The properties of a built model refer to what the rules refer to. -/
theorem Reached.leads_iff [Unicode.Xid] (h : Reached g m True) : m.Leads n t ↔ g.Refers n t := by
  obtain ⟨site, hsited⟩ := h.bodies trivial
  have hplan : ∀ e r, m.entity? n = some e → g.rule? n = some r →
      (m.Leads n t ↔ t ∈ r.body.references) := by
    intro e r he hr
    have hname := Model.name_of_entity?_eq_some he
    subst hname
    rw [(hsited.hosts_of_mem (Model.mem_of_entity?_eq_some he)).leads_iff he,
      h.plan_eq hsited hr, Expr.mem_symbols_plan]
  constructor
  · intro hleads
    obtain ⟨e, _, he, _⟩ := id hleads
    obtain ⟨r, hr⟩ := (h.rules.names n).1 (Model.mem_names_iff.2 ⟨e, he⟩)
    exact ⟨r, hr, (hplan e r he hr).1 hleads⟩
  · rintro ⟨r, hr, ht⟩
    obtain ⟨e, he⟩ := Model.mem_names_iff.1 ((h.rules.names n).2 ⟨r, hr⟩)
    exact (hplan e r he hr).2 ht

/-- The root of a built model leads to what the first rule leads to. -/
theorem Reached.reachable_iff [Unicode.Xid] (h : Reached g m True) :
    m.Reachable n ↔ g.Reachable n := by
  have hsteps : m.Leads = g.Refers := by
    funext x y
    exact propext h.leads_iff
  rw [Model.Reachable, Grammar.Reachable, hsteps, h.rules.root]
  simp only [Option.map_eq_some_iff]
  constructor
  · rintro ⟨_, ⟨root, hroot, rfl⟩, hway⟩
    exact ⟨root, hroot, hway⟩
  · rintro ⟨root, hroot, hway⟩
    exact ⟨root.name, ⟨root, hroot, rfl⟩, hway⟩

/-! ## 2. The stage once more -/

/-- A walk over entities that are in order with all they might be linked to changes nothing. -/
theorem carries_same (hresolved : ∀ n, m.Reachable n → m.Resolved n) :
    Carries fun m' _ stack => m' = m ∧ ∀ n ∈ stack, m.Reachable n where
  look := by
    rintro _ m' name visited rest next ⟨rfl, hstack⟩ hlooks
    have hname := hstack name List.mem_cons_self
    refine ⟨hlooks.eq_self (hresolved name hname), fun n hn => ?_⟩
    rcases List.mem_append.1 hn with hnext | hrest
    · exact hname.leads (hlooks.leads hnext)
    · exact hstack n (List.mem_cons_of_mem _ hrest)
  pass := fun ⟨hsame, hstack⟩ _ => ⟨hsame, fun n hn => hstack n (List.mem_cons_of_mem _ hn)⟩

/-- The stage of the special cases changes nothing once it has been carried out. -/
theorem Surveyed.ensures_hierarchy_again [Unicode.Xid] (h : Surveyed m)
    (hreached : Reached g m True) {d : Draft} {E : BuildStop → Prop} (hd : d.model = m) :
    Ensures Build.hierarchy d E fun _ d' => d'.model = m := by
  subst hd
  refine (ensures_hierarchy_carries (carries_same fun n => h.resolved hreached) hreached.orderly
    ⟨rfl, fun n hn => ⟨n, Option.mem_toList.1 hn, .refl⟩⟩).mono (fun _ h => h)
    fun _ d' ⟨_, hsame, _⟩ => hsame

/-- The same for any number of times. -/
theorem Surveyed.run_again [Unicode.Xid] (h : Surveyed m) (hreached : Reached g m True) (k : Nat) :
    (Build.run ((List.replicate k Stage.hierarchy).forM Stage.run) m).1 = .ok m := by
  have hkeep : Ensures ((List.replicate k Stage.hierarchy).forM Stage.run) { model := m }
      (fun _ => False) fun _ d' => d'.model = m := by
    refine ensures_forM_keep (I := fun d => d.model = m) (fun s hs d hd => ?_) rfl
    obtain rfl := List.eq_of_mem_replicate hs
    exact h.ensures_hierarchy_again hreached hd
  have hrun := hkeep.run (Q := fun m' => m' = m)
  split at hrun
  · next m' hok => rw [hok, hrun]
  · exact hrun.elim

end Build

/-! ## 3. Links -/

namespace Model.Resolved

variable {id : PropertyId} {p : Property}

/-- What a choice between references offers is in order with the entity. -/
theorem of_proxy (h : m.Resolved n) (honly : m.Only n id) (hsingle : m.isPlural id = .ok false)
    (hp : m.property id = .ok p) (hproxy : p.isProxy = true) (hrefers : m.Refers id t) :
    m.Comparable n t := by
  rcases h t ⟨id, honly, hsingle, hrefers⟩ with hcomparable | hspares
  · exact hcomparable.symm
  · obtain ⟨id', p', honly', hp', hplain, _⟩ := hspares
    obtain rfl := honly.unique honly'
    obtain rfl := Except.ok.inj (hp.symm.trans hp')
    rw [hproxy] at hplain
    contradiction

/-- What is more than a mere text is in order with the entity. -/
theorem of_wraps (h : m.Resolved n) (honly : m.Only n id) (hsingle : m.isPlural id = .ok false)
    (hrefers : m.Refers id t) (hwraps : Build.wrapsTerminal m t = .ok false) :
    m.Comparable n t := by
  rcases h t ⟨id, honly, hsingle, hrefers⟩ with hcomparable | hspares
  · exact hcomparable.symm
  · obtain ⟨_, _, _, _, _, htext, _⟩ := hspares
    rw [hwraps] at htext
    contradiction

end Model.Resolved

/-- A reference that fills a property is one to which the property refers. -/
theorem Build.Reached.refers_of_sourceTarget? [Unicode.Xid] (h : Build.Reached g m True)
    {id : PropertyId} (honly : m.Only n id) (htarget : m.sourceTarget? id = .ok (some t)) :
    m.Refers id t := by
  obtain ⟨site, hsited⟩ := h.bodies trivial
  obtain ⟨e, he, hids⟩ := honly
  obtain ⟨⟨key, id⟩, hentry, rfl⟩ := List.mem_map.1
    (show id ∈ e.properties.ids from hids ▸ List.mem_singleton_self id)
  obtain ⟨p, x, hp, hx, hreads⟩ := Model.sourceTarget?_eq_ok htarget
  have hosts := hsited.hosts_of_mem (Model.mem_of_entity?_eq_some he)
  exact (Model.refers_plain hp (hosts.not_isProxy hentry hp htarget) hx).2 hreads

/-- A built model has just the links it should. Each leads up to an entity that the root leads to,
    and whose only property does not repeat and refers to the sub. An entity that the root leads to
    is in order with all that such a property refers to, if it is a proxy, or if what it reads is
    more than a mere text. And the stage that makes the links changes nothing any more, however
    often it is carried out again. -/
theorem links_justified_complete_stable [Unicode.Xid] (h : Model.ofGrammar g = .ok m) :
    (∀ parent child, m.Super child parent ∨ m.Sub parent child →
      g.Reachable parent ∧ ∃ id, m.Only parent id ∧ m.isPlural id = .ok false ∧
        m.Refers id child) ∧
    (∀ n id p, g.Reachable n → m.Only n id → m.isPlural id = .ok false → m.property id = .ok p →
      (p.isProxy = true → ∀ t, m.Refers id t → m.Comparable n t) ∧
      ∀ t, m.sourceTarget? id = .ok (some t) → Build.wrapsTerminal m t = .ok false →
        m.Comparable n t) ∧
    ∀ k, (Build.run ((List.replicate k Build.Stage.hierarchy).forM Build.Stage.run) m).1 =
      .ok m := by
  obtain ⟨hreached, hsurveyed⟩ := Build.reached_ofGrammar h
  refine ⟨fun parent child hlink => ?_, fun n id p hn honly hsingle hp => ?_,
    hsurveyed.run_again hreached⟩
  · have hsuper : m.Super child parent :=
      hlink.elim (fun hsuper => hsuper) (hreached.ranked.strict.mirrored child parent).2
    obtain ⟨hreach, hoffers⟩ := hsurveyed.made child parent hsuper
    exact ⟨hreached.reachable_iff.1 hreach, hoffers⟩
  · have hresolved := hsurveyed.resolved hreached (hreached.reachable_iff.2 hn)
    exact ⟨fun hproxy _ hrefers => hresolved.of_proxy honly hsingle hp hproxy hrefers,
      fun _ htarget hwraps => hresolved.of_wraps honly hsingle
        (hreached.refers_of_sourceTarget? honly htarget) hwraps⟩

/-- Pairs whose parts refer to each other have a link from the right part up to the left one, which
    the right one offers to no purpose: it is in order with the left one already. -/
theorem links_justified_complete_stable_circle :
    Model.ofGrammar Circle.grammar = .ok Circle.model ∧
    (Circle.model.Super "right" "left" ∧ Circle.grammar.Reachable "left" ∧
      ∃ id, Circle.model.Only "left" id ∧ Circle.model.isPlural id = .ok false ∧
        Circle.model.Refers id "right") ∧
    (Circle.grammar.Reachable "right" ∧ Circle.model.Only "right" ⟨8⟩ ∧
      Circle.model.isPlural ⟨8⟩ = .ok false ∧ Circle.model.Refers ⟨8⟩ "left" ∧
      Circle.model.Comparable "right" "left") ∧
    (Build.run ((List.replicate 2 Build.Stage.hierarchy).forM Build.Stage.run) Circle.model).1 =
      .ok Circle.model := by
  obtain ⟨hjustified, hcomplete, hstable⟩ := links_justified_complete_stable Circle.ofGrammar_eq
  have hlink : Circle.model.Super "right" "left" := ⟨_, rfl, by decide⟩
  have honly : Circle.model.Only "right" ⟨8⟩ := ⟨_, rfl, rfl⟩
  have hsingle : Circle.model.isPlural ⟨8⟩ = .ok false := by cbv
  have hrefers : Circle.model.Refers ⟨8⟩ "left" := ⟨["word", "left"], rfl, by decide⟩
  have hright : Circle.grammar.Reachable "right" :=
    ⟨_, rfl, .single ⟨_, rfl, by decide⟩⟩
  have hmet := (hcomplete "right" ⟨8⟩ _ hright honly hsingle rfl).1 rfl "left" hrefers
  exact ⟨Circle.ofGrammar_eq, ⟨hlink, hjustified _ _ (.inl hlink)⟩,
    ⟨hright, honly, hsingle, hrefers, hmet⟩, hstable 2⟩

end Ebnf
