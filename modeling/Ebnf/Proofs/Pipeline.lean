import Ebnf.Build.Pipeline
import Ebnf.Proofs.Links

/-!
# Stages in any order

The stages after the first may be carried out in any order and any number of times. What holds of a
model between two of them depends only on whether the bodies have been made yet.

* `Build.Stage`, `Build.stages`: the stages, and any number of them after the first;
* `Build.Reached`: what holds between two stages;
* `ensures_stages`: it holds after all of them;
* `ensures_grammar`: what building a model in the usual order leads to;
* `ofGrammar_of_walk`: the model that it leads to, by the walk of its last stage.
-/

namespace Ebnf

open Relation (TransGen)

namespace Model

variable {m m' : Model} {g : Grammar}

/-! ## 1. What a stage leaves alone -/

/-- Entities that differ in their bodies only have the same links. -/
theorem SameKin.super (h : m.SameKin m') {x y : Name} (hlink : m'.Super x y) : m.Super x y := by
  have hkin : (m'.entity? x).map Entity.kin = (m.entity? x).map Entity.kin := by
    have hfind := congrArg (List.find? fun k => k.1 = x) h.kin
    rw [List.find?_map, List.find?_map] at hfind
    exact hfind
  obtain ⟨e', he', hy⟩ := hlink
  rw [he', Option.map_some] at hkin
  obtain ⟨e, he, heq⟩ := Option.map_eq_some_iff.1 hkin.symm
  have hsupers : e.supers = e'.supers := congrArg (fun k => k.2.2.1) heq
  exact ⟨e, he, hsupers ▸ hy⟩

theorem Ranked.of_sameKin (h : m.Ranked) (hkin : m.SameKin m') : m'.Ranked where
  known := by
    intro e' he' n hn
    obtain ⟨e, he, heq⟩ := hkin.exists_mem he'
    have hsupers : e.supers = e'.supers := congrArg (fun k => k.2.2.1) heq
    have hsubs : e.subs = e'.subs := congrArg (fun k => k.2.2.2) heq
    rw [hkin.names_eq]
    exact h.known e he n (by rw [hsupers, hsubs]; exact hn)
  both := by
    intro e' he' o' ho'
    obtain ⟨e, he, heq⟩ := hkin.exists_mem he'
    obtain ⟨o, ho, hoq⟩ := hkin.exists_mem ho'
    have hname : e.name = e'.name := congrArg Prod.fst heq
    have hsubs : e.subs = e'.subs := congrArg (fun k => k.2.2.2) heq
    have honame : o.name = o'.name := congrArg Prod.fst hoq
    have hosupers : o.supers = o'.supers := congrArg (fun k => k.2.2.1) hoq
    rw [← hname, ← hsubs, ← honame, ← hosupers]
    exact h.both e he o ho
  acyclic := fun n hcircle => h.acyclic n (TransGen.lift id (fun _ _ => hkin.super) _ _ hcircle)

theorem OfRules.of_sameParts (h : m.OfRules g) (hparts : m.SameParts m') : m'.OfRules g where
  nodup := hparts.names_eq ▸ h.nodup
  names := hparts.names_eq ▸ h.names
  rule := by
    intro e' he'
    obtain ⟨e, he, hname, hrule, _⟩ := hparts.exists_mem he'
    rw [hrule, hname]
    exact h.rule e he
  root := hparts.root.trans h.root

theorem Sited.of_sameParts [Unicode.Xid] {site : Name → Site} {done : List Name}
    (h : m.Sited site done) (hparts : m.SameParts m') : m'.Sited site done where
  known := by
    rw [hparts.names_eq]
    exact h.known
  hosts := by
    intro e' he' hdone
    obtain ⟨e, he, hname, _, haction, hproperties⟩ := hparts.exists_mem he'
    rw [hname] at hdone ⊢
    refine ((h.hosts e he hdone).congr (fun i _ _ => ?_) fun k p hp => ?_).of_eq hname haction
      hproperties
    · rw [hparts.actions]
    · rw [hparts.properties]
      exact hp
  plan := by
    intro e' he' hdone
    obtain ⟨e, he, hname, hrule, _⟩ := hparts.exists_mem he'
    rw [hname] at hdone ⊢
    rw [hrule]
    exact h.plan e he hdone
  apart := h.apart

end Model

namespace Build

variable {g : Grammar} {m m' : Model}

theorem Bodiless.of_sameParts (h : Bodiless m) (hparts : m.SameParts m') : Bodiless m' where
  entities := by
    intro e' he'
    obtain ⟨e, he, _, _, haction, hproperties⟩ := hparts.exists_mem he'
    rw [haction, hproperties]
    exact h.entities e he
  actions := hparts.actions.trans h.actions
  properties := hparts.properties.trans h.properties

/-- New entities have no links. -/
theorem Bare.no_link (h : Bare m) (x y : Name) : ¬ m.Super x y := by
  rintro ⟨e, he, hy⟩
  obtain ⟨r, rfl⟩ := h.entities e (Model.mem_of_entity?_eq_some he)
  exact absurd hy List.not_mem_nil

theorem Bare.ranked (h : Bare m) : m.Ranked where
  known := by
    intro e he n hn
    obtain ⟨r, rfl⟩ := h.entities e he
    rcases hn with hn | hn <;> exact absurd hn List.not_mem_nil
  both := by
    intro e he o ho
    obtain ⟨r, rfl⟩ := h.entities e he
    obtain ⟨r', rfl⟩ := h.entities o ho
    exact ⟨fun hn => absurd hn List.not_mem_nil, fun hn => absurd hn List.not_mem_nil⟩
  acyclic := by
    intro n hcircle
    cases hcircle with
    | single hlink => exact h.no_link _ _ hlink
    | tail _ hlink => exact h.no_link _ _ hlink

/-! ## 2. Any number of stages -/

/-- A stage that may follow the stage of the entities. -/
inductive Stage where
  /-- The bodies of all rules are made. -/
  | bodies
  /-- Choices between entities get one property. -/
  | alternatives
  /-- Special cases are linked. -/
  | hierarchy
deriving DecidableEq, Repr

/-- Carries out a stage. -/
def Stage.run [Unicode.Xid] : Stage → Build Unit
  | bodies => Build.bodies
  | alternatives => Build.alternatives
  | hierarchy => Build.hierarchy

/-- The stage of the entities, and others after it. -/
def stages [Unicode.Xid] (g : Grammar) (ss : List Stage) : Build Unit := do
  skeleton g
  ss.forM Stage.run

/-- What holds of a model between two stages. `built` tells whether the bodies have been made. -/
structure Reached [Unicode.Xid] (g : Grammar) (m : Model) (built : Prop) : Prop where
  rules : m.OfRules g
  closed : m.Closed
  ranked : m.Ranked
  bodies : built → ∃ site, m.Sited site m.names
  bodiless : ¬ built → Bodiless m

/-- Every entity is orderly between two stages. -/
theorem Reached.orderly [Unicode.Xid] {built : Prop} (h : Reached g m built) :
    ∀ e ∈ m.entities, m.Orderly e := by
  intro e he
  by_cases hbuilt : built
  · obtain ⟨site, hsited⟩ := h.bodies hbuilt
    exact (hsited.hosts_of_mem he).orderly
  · exact (h.bodiless hbuilt).orderly e he

theorem Reached.congr [Unicode.Xid] {built built' : Prop} (h : Reached g m built)
    (heq : built ↔ built') :
    Reached g m built' where
  rules := h.rules
  closed := h.closed
  ranked := h.ranked
  bodies := fun hbuilt => h.bodies (heq.2 hbuilt)
  bodiless := fun hbuilt => h.bodiless fun h' => hbuilt (heq.1 h')

/-- Once the bodies stand, only these may have changed. -/
theorem Reached.of_sameKin [Unicode.Xid] {built : Prop} {site : Name → Site} (h : Reached g m built)
    (hkin : m.SameKin m') (hclosed : m'.Closed) (hsited : m'.Sited site m'.names) :
    Reached g m' True where
  rules := h.rules.of_sameKin hkin
  closed := hclosed
  ranked := h.ranked.of_sameKin hkin
  bodies := fun _ => ⟨site, hsited⟩
  bodiless := fun hno => absurd trivial hno

/-- The first stage. -/
theorem ensures_skeleton_reached [Unicode.Xid] {d : Draft} {E : BuildStop → Prop} :
    Ensures (skeleton g) d E fun _ d' =>
      Reached g d'.model False ∧ ∀ x y, ¬ d'.model.Super x y := by
  refine (ensures_skeleton (E := E)).mono (fun _ h => h) fun _ d' ⟨hrules, hbare⟩ => ?_
  refine ⟨?_, hbare.no_link⟩
  exact ⟨hrules, hbare.bodiless.closed, hbare.ranked, False.elim, fun _ => hbare.bodiless⟩

/-- The stage of the bodies. -/
theorem Reached.ensures_bodies [Unicode.Xid] {d : Draft} {built : Prop} (h : Reached g m built)
    (hd : d.model = m) :
    Ensures Build.bodies d (Halted g) fun _ d' =>
      Reached g d'.model True ∧ m.SameKin d'.model := by
  subst hd
  refine (Build.ensures_bodies h.rules h.closed).mono (fun _ h => h) fun _ d' hd' => ?_
  obtain ⟨hkin, hclosed, site, hsited⟩ := hd'
  exact ⟨h.of_sameKin hkin hclosed hsited, hkin⟩

/-- The stage of the proxies. -/
theorem Reached.ensures_alternatives [Unicode.Xid] {d : Draft} {built : Prop}
    (h : Reached g m built) (hd : d.model = m) :
    Ensures Build.alternatives d (fun stop => built ∧ Halted g stop) fun _ d' =>
      Reached g d'.model built ∧ m.SameKin d'.model := by
  subst hd
  by_cases hbuilt : built
  · obtain ⟨site, hsited⟩ := h.bodies hbuilt
    refine (Build.ensures_alternatives h.rules.nodup h.closed hsited).mono
      (fun _ h => ⟨hbuilt, .inl h⟩) fun _ d' ⟨hkin, hclosed, _, hsited'⟩ => ?_
    exact ⟨(h.of_sameKin hkin hclosed hsited').congr (iff_of_true trivial hbuilt), hkin⟩
  · refine (ensures_alternatives_bodiless (h.bodiless hbuilt)).mono (fun _ h => h)
      fun _ d' hsame => ?_
    rw [hsame]
    exact ⟨h, .refl _⟩

/-- The stage of the special cases. -/
theorem Reached.ensures_hierarchy [Unicode.Xid] {d : Draft} {E : BuildStop → Prop} {built : Prop}
    (h : Reached g m built) (hd : d.model = m) :
    Ensures Build.hierarchy d E fun _ d' =>
      Reached g d'.model built ∧ ((∀ x y, ¬ m.Super x y) → Surveyed d'.model) := by
  subst hd
  refine (Build.ensures_hierarchy h.orderly h.closed h.ranked).mono (fun _ h => h)
    fun _ d' ⟨⟨hgrows, hranked⟩, hsurveyed⟩ => ?_
  have hparts := hgrows.parts
  refine ⟨?_, hsurveyed⟩
  refine ⟨h.rules.of_sameParts hparts, h.closed.of_sameParts hparts, hranked, fun hbuilt => ?_,
    fun hbuilt => (h.bodiless hbuilt).of_sameParts hparts⟩
  obtain ⟨site, hsited⟩ := h.bodies hbuilt
  refine ⟨site, ?_⟩
  rw [hparts.names_eq]
  exact hsited.of_sameParts hparts

/-- The bodies have been made once their stage is among those carried out; without it, no stage ends
    early. -/
theorem ensures_stages [Unicode.Xid] (g : Grammar) (ss : List Stage) (d : Draft) :
    Ensures (stages g ss) d (fun stop => Stage.bodies ∈ ss ∧ Halted g stop) fun _ d' =>
      Reached g d'.model (Stage.bodies ∈ ss) := by
  rw [stages, ensures_bind]
  refine ensures_skeleton_reached.mono (fun _ h => h) fun _ d₁ hd₁ => ?_
  refine ensures_forM (I := fun done d => Reached g d.model (Stage.bodies ∈ done))
    (fun done s rest hsplit d₂ hd₂ => ?_) (hd₁.1.congr (by simp))
  cases s with
  | bodies =>
    exact (hd₂.ensures_bodies rfl).mono (fun _ h => ⟨by simp [hsplit], h⟩) fun _ d₃ hd₃ =>
      hd₃.1.congr (by simp)
  | alternatives =>
    exact (hd₂.ensures_alternatives rfl).mono (fun _ h => ⟨by simp [hsplit, h.1], h.2⟩)
      fun _ d₃ hd₃ => hd₃.1.congr (by simp)
  | hierarchy =>
    exact (hd₂.ensures_hierarchy rfl).mono (fun _ h => h) fun _ d₃ hd₃ => hd₃.1.congr (by simp)

/-! ## 3. The usual order -/

/-- Whether an entity stands for the value of its property can be told. -/
theorem Reached.isVirtual_ok [Unicode.Xid] {built : Prop} (h : Reached g m built) (name : Name) :
    ∃ b, m.isVirtual name = .ok b := by
  rw [Model.isVirtual]
  by_cases hroot : m.root = some name
  · rw [if_pos hroot]
    exact ⟨false, rfl⟩
  rw [if_neg hroot]
  cases he : m.entity? name with
  | none => exact ⟨false, rfl⟩
  | some e =>
    simp only [bind, Except.bind, pure, Except.pure]
    split
    · next only honly =>
      have hlisted : only ∈ e.properties.ids := by
        rw [honly]
        exact List.mem_singleton_self only
      obtain ⟨⟨key, id⟩, hmem, hid⟩ := List.mem_map.1 hlisted
      obtain rfl : id = only := hid
      have hlists := (h.orderly e (Model.mem_of_entity?_eq_some he)).properties key id hmem
      obtain ⟨plural, hplural⟩ := hlists.isPlural_ok
      obtain ⟨p, x, hlinked, _⟩ := hlists
      simp only [hplural, Model.property_eq_ok_iff.2 hlinked.property,
        Model.action_eq_ok_iff.2 hlinked.source]
      cases plural with
      | true => exact ⟨false, rfl⟩
      | false => exact ⟨_, rfl⟩
    · exact ⟨false, rfl⟩

/-- The entities that stand for the value of their property can be counted. -/
theorem Reached.virtualCount_ok [Unicode.Xid] {built : Prop} (h : Reached g m built) :
    ∃ n, m.virtualCount = .ok n := by
  obtain ⟨bs, hbs⟩ := Checked.exists_mapM m.names fun name _ => h.isVirtual_ok name
  refine ⟨bs.count true, ?_⟩
  rw [Model.virtualCount, hbs]
  rfl

/-- The stages before the special cases, with what is told of them. -/
def beginning [Unicode.Xid] (g : Grammar) : Build Unit := do
  skeleton g
  tell (.entitiesMade (← model).entities.length)
  bodies
  tell (.bodiesMade (← model).properties.size (← model).actions.size)
  alternatives

theorem grammar_eq [Unicode.Xid] (hrules : g.isEmpty = false) :
    Build.grammar g = (do
      beginning g
      hierarchy
      tell (.modelMade (← model).root (← check (← model).virtualCount))) := by
  rw [Build.grammar, hrules]
  simp [beginning]

/-- When the special cases are looked for, all bodies have been made, and no entity has a link. -/
theorem ensures_beginning [Unicode.Xid] (g : Grammar) (d : Draft) :
    Ensures (beginning g) d (Halted g) fun _ d' =>
      Reached g d'.model True ∧ ∀ x y, ¬ d'.model.Super x y := by
  show Ensures (skeleton g >>= _) d _ _
  rw [ensures_bind]
  refine ensures_skeleton_reached.mono (fun _ h => h) fun _ d₁ ⟨hd₁, hno₁⟩ => ?_
  rw [ensures_bind, ensures_model, ensures_bind, ensures_tell, ensures_bind]
  refine Ensures.mono (hd₁.ensures_bodies ?_) (fun _ h => h) fun _ d₂ ⟨hd₂, hkin₂⟩ => ?_
  · rfl
  rw [ensures_bind, ensures_model, ensures_bind, ensures_model, ensures_bind, ensures_tell]
  refine Ensures.mono (hd₂.ensures_alternatives ?_) (fun _ h => h.2)
    fun _ d₃ ⟨hd₃, hkin₃⟩ => ?_
  · rfl
  exact ⟨hd₃, fun x y hlink => hno₁ x y (hkin₂.super (hkin₃.super hlink))⟩

/-- Building a model in the usual order leads to one with all bodies, or ends for want of rules, of
    a rule that is referred to, or of ids. -/
theorem ensures_grammar [Unicode.Xid] (g : Grammar) (d : Draft) :
    Ensures (Build.grammar g) d
      (fun stop => Halted g stop ∨ g.rules = [] ∧ stop = .error .emptyGrammar)
      fun _ d' => Reached g d'.model True ∧ Surveyed d'.model := by
  by_cases hempty : g.isEmpty = true
  · rw [Build.grammar, if_pos hempty]
    exact .inr ⟨List.isEmpty_iff.1 hempty, rfl⟩
  rw [grammar_eq (Bool.eq_false_iff.2 hempty), ensures_bind]
  refine (ensures_beginning g d).mono (fun _ h => .inl h) fun _ d₃ ⟨hd₃, hno₃⟩ => ?_
  rw [ensures_bind]
  refine (hd₃.ensures_hierarchy rfl).mono (fun _ h => .inl h) fun _ d₄ ⟨hd₄, hsurveyed⟩ => ?_
  obtain ⟨n, hn⟩ := hd₄.virtualCount_ok
  rw [ensures_bind, ensures_model, ensures_bind, ensures_model, ensures_bind,
    ensures_check_ok hn, ensures_tell]
  exact ⟨hd₄, hsurveyed hno₃⟩

/-- The model of a grammar has all bodies and all links. -/
theorem reached_ofGrammar [Unicode.Xid] (h : Model.ofGrammar g = .ok m) :
    Reached g m True ∧ Surveyed m := by
  have hrun := Ensures.run (Q := fun m => Reached g m True ∧ Surveyed m)
    (ensures_grammar g { model := ∅ })
  rw [show (Build.run (Build.grammar g) ∅).1 = .ok m from h] at hrun
  exact hrun

/-- A grammar has the model to which the walk leads from where the beginning ends. -/
theorem ofGrammar_of_walk [Unicode.Xid] {root : Name}
    (hbegun : (Build.run (beginning g) ∅).1 = .ok m) (hroot : m.root = some root)
    (hwalk : ∀ events attached, ∃ events' attached', walk m.names [] [root]
      { model := m, events, attached } =
        .ok () { model := m', events := events', attached := attached' }) :
    Model.ofGrammar g = .ok m' := by
  obtain ⟨d, hd, rfl⟩ := run_eq_ok.1 hbegun
  have hreached := ((ensures_beginning g _).of_ok hd).1
  have hrules : g.isEmpty = false := by
    obtain ⟨r, hr, _⟩ := Option.map_eq_some_iff.1 (hreached.rules.root.symm.trans hroot)
    exact List.isEmpty_eq_false_iff_exists_mem.2 ⟨r, List.mem_of_mem_head? hr⟩
  obtain ⟨events, attached, hwalk⟩ := hwalk d.events d.attached
  have hhierarchy : hierarchy d = .ok () { model := m', events, attached } := by
    rw [hierarchy, model_bind, hroot]
    exact hwalk
  obtain ⟨n, hn⟩ :=
    ((hreached.ensures_hierarchy (E := fun _ => False) rfl).of_ok hhierarchy).1.virtualCount_ok
  refine run_eq_ok.2 ⟨{ model := m', events := events.push (.modelMade m'.root n), attached },
    ?_, rfl⟩
  rw [grammar_eq hrules, bind_of_ok hd, bind_of_ok hhierarchy, model_bind, model_bind,
    check_bind hn]
  rfl

end Build

end Ebnf
