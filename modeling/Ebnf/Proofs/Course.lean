import Ebnf.Proofs.Pipeline

/-!
# The course of building

A model that was built has gone through the four stages in a row, so what a stage leaves behind can
be followed up to the end. Bodies are laid down in the order of the entities, and later stages keep
what the actions read; and no entity is left that is nothing but a choice between others.

* `Build.Turns`, `Build.Course`: a stage that goes from one model to another, and all of them;
* `Build.Course.exists_kept`: what every stage keeps holds in the end;
* `Build.Course.sources_eq`: the patterns of the actions come in the order of the entities;
* `Build.Course.settled`: every choice between entities has got its proxy.
-/

namespace Ebnf

open Build (alternativeName)

namespace Build

variable {α β : Type} {g : Grammar} {m m' : Model}

/-! ## 1. Stages in a row -/

/-- A step goes from one model to another. -/
def Turns (step : Build Unit) (m m' : Model) : Prop :=
  ∃ d d', d.model = m ∧ step d = .ok () d' ∧ d'.model = m'

/-- What a step ensures of the models it leads to holds of a model it has led to. -/
theorem Turns.of_ensures {step : Build Unit} {E : BuildStop → Prop} {Q : Model → Prop}
    (h : Turns step m m') (hstep : ∀ d, d.model = m → Ensures step d E fun _ d' => Q d'.model) :
    Q m' := by
  obtain ⟨d, d', hd, hs, rfl⟩ := h
  exact (hstep d hd).of_ok hs

/-- The four stages that lead to a model. -/
structure Course [Unicode.Xid] (g : Grammar) (m₁ m₂ m₃ m : Model) : Prop where
  skeleton : ∃ m₀, Turns (skeleton g) m₀ m₁
  bodies : Turns bodies m₁ m₂
  alternatives : Turns alternatives m₂ m₃
  hierarchy : Turns hierarchy m₃ m

/-- A model that was built has gone through the four stages. -/
theorem exists_course [Unicode.Xid] (h : Model.ofGrammar g = .ok m) :
    ∃ m₁ m₂ m₃, Course g m₁ m₂ m₃ m := by
  obtain ⟨d', hrun, rfl⟩ := run_eq_ok.1 h
  rw [Build.grammar] at hrun
  split at hrun
  · cases hrun
  obtain ⟨_, d₁, h₁, hrun⟩ := bind_eq_ok.1 hrun
  obtain ⟨_, _, hmodel₁, hrun⟩ := bind_eq_ok.1 hrun
  cases hmodel₁
  obtain ⟨_, t₁, htell₁, hrun⟩ := bind_eq_ok.1 hrun
  cases htell₁
  obtain ⟨_, d₂, h₂, hrun⟩ := bind_eq_ok.1 hrun
  obtain ⟨_, _, hmodel₂, hrun⟩ := bind_eq_ok.1 hrun
  cases hmodel₂
  obtain ⟨_, _, hmodel₂, hrun⟩ := bind_eq_ok.1 hrun
  cases hmodel₂
  obtain ⟨_, t₂, htell₂, hrun⟩ := bind_eq_ok.1 hrun
  cases htell₂
  obtain ⟨_, d₃, h₃, hrun⟩ := bind_eq_ok.1 hrun
  obtain ⟨_, d₄, h₄, hrun⟩ := bind_eq_ok.1 hrun
  obtain ⟨_, _, hmodel₄, hrun⟩ := bind_eq_ok.1 hrun
  cases hmodel₄
  obtain ⟨_, _, hmodel₄, hrun⟩ := bind_eq_ok.1 hrun
  cases hmodel₄
  obtain ⟨count, d₅, hcheck, hrun⟩ := bind_eq_ok.1 hrun
  have hlast : d'.model = d₄.model := by
    cases hcount : d₄.model.virtualCount with
    | error fault => rw [hcount] at hcheck; cases hcheck
    | ok n => rw [hcount] at hcheck; cases hcheck; cases hrun; rfl
  refine ⟨d₁.model, d₂.model, d₃.model, ⟨_, _, _, rfl, h₁, rfl⟩, ⟨_, _, ?_, h₂, rfl⟩,
    ⟨_, _, ?_, h₃, rfl⟩, ⟨_, _, rfl, h₄, hlast.symm⟩⟩
  · rfl
  · rfl

/-- What holds along the course. -/
structure Along [Unicode.Xid] (g : Grammar) (m₁ m₂ m₃ m : Model) : Prop where
  bare : Bare m₁
  made : Reached g m₁ False
  unlinked : ∀ x y, ¬ m₁.Super x y
  built : Reached g m₂ True
  kin : m₁.SameKin m₂
  proxied : Reached g m₃ True
  kin' : m₂.SameKin m₃
  grown : m₃.Grows m
  ranked : m.Ranked

variable {m₁ m₂ m₃ : Model}

theorem Course.along [Unicode.Xid] (h : Course g m₁ m₂ m₃ m) : Along g m₁ m₂ m₃ m := by
  obtain ⟨m₀, hskeleton⟩ := h.skeleton
  obtain ⟨hrules, hbare⟩ := hskeleton.of_ensures (E := fun _ => True)
    (Q := fun m => m.OfRules g ∧ Bare m) fun d _ => ensures_skeleton
  have hmade : Reached g m₁ False :=
    ⟨hrules, hbare.bodiless.closed, hbare.ranked, False.elim, fun _ => hbare.bodiless⟩
  obtain ⟨hbuilt, hkin⟩ := h.bodies.of_ensures (Q := fun m => Reached g m True ∧ m₁.SameKin m)
    fun d hd => hmade.ensures_bodies hd
  obtain ⟨hproxied, hkin'⟩ := h.alternatives.of_ensures
    (Q := fun m => Reached g m True ∧ m₂.SameKin m) fun d hd => hbuilt.ensures_alternatives hd
  obtain ⟨hgrown, hranked⟩ := h.hierarchy.of_ensures (E := fun _ => True)
    (Q := fun m => m₃.Grows m ∧ m.Ranked) fun d hd => by
      subst hd
      exact (Build.ensures_hierarchy hproxied.orderly hproxied.closed hproxied.ranked).mono
        (fun _ h => h) fun _ d' hd' => hd'.1
  exact ⟨hbare, hmade, hbare.no_link, hbuilt, hkin, hproxied, hkin', hgrown, hranked⟩

/-- What a body that is laid down keeps, a proxy that is made and a link that is added, be it of the
    model or of the sites, holds of a model that was built. -/
theorem Course.exists_kept [Unicode.Xid] {P : (Name → Site) → List Name → Model → Prop}
    (h : Course g m₁ m₂ m₃ m) (hstart : ∀ site m, Bodiless m → P site [] m)
    (hbody : ∀ site done m m' entity plan, entity ∉ done → LaidDown m m' entity plan →
      P site done m → P (Function.update site entity (LaidDown.site m plan)) (done ++ [entity]) m')
    (hproxy : ∀ site m m' e choice, m.Sited site m.names → e ∈ m.entities →
      IsChoice m e choice → ∀ h : Proxied m m' e choice, P site m.names m →
      P (h.site site) m'.names m')
    (hlinks : ∀ site m m', m.SameParts m' → P site m.names m → P site m'.names m') :
    ∃ site, m.Sited site m.names ∧ P site m.names m := by
  have halong := h.along
  have hbodies : ∃ site, m₂.Sited site m₂.names ∧ P site m₂.names m₂ := by
    refine h.bodies.of_ensures (E := Halted g)
      (Q := fun m => ∃ site, m.Sited site m.names ∧ P site m.names m) fun d hd => ?_
    subst hd
    exact (ensures_bodies_keep halong.made.rules halong.made.closed
      (fun site => hstart site _ halong.bare.bodiless)
      fun site done m m' entity plan _ => hbody site done m m' entity plan).mono
        (fun _ h => h) fun _ d' hd' => hd'.2.2
  obtain ⟨site₂, hsited₂, hP₂⟩ := hbodies
  have hproxies : ∃ site, m₃.Sited site m₃.names ∧ P site m₃.names m₃ := by
    refine h.alternatives.of_ensures (E := fun _ => True)
      (Q := fun m => ∃ site, m.Sited site m.names ∧ P site m.names m) fun d hd => ?_
    subst hd
    exact (ensures_alternatives_keep (P := fun site m => P site m.names m)
      halong.built.rules.nodup halong.built.closed hsited₂ hP₂ hproxy).mono
        (fun _ _ => trivial) fun _ d' hd' => hd'.2.2
  obtain ⟨site, hsited, hP⟩ := hproxies
  have hparts := halong.grown.parts
  refine ⟨site, ?_, hlinks site m₃ m hparts hP⟩
  rw [hparts.names_eq]
  exact hsited.of_sameParts hparts

/-! ## 2. Choices that have got their proxy -/

/-- A choice has a proxy, so it is none any more. -/
theorem Proxied.not_isChoice {e : Entity} {choice : ActionId} (h : Proxied m m' e choice)
    (his : IsChoice m e choice) {s : Site} (hosts : s.Hosts m e) (other : ActionId) :
    ¬ IsChoice m' { e with properties := [(alternativeName, ⟨m.properties.size⟩)] } other := by
  intro hagain
  have hnone := hagain.proxy_eq_none (h.hosts his hosts)
  contradiction

/-- Any other entity that is nothing but a choice then was so before. -/
theorem IsChoice.of_proxied {e o : Entity} {choice other : ActionId} (horderly : m.Orderly o)
    (h : Proxied m m' e choice) (his : IsChoice m' o other) : IsChoice m o other where
  nonempty := his.nonempty
  action := by
    obtain ⟨y', hy', hchoice⟩ := his.action
    obtain ⟨y, hy, heq⟩ := h.exists_action hy'
    refine ⟨y, hy, ?_⟩
    rw [heq] at hchoice
    exact hchoice
  branches := by
    intro key id hmem
    obtain ⟨p', x', hlinked', hparent, htarget⟩ := his.branches key id hmem
    obtain ⟨p, x, hlinked, _⟩ := horderly.properties key id hmem
    obtain rfl := Option.some.inj ((h.property_old hlinked.property).symm.trans hlinked'.property)
    obtain ⟨y, hy, heq⟩ := h.exists_action hlinked'.source
    obtain rfl := Option.some.inj (hlinked.source.symm.trans hy)
    rw [heq] at hparent htarget
    exact ⟨p, x, hlinked, hparent, htarget⟩

/-- The stage of the proxies settles whether one entity is nothing but a choice. -/
theorem ensures_collapse_settles [Unicode.Xid] {d : Draft} {site : Name → Site}
    (hnodup : d.model.names.Nodup) (hsited : d.model.Sited site d.model.names) (name : Name) :
    Ensures (collapse name) d (fun _ => True) fun _ d' =>
      (d'.model = d.model ∨ ∃ e ∈ d.model.entities, ∃ choice, IsChoice d.model e choice ∧
        Proxied d.model d'.model e choice) ∧
      ∀ e ∈ d'.model.entities, e.name = name → ∀ choice, ¬ IsChoice d'.model e choice := by
  have horderly : ∀ e ∈ d.model.entities, d.model.Orderly e := fun e he =>
    (hsited.hosts_of_mem he).orderly
  refine (ensures_collapse horderly name).mono (fun _ _ => trivial) ?_
  rintro _ d' (⟨hsame, hnone⟩ | ⟨e, he, rfl, choice, his, hproxied⟩)
  · refine ⟨.inl hsame, fun o ho honame choice his => ?_⟩
    rw [hsame] at ho his
    exact hnone o (honame ▸ Model.entity?_of_mem hnodup ho) choice his
  · refine ⟨.inr ⟨e, he, choice, his, hproxied⟩, fun o ho honame other => ?_⟩
    rw [hproxied.entities] at ho
    rcases Model.mem_modifyEntity.1 ho with ⟨o', _, _, rfl⟩ | ⟨_, hne⟩
    · exact hproxied.not_isChoice his (hsited.hosts_of_mem he) other
    · exact absurd honame hne

/-- The kinds of the actions stay as they are when an entity gets a proxy. -/
theorem Proxied.kinds_eq {e : Entity} {choice : ActionId} (h : Proxied m m' e choice) :
    m'.actions.toList.map Action.kind = m.actions.toList.map Action.kind := by
  refine List.ext_getElem? fun i => ?_
  rw [List.getElem?_map, List.getElem?_map, Array.getElem?_toList, Array.getElem?_toList, h.actions,
    Array.getElem?_modify]
  split
  · rw [Option.map_map]
    rfl
  · rfl

/-- After the stage of the proxies no entity is nothing but a choice, and the actions read what they
    read before. -/
structure Settled (m m' : Model) : Prop where
  kinds : m'.actions.toList.map Action.kind = m.actions.toList.map Action.kind
  collapsed : ∀ e ∈ m'.entities, ∀ choice, ¬ IsChoice m' e choice

/-- The stage of the proxies settles every choice between entities. -/
theorem ensures_alternatives_settles [Unicode.Xid] {d : Draft} {site : Name → Site}
    (hnodup : d.model.names.Nodup) (hsited : d.model.Sited site d.model.names) :
    Ensures alternatives d (fun _ => True) fun _ d' => Settled d.model d'.model := by
  rw [alternatives, ensures_bind, ensures_model]
  have hloop : Ensures (d.model.names.forM collapse) d (fun _ => True) fun _ d' =>
      d.model.SameKin d'.model ∧ (∃ site, d'.model.Sited site d'.model.names) ∧
      d'.model.actions.toList.map Action.kind = d.model.actions.toList.map Action.kind ∧
      ∀ e ∈ d'.model.entities, e.name ∈ d.model.names → ∀ choice, ¬ IsChoice d'.model e choice := by
    refine ensures_forM (I := fun done d' => d.model.SameKin d'.model ∧
      (∃ site, d'.model.Sited site d'.model.names) ∧
      d'.model.actions.toList.map Action.kind = d.model.actions.toList.map Action.kind ∧
      ∀ e ∈ d'.model.entities, e.name ∈ done → ∀ choice, ¬ IsChoice d'.model e choice) ?_
      ⟨.refl _, ⟨site, hsited⟩, rfl, fun e _ he => absurd he List.not_mem_nil⟩
    rintro done name rest _ d₁ ⟨hkin, ⟨site, hsited₁⟩, hkinds, hdone⟩
    have hnodup₁ : d₁.model.names.Nodup := hkin.names_eq ▸ hnodup
    refine (ensures_collapse_settles hnodup₁ hsited₁ name).mono (fun _ h => h) ?_
    rintro _ d₂ ⟨hcases, hname⟩
    rcases hcases with hsame | ⟨e, he, choice, his, hproxied⟩
    · rw [hsame] at hname ⊢
      refine ⟨hkin, ⟨site, hsited₁⟩, hkinds, fun o ho hmem => ?_⟩
      rcases List.mem_append.1 hmem with hmem | hmem
      · exact hdone o ho hmem
      · exact hname o ho (List.mem_singleton.1 hmem)
    · refine ⟨hkin.trans (hproxied.sameKin hnodup₁ he), ⟨_, hproxied.sited his hsited₁ hnodup₁ he⟩,
        hproxied.kinds_eq.trans hkinds, fun o ho hmem => ?_⟩
      rcases List.mem_append.1 hmem with hmem | hmem
      · rw [hproxied.entities] at ho
        rcases Model.mem_modifyEntity.1 ho with ⟨o', _, _, rfl⟩ | ⟨ho, _⟩
        · exact absurd his (hdone e he hmem choice)
        · intro other hother
          have horderly : d₁.model.Orderly o :=
            (hsited₁.hosts_of_mem ho).orderly
          exact hdone o ho hmem other (hother.of_proxied horderly hproxied)
      · exact hname o ho (List.mem_singleton.1 hmem)
  refine hloop.mono (fun _ h => h) ?_
  rintro _ d' ⟨hkin, _, hkinds, hdone⟩
  refine ⟨hkinds, fun e he => hdone e he ?_⟩
  rw [← hkin.names_eq]
  exact List.mem_map_of_mem he

/-! ## 3. The order of the patterns -/

end Build

/-- The pattern that a leaf reads. -/
def Symbol.source? : Symbol → Option String
  | .pattern source => some source
  | _ => none

namespace Plan

mutual

/-- The patterns that the leaves of a plan read, in order. -/
def sources : Plan → List String
  | leaf _ symbol _ => symbol.source?.toList
  | node _ _ parts => sourcesOf parts

/-- The patterns that the leaves of several plans read. -/
def sourcesOf : List Plan → List String
  | [] => []
  | p :: ps => p.sources ++ sourcesOf ps

end

mutual

/-- The actions of a plan read the patterns of its leaves, in the same order. -/
theorem filterMap_code (a q : Nat) (parent : Option ActionId) :
    ∀ p : Plan, (p.code a q parent).filterMap Action.pattern? = p.sources
  | leaf mods symbol slot => by cases symbol <;> rfl
  | node mods choice parts => by
    rw [code, List.filterMap_append, beneath, filterMap_layOut, sources]
    cases choice <;> exact List.append_nil _

theorem filterMap_layOut (a q : Nat) (parent : Option ActionId) :
    ∀ ps : List Plan, (layOut a q parent ps).filterMap Action.pattern? = sourcesOf ps
  | [] => rfl
  | p :: ps => by
    have hsplit : layOut a q parent (p :: ps) =
        p.code a q parent ++ layOut (a + p.size) (q + p.width) parent ps := by
      rw [layOut, code, List.append_assoc, List.singleton_append]
    rw [hsplit, List.filterMap_append, filterMap_code, filterMap_layOut, sourcesOf]

end

end Plan

/-- The patterns of the rule of an entity. -/
def Entity.sources [Unicode.Xid] (e : Entity) : List String :=
  match e.rule with
  | none => []
  | some r => (r.body.plan e.name .top).sources

/-- The patterns that the actions of a model read, in the order of their creation. -/
def Model.sources (m : Model) : List String :=
  m.actions.toList.filterMap Action.pattern?

namespace Build

variable {g : Grammar} {m m' m₁ m₂ m₃ : Model}

/-- Bodies are laid down one after the other. -/
theorem ensures_bodies_sources [Unicode.Xid] {d : Draft} (hbare : Bare d.model) :
    Ensures bodies d (fun _ => True) fun _ d' =>
      d'.model.sources = d.model.entities.flatMap Entity.sources := by
  rw [bodies, ensures_bind, ensures_model]
  refine ensures_forM (I := fun done d' => d'.model.sources = done.flatMap Entity.sources)
    (fun done e rest _ d₁ hdone => ?_) ?_
  · rw [bodyOf]
    cases hrule : e.rule with
    | none =>
      show Model.sources d₁.model = _
      rw [hdone, List.flatMap_append, List.flatMap_singleton, Entity.sources, hrule]
      exact (List.append_nil _).symm
    | some r =>
      refine (ensures_body r.body d₁).mono (fun _ _ => trivial) ?_
      rintro _ d₂ ⟨hlaid, _⟩
      have hsources : e.sources = (r.body.plan e.name .top).sources := by
        rw [Entity.sources, hrule]
      rw [List.flatMap_append, List.flatMap_singleton, hsources, ← hdone, Model.sources,
        Model.sources, hlaid.actions, List.filterMap_append, Plan.filterMap_code]
  · rw [Model.sources, hbare.actions]
    rfl

/-- The patterns of a model follow from the kinds of its actions. -/
theorem sources_congr
    (h : m'.actions.toList.map Action.kind = m.actions.toList.map Action.kind) :
    m'.sources = m.sources := by
  have hkind : ∀ m : Model, m.sources = (m.actions.toList.map Action.kind).filterMap
      fun kind => Action.pattern? { kind := kind } := by
    intro m
    rw [List.filterMap_map]
    rfl
  rw [hkind, hkind, h]

/-- What follows from the names and the rules of the entities. -/
theorem flatMap_sources_congr [Unicode.Xid]
    (h : m'.entities.map (fun e => (e.name, e.rule)) = m.entities.map fun e => (e.name, e.rule)) :
    m'.entities.flatMap Entity.sources = m.entities.flatMap Entity.sources := by
  have hpair : ∀ m : Model, m.entities.flatMap Entity.sources =
      (m.entities.map fun e => (e.name, e.rule)).flatMap fun pair =>
        Entity.sources { name := pair.1, rule := pair.2 } := by
    intro m
    rw [List.flatMap_map]
    rfl
  rw [hpair, hpair, h]

theorem rules_of_sameKin (h : m.SameKin m') :
    m'.entities.map (fun e => (e.name, e.rule)) = m.entities.map fun e => (e.name, e.rule) := by
  have hkin := congrArg (List.map fun k => (k.1, k.2.1)) h.kin
  rw [List.map_map, List.map_map] at hkin
  exact hkin

theorem rules_of_sameParts (h : m.SameParts m') :
    m'.entities.map (fun e => (e.name, e.rule)) = m.entities.map fun e => (e.name, e.rule) := by
  have hparts := congrArg (List.map fun k => (k.1, k.2.1)) h.entities
  rw [List.map_map, List.map_map] at hparts
  exact hparts

/-- The stage of the proxies has settled every choice between entities. -/
theorem Course.settled [Unicode.Xid] (h : Course g m₁ m₂ m₃ m) : Settled m₂ m₃ := by
  have halong := h.along
  obtain ⟨site, hsited⟩ := halong.built.bodies trivial
  exact h.alternatives.of_ensures fun d hd => hd ▸ ensures_alternatives_settles
    (hd ▸ halong.built.rules.nodup) (hd ▸ hsited)

/-- The patterns of the actions come in the order of the entities. -/
theorem Course.sources_eq [Unicode.Xid] (h : Course g m₁ m₂ m₃ m) :
    m.sources = m.entities.flatMap Entity.sources := by
  have halong := h.along
  have hbodies : m₂.sources = m₁.entities.flatMap Entity.sources :=
    h.bodies.of_ensures (Q := fun m => m.sources = m₁.entities.flatMap Entity.sources)
      fun d hd => hd ▸ ensures_bodies_sources (hd ▸ halong.bare)
  have hparts := halong.grown.parts
  calc m.sources = m₃.sources := by rw [Model.sources, Model.sources, hparts.actions]
    _ = m₂.sources := sources_congr h.settled.kinds
    _ = m₁.entities.flatMap Entity.sources := hbodies
    _ = m₂.entities.flatMap Entity.sources :=
      (flatMap_sources_congr (rules_of_sameKin halong.kin)).symm
    _ = m₃.entities.flatMap Entity.sources :=
      (flatMap_sources_congr (rules_of_sameKin halong.kin')).symm
    _ = m.entities.flatMap Entity.sources :=
      (flatMap_sources_congr (rules_of_sameParts hparts)).symm

end Build

end Ebnf
