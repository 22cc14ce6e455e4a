import Ebnf.Proofs.Agreement
import Ebnf.Proofs.Congruence
import Ebnf.Proofs.Twins
import Ebnf.Proofs.Typing

/-!
# The order of the rules

What a model means depends on the rules that the first one leads to, not on their order, on later
rules of the same names, or on any other rules. Two models of grammars that have these rules in
common have the same entities for them, with the same links, properties and types, and read alike.

* `Grammar.Reachable`: the rules that the root leads to;
* `Build.Course.agrees`: the models of two such grammars agree;
* `same_of_reachable`: what this means for entities and for reading.
-/

namespace Ebnf

open Relation (ReflTransGen)
open Checked (Alike)

/-! ## 1. Rules that are reached -/

namespace Grammar

/-- The rule of a name refers to another name. -/
def Refers (g : Grammar) (n t : Name) : Prop :=
  ∃ r, g.rule? n = some r ∧ t ∈ r.body.references

/-- The root leads to a name, over any number of references. -/
def Reachable (g : Grammar) (n : Name) : Prop :=
  ∃ root, g.root? = some root ∧ ReflTransGen g.Refers root.name n

variable {g g' : Grammar} {n t : Name}

theorem Reachable.refers (h : g.Reachable n) (hrefers : g.Refers n t) : g.Reachable t := by
  obtain ⟨root, hroot, hway⟩ := h
  exact ⟨root, hroot, hway.tail hrefers⟩

/-- The name of the root is that of a rule. -/
theorem exists_rule_root {root : Rule} (h : g.root? = some root) :
    ∃ r, g.rule? root.name = some r := by
  have hmem : root ∈ g.rules := List.mem_of_mem_head? h
  refine Option.isSome_iff_exists.1 ?_
  rw [rule?, List.find?_isSome]
  exact ⟨root, hmem, by simp⟩

/-- Two grammars lead to the same names if they have the rules in common that one of them leads
    to. -/
theorem reachable_iff (hroot : g.root?.map Rule.name = g'.root?.map Rule.name)
    (hsame : ∀ n, g.Reachable n → g'.rule? n = g.rule? n) : g.Reachable n ↔ g'.Reachable n := by
  constructor
  · rintro ⟨root, hsome, hway⟩
    rw [hsome] at hroot
    obtain ⟨root', hsome', hname⟩ := Option.map_eq_some_iff.1 hroot.symm
    refine ⟨root', hsome', ?_⟩
    rw [hname]
    induction hway with
    | refl => exact .refl
    | tail hbefore hrefers ih =>
      obtain ⟨r, hr, ht⟩ := hrefers
      exact ih.tail ⟨r, (hsame _ ⟨root, hsome, hbefore⟩).trans hr, ht⟩
  · rintro ⟨root', hsome', hway⟩
    rw [hsome'] at hroot
    obtain ⟨root, hsome, hname⟩ := Option.map_eq_some_iff.1 hroot
    rw [← hname] at hway
    induction hway with
    | refl => exact ⟨root, hsome, .refl⟩
    | tail _ hrefers ih =>
      obtain ⟨r, hr, ht⟩ := hrefers
      exact ih.refers ⟨r, (hsame _ ih).symm.trans hr, ht⟩

end Grammar

/-! ## 2. Models of the same rules -/

namespace Plan

variable {m : Model} {entity : Name} {link : ActionId → Option PropertyId}

mutual

/-- What a plan refers to is read by one of its actions. -/
theorem Stands.exists_target {a q : Nat} {parent : Option ActionId} {t : Name} :
    ∀ {p : Plan}, p.Stands m entity link a q parent → t ∈ p.references →
      ∃ (i : Nat) (x : Action), m.actions[i]? = some x ∧ x.target? = some t
  | leaf mods symbol slot, ⟨htop, _⟩, ht => by
    cases symbol with
    | literal text witness => exact absurd ht List.not_mem_nil
    | pattern source => exact absurd ht List.not_mem_nil
    | reference target =>
      obtain rfl := List.mem_singleton.1 ht
      exact ⟨a, _, htop, rfl⟩
  | node mods choice parts, ⟨hparts, _⟩, ht => hparts.exists_target ht

theorem StandInRow.exists_target {a q : Nat} {parent : Option ActionId} {t : Name} :
    ∀ {ps : List Plan}, StandInRow m entity link a q parent ps → t ∈ referencesOf ps →
      ∃ (i : Nat) (x : Action), m.actions[i]? = some x ∧ x.target? = some t
  | [], _, ht => absurd ht List.not_mem_nil
  | _ :: _, ⟨hp, hps⟩, ht => (List.mem_append.1 ht).elim hp.exists_target hps.exists_target

end

end Plan

namespace Build

variable {g g' : Grammar} {m m' m₁ m₁' m₂ m₂' m₃ m₃' : Model}

/-- The plan of an entity is that of the first rule of its name. -/
theorem Reached.plan_eq [Unicode.Xid] (h : Reached g m True) {site : Name → Site}
    (hsited : m.Sited site m.names) {n : Name} {r : Rule} (hr : g.rule? n = some r) :
    (site n).plan = r.body.plan n .top := by
  obtain ⟨e, he⟩ := Model.mem_names_iff.1 ((h.rules.names n).2 ⟨r, hr⟩)
  obtain rfl := Model.name_of_entity?_eq_some he
  have hmem := Model.mem_of_entity?_eq_some he
  obtain ⟨r', hr', hplan⟩ := hsited.plan_of_mem hmem
  obtain rfl := Option.some.inj (hr.symm.trans ((h.rules.rule e hmem).symm.trans hr'))
  exact hplan

/-- All that the root leads to has a rule. -/
theorem Reached.exists_rule [Unicode.Xid] (h : Reached g m True) {n : Name} (hn : g.Reachable n) :
    ∃ r, g.rule? n = some r := by
  obtain ⟨site, hsited⟩ := h.bodies trivial
  obtain ⟨root, hroot, hway⟩ := hn
  induction hway with
  | refl => exact Grammar.exists_rule_root hroot
  | @tail x t _ hrefers ih =>
    obtain ⟨r, hr, ht⟩ := hrefers
    obtain ⟨e, he⟩ := Model.mem_names_iff.1 ((h.rules.names x).2 ⟨r, hr⟩)
    obtain rfl := Model.name_of_entity?_eq_some he
    have hmem := Model.mem_of_entity?_eq_some he
    have hosts := hsited.hosts_of_mem hmem
    have hin : t ∈ (site e.name).plan.references := by
      rw [h.plan_eq hsited hr, Expr.references_plan]
      exact ht
    obtain ⟨i, x, hx, htarget⟩ := hosts.stands.exists_target hin
    exact (h.rules.names t).1 (h.closed i x t hx htarget)

/-- Two models of grammars with the same rules for all that the root leads to have the bodies of
    these in common before the stage of the special cases. -/
theorem Course.twins [Unicode.Xid] (h : Course g m₁ m₂ m₃ m) (h' : Course g' m₁' m₂' m₃' m')
    (hsame : ∀ n, g.Reachable n → g'.rule? n = g.rule? n) :
    ∃ site site', Twins g.Reachable site site' m₃ m₃' := by
  have hproxied := h.along.proxied
  have hproxied' := h'.along.proxied
  obtain ⟨site, hsited⟩ := hproxied.bodies trivial
  obtain ⟨site', hsited'⟩ := hproxied'.bodies trivial
  refine ⟨site, site', hsited, hsited', fun n hn => ?_, fun n hn => ?_, fun n hn t ht => ?_,
    h.settled.collapsed, h'.settled.collapsed⟩
  · obtain ⟨r, hr⟩ := hproxied.exists_rule hn
    exact ⟨(hproxied.rules.names n).2 ⟨r, hr⟩,
      (hproxied'.rules.names n).2 ⟨r, (hsame n hn).trans hr⟩⟩
  · obtain ⟨r, hr⟩ := hproxied.exists_rule hn
    rw [hproxied.plan_eq hsited hr, hproxied'.plan_eq hsited' ((hsame n hn).trans hr)]
  · obtain ⟨r, hr⟩ := hproxied.exists_rule hn
    rw [hproxied.plan_eq hsited hr, Expr.references_plan] at ht
    exact hn.refers ⟨r, hr, ht⟩

/-- Before the stage of the special cases there are no links. -/
theorem Course.no_links [Unicode.Xid] (h : Course g m₁ m₂ m₃ m) {n : Name} {e : Entity}
    (he : m₃.entity? n = some e) : e.supers = [] ∧ e.subs = [] := by
  have halong := h.along
  have hno : ∀ x y, ¬ m₃.Super x y := fun x y hlink =>
    halong.unlinked x y (halong.kin.super (halong.kin'.super hlink))
  exact ⟨List.eq_nil_iff_forall_not_mem.2 fun y hy => hno n y ⟨e, he, hy⟩,
    List.eq_nil_iff_forall_not_mem.2 fun x hx =>
      hno x n (halong.proxied.ranked.super_of_mem_subs he hx)⟩

/-- Two steps of two courses that keep models in agreement lead to models that agree. -/
theorem Turns.agrees {w : Pairing} {step : Build Unit}
    (hsteps : w.Steps (fun _ _ => True) step step) (h : Turns step m₃ m) (h' : Turns step m₃' m')
    (hagrees : w.Agrees m₃ m₃') : w.Agrees m m' := by
  obtain ⟨d, u, rfl, hstep, rfl⟩ := h
  obtain ⟨d', u', rfl, hstep', rfl⟩ := h'
  obtain ⟨_, _, v, v', hv, hv', _, hlast⟩ := hsteps d d' hagrees
  cases hstep.symm.trans hv
  cases hstep'.symm.trans hv'
  exact hlast

/-- The finished models agree on all that the root leads to. -/
theorem Course.agrees [Unicode.Xid] (h : Course g m₁ m₂ m₃ m) (h' : Course g' m₁' m₂' m₃' m')
    {site site' : Name → Site} (htwins : Twins g.Reachable site site' m₃ m₃')
    (hroot : g.root?.map Rule.name = g'.root?.map Rule.name) :
    (Pairing.ofSites g.Reachable site site').Agrees m m' := by
  have hrules := h.along.proxied.rules
  have hrules' := h'.along.proxied.rules
  refine h.hierarchy.agrees Pairing.steps_hierarchy h'.hierarchy ⟨htwins.pairs, ?_, ?_, ?_, ?_⟩
  · rw [hrules.root, hrules'.root, hroot]
  · intro root hsome
    rw [hrules.root] at hsome
    obtain ⟨r, hr, rfl⟩ := Option.map_eq_some_iff.1 hsome
    exact ⟨r, hr, .refl⟩
  · intro n hn e e' he he'
    obtain ⟨hsupers, hsubs⟩ := h.no_links he
    obtain ⟨hsupers', hsubs'⟩ := h'.no_links he'
    exact ⟨hsupers.trans hsupers'.symm, hsubs.trans hsubs'.symm⟩
  · rintro x y hx ⟨e, he, hy⟩
    rw [(h.no_links he).1] at hy
    exact absurd hy List.not_mem_nil

end Build

/-! ## 3. Programs of the same rules -/

namespace Plan

variable {patterns patterns' : Patterns} {dest dest' : Nat → Destination}

mutual

/-- The instructions of a plan depend on where values go and on what is found for its patterns. -/
theorem op_congr {q q' : Nat} :
    ∀ {p : Plan}, (∀ k < p.width, dest (q + k) = dest' (q' + k)) →
      (∀ source ∈ p.sources, patterns.lookup source = patterns'.lookup source) →
      p.op patterns dest q = p.op patterns' dest' q'
  | leaf mods symbol slot, hdest, hpatterns => by
    have htoken : symbol.token patterns = symbol.token patterns' := by
      cases symbol with
      | literal text witness => rfl
      | pattern source =>
        rw [Symbol.token, Symbol.token, hpatterns source (List.mem_singleton_self source)]
      | reference target => rfl
    rw [op, op, htoken]
    cases slot with
    | none => rfl
    | some name => rw [show dest q = dest' q' from hdest 0 Nat.one_pos]
  | node mods choice parts, hdest, hpatterns => by
    rw [op, op, opsOf_congr hdest hpatterns]

theorem opsOf_congr {q q' : Nat} :
    ∀ {ps : List Plan}, (∀ k < (slotsOf ps).length, dest (q + k) = dest' (q' + k)) →
      (∀ source ∈ sourcesOf ps, patterns.lookup source = patterns'.lookup source) →
      opsOf patterns dest q ps = opsOf patterns' dest' q' ps
  | [], _, _ => rfl
  | p :: ps, hdest, hpatterns => by
    rw [slotsOf, List.length_append] at hdest
    have hfirst : p.op patterns dest q = p.op patterns' dest' q' :=
      op_congr (fun k hk => hdest k (Nat.lt_add_right _ hk)) fun source hsource =>
        hpatterns source (List.mem_append_left _ hsource)
    have hrest : opsOf patterns dest (q + p.width) ps = opsOf patterns' dest' (q' + p.width) ps :=
      opsOf_congr (fun k hk => by
        rw [Nat.add_assoc, Nat.add_assoc]
        exact hdest _ (Nat.add_lt_add_left hk _)) fun source hsource =>
        hpatterns source (List.mem_append_right _ hsource)
    rw [opsOf, opsOf, hfirst, hrest]

end

end Plan

variable {g g' : Grammar} {m m' m₁ m₁' m₂ m₂' m₃ m₃' : Model} {engine : Engine}
  {config : ReadConfig} {p p' : Program} {patterns patterns' : Patterns}

/-- A program has a matcher for every pattern of an entity. -/
theorem Program.Made.lookup_source [Unicode.Xid] (hmade : p.Made engine m config patterns)
    (h : Build.Course g m₁ m₂ m₃ m) {e : Entity} (he : e ∈ m.entities) {source : String}
    (hsource : source ∈ e.sources) : patterns.lookup source = some (engine.find source) := by
  have hmem : source ∈ m.sources := by
    rw [h.sources_eq]
    exact List.mem_flatMap.2 ⟨e, he, hsource⟩
  obtain ⟨x, hx, hpattern⟩ := List.mem_filterMap.1 hmem
  obtain ⟨i, hi⟩ := List.mem_iff_getElem?.1 hx
  rw [Array.getElem?_toList] at hi
  refine hmade.patterns i x source hi ?_
  rw [Action.pattern?] at hpattern
  split at hpattern
  · next hkind => rw [hkind, Option.some.inj hpattern]
  · contradiction

namespace Build.Course

variable [Unicode.Xid] (h : Course g m₁ m₂ m₃ m) (h' : Course g' m₁' m₂' m₃' m')
  {site site' : Name → Site} (htwins : Twins g.Reachable site site' m₃ m₃')
  (hroot : g.root?.map Rule.name = g'.root?.map Rule.name)

include h

/-- The bodies stay where they are. -/
theorem sited (hsited : m₃.Sited site m₃.names) : m.Sited site m.names := by
  have hparts := h.along.grown.parts
  rw [hparts.names_eq]
  exact hsited.of_sameParts hparts

/-- An entity is read as the plan of its rule says. -/
theorem body_eq (hsited : m₃.Sited site m₃.names) (hmade : p.Made engine m config patterns)
    {e : Entity} (he : e ∈ m.entities) :
    (Procedure.ofModel m patterns e).body = some (.ok ((site e.name).plan.op patterns
        (site e.name).dest (site e.name).property)) ∧
      ∀ source ∈ (site e.name).plan.sources,
        patterns.lookup source = some (engine.find source) := by
  have hsited := h.sited hsited
  have hname := List.mem_map_of_mem (f := Entity.name) he
  have hnodup : m.names.Nodup := by
    rw [h.along.grown.parts.names_eq]
    exact h.along.proxied.rules.nodup
  refine ⟨(hsited.hosts e he hname).body_eq hnodup he patterns, fun source hsource => ?_⟩
  obtain ⟨r, hr, hplan⟩ := hsited.plan e he hname
  rw [hplan] at hsource
  refine hmade.lookup_source h he ?_
  rw [Entity.sources, hr]
  exact hsource

include h' htwins hroot

/-- All that the root leads to is read the same way. -/
theorem procedure_eq (hmade : p.Made engine m config patterns)
    (hmade' : p'.Made engine m' config patterns') {n : Name} (hn : g.Reachable n) :
    p.procedure? n = p'.procedure? n ∧ ∃ proc, p.procedure? n = some proc ∧
      proc.body = some (.ok ((site n).plan.op patterns (site n).dest (site n).property)) := by
  have hagrees := h.agrees h' htwins hroot
  obtain ⟨e, e', he, he', hee⟩ := hagrees.pairs.entity hn
  obtain ⟨_, _, _, _, _, hproxies⟩ := htwins.exists_twice hn
  have hplan := htwins.plan n hn
  obtain rfl := Model.name_of_entity?_eq_some he
  have hname' := Model.name_of_entity?_eq_some he'
  obtain ⟨hbody, hlookup⟩ := h.body_eq htwins.sited hmade (Model.mem_of_entity?_eq_some he)
  obtain ⟨hbody', hlookup'⟩ := h'.body_eq htwins.sited' hmade' (Model.mem_of_entity?_eq_some he')
  rw [hname', hplan] at hbody' hlookup'
  have hop : (site e.name).plan.op patterns (site e.name).dest (site e.name).property =
      (site e.name).plan.op patterns' (site' e.name).dest (site' e.name).property := by
    refine Plan.op_congr (fun k _ => ?_) fun source hsource =>
      (hlookup source hsource).trans (hlookup' source hsource).symm
    rcases hproxies with ⟨hnone, hnone'⟩ | ⟨j, _, proxy, proxy', hproxy, hproxy'⟩
    · simp only [Site.dest, hnone, hnone', Nat.add_sub_cancel_left]
    · simp only [Site.dest, hproxy, hproxy']
  have hfields : (Procedure.ofModel m patterns e).fields =
      (Procedure.ofModel m' patterns' e').fields := by
    have halike := Alike.mapM hee.ids fun _ _ hid => hagrees.field hid
    rw [List.forall₂_eq_eq_eq] at halike
    exact halike.eq
  have hproc : Procedure.ofModel m patterns e = Procedure.ofModel m' patterns' e' := by
    calc Procedure.ofModel m patterns e
        = ⟨(Procedure.ofModel m patterns e).body, (Procedure.ofModel m patterns e).fields,
            m.isVirtual e.name⟩ := rfl
      _ = ⟨(Procedure.ofModel m' patterns' e').body, (Procedure.ofModel m' patterns' e').fields,
            m'.isVirtual e'.name⟩ := by
          rw [hbody, hbody', hop, hfields, hname', (hagrees.isVirtual hn).eq]
      _ = Procedure.ofModel m' patterns' e' := rfl
  rw [hmade.procedure?_eq, hmade'.procedure?_eq, he, he', Option.map_some, Option.map_some, hproc]
  exact ⟨rfl, _, rfl, hproc ▸ hbody⟩

/-- The programs have the procedures in common of all that the root leads to. -/
theorem shares (hmade : p.Made engine m config patterns)
    (hmade' : p'.Made engine m' config patterns') : Program.Shares g.Reachable p p' where
  procedure := fun n hn => (h.procedure_eq h' htwins hroot hmade hmade' hn).1
  onward := by
    intro n hn proc op hproc hbody t ht
    obtain ⟨_, proc', hproc', hbody'⟩ := h.procedure_eq h' htwins hroot hmade hmade' hn
    obtain rfl := Option.some.inj (hproc.symm.trans hproc')
    obtain rfl := Except.ok.inj (Option.some.inj (hbody.symm.trans hbody'))
    rw [Plan.targets_op] at ht
    exact htwins.onward n hn t ht

end Build.Course

/-! ## 4. What a model means -/

/-- Two models say the same of an entity and of its properties, in the same order: its links,
    whether it stands for a value, the type that it contributes, and of each property the name, the
    type, whether it repeats and whether it may be missing. -/
structure Entity.Same (m m' : Model) (e e' : Entity) : Prop where
  supers : e.supers = e'.supers
  subs : e.subs = e'.subs
  isVirtual : Alike Eq (m.isVirtual e.name) (m'.isVirtual e'.name)
  effectiveType : Alike Eq (m.effectiveType e.name) (m'.effectiveType e'.name)
  properties : List.Forall₂ (fun entry entry' => entry.1 = entry'.1 ∧
    Alike Eq (Property.name <$> m.property entry.2) (Property.name <$> m'.property entry'.2) ∧
    Alike Eq (m.propertyType entry.2) (m'.propertyType entry'.2) ∧
    Alike Eq (m.isPlural entry.2) (m'.isPlural entry'.2) ∧
    Alike Eq (m.isOptional entry.2) (m'.isOptional entry'.2)) e.properties e'.properties

/-- What models that agree say of an entity that counts is the same. -/
theorem Pairing.Agrees.same {w : Pairing} (h : w.Agrees m m') {n : Name} (hn : w.name n) :
    ∃ e e', m.entity? n = some e ∧ m'.entity? n = some e' ∧ e.Same m m' e' := by
  obtain ⟨e, e', he, he', hee⟩ := h.pairs.entity hn
  have hname := Model.name_of_entity?_eq_some he
  have hname' := Model.name_of_entity?_eq_some he'
  obtain ⟨hsupers, hsubs⟩ := h.links n hn e e' he he'
  refine ⟨e, e', he, he', hsupers, hsubs, ?_, ?_, ?_⟩
  · rw [hname, hname']
    exact h.isVirtual hn
  · rw [hname, hname']
    exact h.entityType [] hn
  · refine hee.properties.imp fun entry entry' hentry => ?_
    obtain ⟨hkey, hid⟩ := hentry
    exact ⟨hkey, (h.pairs.property_alike hid).map fun _ _ hp => hp.name, h.propertyType hid,
      h.pairs.isPlural hid, h.pairs.isOptional hid⟩

/-- What a model means does not depend on the order of the rules or on rules that the root does not
    lead to. Two grammars that have the rules in common to which the root leads have models that say
    the same of all these, and read every text alike. -/
theorem same_of_reachable [Unicode.Xid] (h : Model.ofGrammar g = .ok m)
    (h' : Model.ofGrammar g' = .ok m') (hroot : g.root?.map Rule.name = g'.root?.map Rule.name)
    (hsame : ∀ n, g.Reachable n → g'.rule? n = g.rule? n) :
    (∀ n, g.Reachable n ↔ g'.Reachable n) ∧
    (∀ n, g.Reachable n → ∃ e e', m.entity? n = some e ∧ m'.entity? n = some e' ∧
      e.Same m m' e') ∧
    ∀ engine config p k p' k', Program.ofModel engine m config = .ok (p, k) →
      Program.ofModel engine m' config = .ok (p', k') → ∀ text, p.read text = p'.read text := by
  obtain ⟨m₁, m₂, m₃, hcourse⟩ := Build.exists_course h
  obtain ⟨m₁', m₂', m₃', hcourse'⟩ := Build.exists_course h'
  obtain ⟨site, site', htwins⟩ := hcourse.twins hcourse' hsame
  have hagrees := hcourse.agrees hcourse' htwins hroot
  refine ⟨fun n => Grammar.reachable_iff hroot hsame, fun n hn => hagrees.same hn, ?_⟩
  intro engine config p k p' k' hprogram hprogram' text
  obtain ⟨patterns, hmade⟩ := Program.made_of_ofModel hprogram
  obtain ⟨patterns', hmade'⟩ := Program.made_of_ofModel hprogram'
  have hstart := hmade.root
  have hstart' := hmade'.root
  rw [← hagrees.root, hstart] at hstart'
  refine (hcourse.shares hcourse' htwins hroot hmade hmade').read_eq (Option.some.inj hstart')
    (hagrees.start _ hstart) ?_ (hmade.maxDepth.trans hmade'.maxDepth.symm) text
  exact Except.ok.inj (hmade.ignore.symm.trans hmade'.ignore)

namespace Shuffled

/-- The rules for pairs in another order, with a rule that nothing refers to and a second one for
    words. -/
def grammar : Grammar where
  rules := [
    { name := "pair", body := .sequence (.reference none "left") (.reference none "right") },
    { name := "word", body := .literal none "a" },
    { name := "right", body := .choice (.reference none "word") (.reference none "left") },
    { name := "spare", body := .reference none "word" },
    { name := "left", body := .choice (.reference none "mark") (.reference none "right") },
    { name := "mark", body := .sequence (.literal none "c") (.literal none "d") },
    { name := "word", body := .literal none "z" }]

def pair : Entity where
  name := "pair"
  rule := grammar.rule? "pair"
  properties := [("left", ⟨0⟩), ("right", ⟨1⟩)]
  action := some ⟨2⟩

def word : Entity where
  name := "word"
  rule := grammar.rule? "word"
  properties := [("word", ⟨2⟩)]
  action := some ⟨3⟩

def right : Entity where
  name := "right"
  rule := grammar.rule? "right"
  properties := [("alternative", ⟨8⟩)]
  action := some ⟨6⟩

def spare : Entity where
  name := "spare"
  rule := grammar.rule? "spare"
  properties := [("word", ⟨5⟩)]
  action := some ⟨7⟩

def left : Entity where
  name := "left"
  rule := grammar.rule? "left"
  properties := [("alternative", ⟨9⟩)]
  action := some ⟨10⟩

def mark : Entity where
  name := "mark"
  rule := grammar.rule? "mark"
  action := some ⟨13⟩

/-- The model of the pairs with the given links. -/
def linked (links : List (Name × Name)) : Model :=
  links.foldl (fun m link => (m.addSub link.1 link.2).addSuper link.2 link.1) {
    entities := [pair, word, right, spare, left, mark]
    properties := #[
      { name := "left", entity := "pair", source := ⟨0⟩ },
      { name := "right", entity := "pair", source := ⟨1⟩ },
      { name := "word", entity := "word", source := ⟨3⟩ },
      { name := "word", entity := "right", source := ⟨4⟩ },
      { name := "left", entity := "right", source := ⟨5⟩ },
      { name := "word", entity := "spare", source := ⟨7⟩ },
      { name := "mark", entity := "left", source := ⟨8⟩ },
      { name := "right", entity := "left", source := ⟨9⟩ },
      { name := "alternative", entity := "right", source := ⟨6⟩, kind := .proxy [⟨3⟩, ⟨4⟩] },
      { name := "alternative", entity := "left", source := ⟨10⟩, kind := .proxy [⟨6⟩, ⟨7⟩] }]
    actions := #[
      { kind := .entity "left", property := some ⟨0⟩, parent := some ⟨2⟩ },
      { kind := .entity "right", property := some ⟨1⟩, parent := some ⟨2⟩ },
      { kind := .all [⟨0⟩, ⟨1⟩] },
      { kind := .literal "a", property := some ⟨2⟩ },
      { kind := .entity "word", property := some ⟨3⟩, parent := some ⟨6⟩ },
      { kind := .entity "left", property := some ⟨4⟩, parent := some ⟨6⟩ },
      { kind := .any [⟨4⟩, ⟨5⟩], property := some ⟨8⟩ },
      { kind := .entity "word", property := some ⟨5⟩ },
      { kind := .entity "mark", property := some ⟨6⟩, parent := some ⟨10⟩ },
      { kind := .entity "right", property := some ⟨7⟩, parent := some ⟨10⟩ },
      { kind := .any [⟨8⟩, ⟨9⟩], property := some ⟨9⟩ },
      { kind := .literal "c", parent := some ⟨13⟩ },
      { kind := .literal "d", parent := some ⟨13⟩ },
      { kind := .all [⟨11⟩, ⟨12⟩] }]
    root := some "pair" }

/-- The model of the pairs. -/
def model : Model :=
  linked [("left", "mark"), ("left", "right"), ("right", "word")]

/-- The program of the pairs. -/
def program : Program where
  root := "pair"
  ignore := none
  maxDepth := 256
  procedures := model.entities.map fun e => (e.name, Procedure.ofModel model [] e)

theorem discover_left (events : Array Event) (attached : List (Name × PropertyId)) :
    Build.discover left { model := linked [], events, attached } = .ok ["mark", "right"]
      { model := linked [("left", "mark"), ("left", "right")],
        events := (events.push (.subFound "left" "mark")).push (.subFound "left" "right"),
        attached } := by
  have hmark : (linked []).register? "left" "mark" = some (linked [("left", "mark")]) :=
    Model.register?_of_isA_eq_false (by decide) (by cbv) (by cbv) (by decide) (by decide)
  have hright : (linked [("left", "mark")]).register? "left" "right" =
      some (linked [("left", "mark"), ("left", "right")]) :=
    Model.register?_of_isA_eq_false (by decide) (by cbv) (by cbv) (by decide) (by decide)
  refine Build.discover_proxy rfl (by cbv) rfl rfl (by cbv) ?_
  exact (forM_cons_of_ok (Build.registerSub_some hmark)).trans
    (forM_cons_of_ok (Build.registerSub_some hright))

theorem discover_right (events : Array Event) (attached : List (Name × PropertyId)) :
    Build.discover { right with supers := ["left"] }
        { model := linked [("left", "mark"), ("left", "right")], events, attached } =
      .ok ["word", "left"]
        { model, events := (events.push (.subFound "right" "word")).push
            (.subSkipped "right" "left"), attached } := by
  have hword : (linked [("left", "mark"), ("left", "right")]).register? "right" "word" =
      some model :=
    Model.register?_of_isA_eq_false (by decide) (by cbv) (by cbv) (by decide) (by decide)
  have hleft : model.register? "right" "left" = none :=
    Model.register?_of_isA (by cbv)
  refine Build.discover_proxy rfl (by cbv) rfl rfl (by cbv) ?_
  exact (forM_cons_of_ok (Build.registerSub_some hword)).trans
    (forM_cons_of_ok (Build.registerSub_none hleft))

/-- The same entities are looked at in the same order. -/
theorem walk_eq (events : Array Event) (attached : List (Name × PropertyId)) :
    Build.walk ["pair", "word", "right", "spare", "left", "mark"] [] ["pair"]
      { model := linked [], events, attached } = .ok ()
      { model, events := (((events.push (.subFound "left" "mark")).push
          (.subFound "left" "right")).push (.subFound "right" "word")).push
          (.subSkipped "right" "left"), attached } := by
  have hpair : Build.discover pair { model := linked [], events, attached } =
      .ok ["left", "right"] { model := linked [], events, attached } := by
    cbv
  have hmark : ∀ events, Build.discover { mark with supers := ["left"] }
      { model := linked [("left", "mark"), ("left", "right")], events, attached } =
        .ok [] { model := linked [("left", "mark"), ("left", "right")], events, attached } := by
    intro events
    cbv
  have hword : ∀ events, Build.discover { word with supers := ["right"] }
      { model, events, attached } = .ok [] { model, events, attached } := by
    intro events
    cbv
  rw [Build.walk_cons (by decide) rfl hpair, List.append_nil,
    Build.walk_cons (by decide) rfl (discover_left _ _), List.cons_append,
    Build.walk_cons (by decide) rfl (hmark _), List.nil_append, List.cons_append,
    Build.walk_cons (by decide) rfl (discover_right _ _), List.cons_append,
    Build.walk_cons (by decide) rfl (hword _), List.nil_append, List.cons_append,
    Build.walk_pass (by decide), List.nil_append, List.nil_append,
    Build.walk_pass (by decide), Build.walk]
  rfl

theorem ofGrammar_eq : Model.ofGrammar grammar = .ok model :=
  Build.ofGrammar_of_walk (m := linked []) (by cbv) rfl
    fun events attached => ⟨_, _, walk_eq events attached⟩

theorem ofModel_eq : Program.ofModel Sample.engine model Sample.config = .ok (program, 0) :=
  rfl

/-- The rules for all that the root leads to are the same. -/
theorem rule?_eq {n : Name} (hn : Circle.grammar.Reachable n) :
    grammar.rule? n = Circle.grammar.rule? n := by
  obtain ⟨hreached, _⟩ := Build.reached_ofGrammar Circle.ofGrammar_eq
  obtain ⟨r, hr⟩ := hreached.exists_rule hn
  obtain ⟨hmem, rfl⟩ := Grammar.rule?_eq_some hr
  simp only [Circle.grammar, List.mem_cons, List.not_mem_nil, or_false] at hmem
  rcases hmem with rfl | rfl | rfl | rfl | rfl <;> rfl

end Shuffled

/-- Pairs are the same with their rules in another order and with further rules between them. The
    right part is a special case of the left one in both models, and has a special case itself. -/
theorem same_of_reachable_shuffled :
    Model.ofGrammar Circle.grammar = .ok Circle.model ∧
    Model.ofGrammar Shuffled.grammar = .ok Shuffled.model ∧
    Circle.grammar.Reachable "right" ∧
    (∃ e e', Circle.model.entity? "right" = some e ∧ Shuffled.model.entity? "right" = some e' ∧
      e.Same Circle.model Shuffled.model e' ∧ e'.supers = ["left"] ∧ e'.subs = ["word"]) ∧
    Program.ofModel Sample.engine Circle.model Sample.config = .ok (Circle.program, 0) ∧
    Program.ofModel Sample.engine Shuffled.model Sample.config = .ok (Shuffled.program, 0) ∧
    ∀ text, Circle.program.read text = Shuffled.program.read text := by
  obtain ⟨_, hsame, hread⟩ := same_of_reachable Circle.ofGrammar_eq Shuffled.ofGrammar_eq rfl
    fun n => Shuffled.rule?_eq
  have hright : Circle.grammar.Reachable "right" :=
    ⟨_, rfl, .single ⟨_, rfl, List.mem_cons_of_mem _ List.mem_cons_self⟩⟩
  obtain ⟨e, e', he, he', hsaid⟩ := hsame "right" hright
  obtain rfl := Option.some.inj he
  exact ⟨Circle.ofGrammar_eq, Shuffled.ofGrammar_eq, hright,
    ⟨_, e', rfl, he', hsaid, hsaid.supers.symm, hsaid.subs.symm⟩, Circle.ofModel_eq,
    Shuffled.ofModel_eq, hread Sample.engine Sample.config _ _ _ _ Circle.ofModel_eq
      Shuffled.ofModel_eq⟩

end Ebnf
