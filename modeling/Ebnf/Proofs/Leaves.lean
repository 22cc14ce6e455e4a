import Mathlib
import Ebnf.Proofs.Marks
import Ebnf.Proofs.Pipeline

/-!
# The leaves of a rule and the properties of its entity

Where a leaf of a rule stands is known twice: on the way down, while its action is made, and on the
way up from the action that was made. Both tell the same, so the properties of an entity are those
of the leaves of its rule that yield a value, in their order and marked as the rule has them.

* `Leaf`, `Expr.leaves`: the leaves of a rule, with what is around them;
* `Expr.tips_plan`: the plan of a rule has the same leaves;
* `Plan.Stands.tells`: so does the tree of actions, which is marked so on the way up;
* `leaves_realized`: the properties that the stage of the bodies makes.
-/

namespace Ebnf

open Build (Place alternativeName discardLabel idsFrom literalName? mem_idsFrom)

/-! ## 1. The leaves of a rule -/

/-- A leaf of a rule, with what is around it. -/
structure Leaf where
  /-- The label that it has. -/
  label : Option Name
  /-- What is read for it. -/
  kind : ActionKind
  /-- Whether it is inside an option or a branch of a choice. -/
  optional : Bool
  /-- Whether it is inside a repetition. -/
  repeated : Bool
  /-- Whether it is the whole rule, up to groups. -/
  whole : Bool
deriving DecidableEq, Repr

namespace Leaf

/-- Whether the leaf is a fixed text. -/
def isLiteral (l : Leaf) : Bool :=
  match l.kind with
  | .literal _ => true
  | _ => false

/-- Whether the leaf yields a value: a reference and a pattern always do, and a fixed text does that
    has a label other than that for discarding, or has none and may be missing or is all there
    is. -/
def yields (l : Leaf) : Bool :=
  if l.isLiteral then
    match l.label with
    | some label => label ≠ "_"
    | none => l.optional || l.whole
  else true

end Leaf

namespace Expr

/-- The leaves of an expression from left to right, where the flags tell what is around it. -/
def leavesIn (isOptional isRepeated isWhole : Bool) : Expr → List Leaf
  | choice left right =>
    left.leavesIn true isRepeated false ++ right.leavesIn true isRepeated false
  | sequence left right =>
    left.leavesIn isOptional isRepeated false ++ right.leavesIn isOptional isRepeated false
  | optional inner => inner.leavesIn true isRepeated false
  | repetition inner => inner.leavesIn isOptional true false
  | group inner => inner.leavesIn isOptional isRepeated isWhole
  | reference label target => [⟨label, .entity target, isOptional, isRepeated, isWhole⟩]
  | literal label text => [⟨label, .literal text, isOptional, isRepeated, isWhole⟩]
  | pattern label source => [⟨label, .pattern source, isOptional, isRepeated, isWhole⟩]

/-- The leaves of a rule, from left to right. -/
def leaves (e : Expr) : List Leaf :=
  e.leavesIn false false true

/-- The leaves of a chain are those of its branches. -/
theorem flatMap_leavesIn_alternatives (isRepeated : Bool) (e : Expr) :
    e.alternatives.flatMap (leavesIn true isRepeated false) = e.leavesIn true isRepeated false := by
  induction e with
  | choice left right ihl ihr => rw [alternatives, List.flatMap_append, ihl, ihr, leavesIn]
  | _ => exact List.flatMap_singleton ..

/-- The leaves of a chain are those of its members. -/
theorem flatMap_leavesIn_members (isOptional isRepeated : Bool) (e : Expr) :
    e.members.flatMap (leavesIn isOptional isRepeated false) =
      e.leavesIn isOptional isRepeated false := by
  induction e with
  | sequence left right ihl ihr => rw [members, List.flatMap_append, ihl, ihr, leavesIn]
  | _ => exact List.flatMap_singleton ..

end Expr

/-! ## 2. The leaves of a plan -/

/-- What counts of a leaf. -/
structure Tip where
  /-- What is read for it. -/
  kind : ActionKind
  /-- Whether only its success is kept. -/
  witness : Bool
  /-- Whether it has a property. -/
  named : Bool
  /-- Whether it may be skipped, by itself or with what is around it. -/
  optional : Bool
  /-- Whether it repeats, by itself or with what is around it. -/
  plural : Bool
deriving DecidableEq, Repr

/-- What counts of a leaf of a rule. -/
def Leaf.tip (l : Leaf) : Tip where
  kind := l.kind
  witness := l.isLiteral && l.yields && l.optional
  named := l.yields
  optional := l.optional
  plural := l.repeated

namespace Plan

mutual

/-- The leaves of a plan from left to right, where the flags tell what is around it. -/
def tips (optional plural : Bool) : Plan → List Tip
  | leaf mods symbol slot =>
    [⟨symbol.kind, symbol.isWitness, slot.isSome, mods.optional || optional, mods.plural || plural⟩]
  | node mods choice parts =>
    tipsOf (mods.optional || choice || optional) (mods.plural || plural) parts

/-- The leaves of several plans. -/
def tipsOf (optional plural : Bool) : List Plan → List Tip
  | [] => []
  | p :: ps => p.tips optional plural ++ tipsOf optional plural ps

end

theorem tipsOf_eq_flatMap (optional plural : Bool) (ps : List Plan) :
    tipsOf optional plural ps = ps.flatMap (tips optional plural) := by
  induction ps with
  | nil => rfl
  | cons p ps ih => rw [tipsOf, List.flatMap_cons, ih]

/-- A mark on the topmost action is as good as one around it. -/
theorem tips_withMods_optional (p : Plan) (optional plural : Bool) :
    (p.withMods fun mods => { mods with optional := true }).tips optional plural =
      p.tips true plural := by
  cases p <;> simp [withMods, tips]

theorem tips_withMods_plural (p : Plan) (optional plural : Bool) :
    (p.withMods fun mods => { mods with plural := true }).tips optional plural =
      p.tips optional true := by
  cases p <;> simp [withMods, tips]

end Plan

/-- A literal gets a name where it yields a value. -/
theorem isSome_literalName? [Unicode.Xid] (entity : Name) (label : Option Name) (text : String)
    (place : Place) (isRepeated : Bool) : (literalName? entity label text place).isSome =
      Leaf.yields ⟨label, .literal text, place.optional, isRepeated, place.whole⟩ := by
  obtain ⟨optional, whole⟩ := place
  cases label with
  | some label =>
    by_cases hdiscard : label = "_" <;>
      simp [literalName?, Leaf.yields, Leaf.isLiteral, discardLabel, hdiscard]
  | none => cases optional <;> cases whole <;> rfl

/-- The plan of an expression has its leaves. -/
theorem Expr.tips_plan [Unicode.Xid] {entity : Name} (e : Expr) :
    ∀ (place : Place) (isRepeated : Bool),
    (e.plan entity place).tips place.optional isRepeated =
      (e.leavesIn place.optional isRepeated place.whole).map Leaf.tip := by
  have hparts : ∀ (es : List Expr) (place : Place) (isRepeated : Bool),
      (∀ e ∈ es, ∀ (place : Place) (isRepeated : Bool),
        (e.plan entity place).tips place.optional isRepeated =
          (e.leavesIn place.optional isRepeated place.whole).map Leaf.tip) →
      Plan.tipsOf place.optional isRepeated (es.map (Expr.plan entity place)) =
        (es.flatMap (leavesIn place.optional isRepeated place.whole)).map Leaf.tip := by
    intro es place isRepeated h
    rw [Plan.tipsOf_eq_flatMap, List.flatMap_map, List.map_flatMap]
    exact List.flatMap_congr fun e he => h e he place isRepeated
  induction e using Expr.chainInduction with
  | choice left right ih =>
    intro place isRepeated
    rw [Expr.plan_choice, Plan.tips]
    refine (hparts _ place.branch isRepeated ih).trans ?_
    rw [List.flatMap_append, leavesIn, ← flatMap_leavesIn_alternatives,
      ← flatMap_leavesIn_alternatives isRepeated right]
    rfl
  | sequence left right ih =>
    intro place isRepeated
    rw [Expr.plan_sequence, Plan.tips]
    refine (hparts _ place.nested isRepeated ih).trans ?_
    rw [List.flatMap_append, leavesIn, ← flatMap_leavesIn_members,
      ← flatMap_leavesIn_members _ isRepeated right]
    rfl
  | optional inner ih =>
    intro place isRepeated
    rw [Expr.plan, Plan.tips_withMods_optional]
    exact ih place.branch isRepeated
  | repetition inner ih =>
    intro place isRepeated
    rw [Expr.plan, Plan.tips_withMods_plural]
    exact ih place.nested true
  | group inner ih =>
    intro place isRepeated
    rw [Expr.plan]
    exact ih place isRepeated
  | reference label target =>
    intro place isRepeated
    rw [Expr.plan]
    rfl
  | literal label text =>
    intro place isRepeated
    rw [Expr.plan]
    simp [Plan.tips, leavesIn, Leaf.tip, Leaf.isLiteral, Symbol.kind, Symbol.isWitness,
      isSome_literalName? entity label text place isRepeated]
  | pattern label source =>
    intro place isRepeated
    rw [Expr.plan]
    rfl

/-! ## 3. The leaves of the tree of actions -/

namespace ActionTree

mutual

/-- The leaves of a tree from left to right. -/
def leaves : ActionTree → List ActionTree
  | node id a p ts => if a.isLeaf then [node id a p ts] else leavesOf ts

/-- The leaves of several trees. -/
def leavesOf : List ActionTree → List ActionTree
  | [] => []
  | t :: ts => t.leaves ++ leavesOf ts

end

/-- The properties that the leaves of a tree fill, from left to right. -/
def filled (t : ActionTree) : List PropertyId :=
  t.leaves.filterMap (·.action.property)

end ActionTree

/-- A leaf of a tree of actions is what a leaf of a plan tells. -/
structure Model.Tells (m : Model) (entity : Name) (t : ActionTree) (tip : Tip) : Prop where
  kind : t.action.kind = tip.kind
  witness : t.action.isWitness = tip.witness
  silent : tip.named = false → t.action.property = none
  property : tip.named = true → ∃ id name, t.action.property = some id ∧
    m.properties[id.index]? = some { name := name, entity := entity, source := t.id }
  way : ∃ way, m.Way t.id way ∧ Mark.mayMiss way = tip.optional ∧ Mark.repeats way = tip.plural

namespace Plan

variable {m : Model} {entity : Name} {link : ActionId → Option PropertyId}

/-- The tree of a leaf is its only leaf. -/
theorem leaves_treeOf_leaf (mods : Modifiers) (symbol : Symbol) (slot : Option Name) (a q : Nat)
    (parent : Option ActionId) : ((leaf mods symbol slot).treeOf m link a q parent).leaves =
      [(leaf mods symbol slot).treeOf m link a q parent] := by
  rw [treeOf, ActionTree.leaves, if_pos (isLeaf_top_leaf ..)]

/-- The leaves of any other tree are those of its parts. -/
theorem leaves_treeOf_node (mods : Modifiers) (choice : Bool) (parts : List Plan) (a q : Nat)
    (parent : Option ActionId) : ((node mods choice parts).treeOf m link a q parent).leaves =
      ActionTree.leavesOf (treesOf m link a q (some ⟨a + sizes parts⟩) parts) := by
  have hnode : Action.isLeaf { (node mods choice parts).top a q parent with
      property := link ⟨a + sizes parts⟩ } = false := isLeaf_top_node mods choice parts a q parent
  rw [treeOf, ActionTree.leaves, hnode]
  rfl

mutual

/-- The leaves of a tree fill the properties of its plan, in order. -/
theorem filled_treeOf {a q : Nat} {parent : Option ActionId} : ∀ p : Plan,
    (p.treeOf m link a q parent).leaves.filterMap (·.action.property) = idsFrom q p.width
  | leaf mods symbol slot => by
    rw [leaves_treeOf_leaf]
    cases slot <;> rfl
  | node mods choice parts => by
    rw [leaves_treeOf_node]
    exact filled_treesOf parts

theorem filled_treesOf {a q : Nat} {parent : Option ActionId} : ∀ ps : List Plan,
    (ActionTree.leavesOf (treesOf m link a q parent ps)).filterMap (·.action.property) =
      idsFrom q (slotsOf ps).length
  | [] => rfl
  | p :: ps => by
    rw [treesOf, ActionTree.leavesOf, List.filterMap_append, filled_treeOf p, filled_treesOf ps,
      slotsOf, List.length_append, idsFrom, idsFrom, idsFrom, ← List.map_append, width,
      List.range'_append_1]

end

mutual

/-- The leaves of a tree are marked on the way up as the plan tells on the way down. -/
theorem Stands.tells {a q b : Nat} {parent : Option ActionId} {around : List Mark} :
    ∀ {p : Plan}, p.Stands m entity link a q parent → a + p.size ≤ b →
      m.Beneath b around parent → List.Forall₂ (m.Tells entity) (p.treeOf m link a q parent).leaves
        (p.tips (around.any fun mark => mark.optional || mark.choice) (around.any Mark.plural))
  | leaf mods symbol slot, ⟨htop, hslot⟩, hb, haround => by
    rw [leaves_treeOf_leaf, tips]
    refine .cons ⟨rfl, rfl, fun hsilent => ?_, fun hnamed => ?_, ?_⟩ .nil
    · obtain rfl : slot = none := by simpa using hsilent
      rfl
    · obtain ⟨name, hproperty⟩ := hslot hnamed
      obtain ⟨name', rfl⟩ := Option.isSome_iff_exists.1 hnamed
      exact ⟨⟨q⟩, name, rfl, hproperty⟩
    · refine ⟨_, .cons htop hb haround, ?_, ?_⟩
      · rw [mark_leaf]
        rfl
      · rw [mark_leaf]
        rfl
  | node mods choice parts, ⟨hparts, htop⟩, hb, haround => by
    rw [leaves_treeOf_node, tips]
    have hway : m.Way ⟨a + sizes parts⟩ (⟨mods.optional, mods.plural, choice⟩ :: around) := by
      rw [← mark_node mods choice parts a q parent (link ⟨a + sizes parts⟩)]
      exact .cons htop hb haround
    exact hparts.tells (Nat.le_refl _) ⟨Nat.le_refl _, hway⟩

theorem StandInRow.tells {a q b : Nat} {parent : Option ActionId} {around : List Mark} :
    ∀ {ps : List Plan}, StandInRow m entity link a q parent ps → a + sizes ps ≤ b →
      m.Beneath b around parent →
      List.Forall₂ (m.Tells entity) (ActionTree.leavesOf (treesOf m link a q parent ps))
        (tipsOf (around.any fun mark => mark.optional || mark.choice) (around.any Mark.plural) ps)
  | [], _, _, _ => .nil
  | p :: ps, ⟨hp, hps⟩, hb, haround => by
    rw [sizes, ← Nat.add_assoc] at hb
    rw [treesOf, ActionTree.leavesOf, tipsOf]
    exact List.rel_append (hp.tells (Nat.le_trans (Nat.le_add_right ..) hb) haround)
      (hps.tells hb haround)

end

end Plan

/-! ## 4. The stage of the bodies -/

/-- A leaf of the tree of an entity is what a leaf of the rule was made into: it has a property of
    the entity where the leaf yields a value. -/
structure Model.Realizes (m : Model) (e : Entity) (t : ActionTree) (l : Leaf) : Prop where
  kind : t.action.kind = l.kind
  discarded : l.yields = false → t.action.property = none
  property : l.yields = true → ∃ id p, t.action.property = some id ∧
    m.properties[id.index]? = some p ∧ (p.name, id) ∈ e.properties ∧ p.entity = e.name ∧
    p.kind = .plain ∧ p.source = t.id ∧ m.isPlural id = .ok l.repeated ∧
    m.isOptional id = .ok l.optional ∧ t.action.isWitness = (l.isLiteral && l.optional)

namespace Site

variable {m : Model} {e : Entity} {s : Site}

/-- The properties of the leaves of an entity without a proxy are listed under their names. -/
theorem Hosts.mem_properties (h : s.Hosts m e) (hproxy : s.proxy = none) {id : PropertyId}
    {p : Property} (hid : id ∈ s.ids) (hp : m.properties[id.index]? = some p) :
    (p.name, id) ∈ e.properties := by
  obtain ⟨k, hk, rfl⟩ := mem_idsFrom.1 hid
  have hlt : k < s.names.length := by rwa [length_names]
  obtain ⟨p', hp', hname⟩ := h.named k _ (List.getElem?_eq_getElem hlt)
  obtain rfl := Option.some.inj (hp.symm.trans hp')
  rw [h.current, current_plain hproxy, hname]
  refine List.mem_of_getElem? (i := k) (List.getElem?_zip_eq_some.2 ⟨?_, ?_⟩)
  · exact List.getElem?_eq_getElem hlt
  · exact Build.getElem?_idsFrom hk

/-- The leaves of the tree of an entity without a proxy are those of its rule. -/
theorem Hosts.realizes [Unicode.Xid] (h : s.Hosts m e) (hproxy : s.proxy = none) {body : Expr}
    (hplan : s.plan = body.plan e.name .top) : List.Forall₂ (m.Realizes e)
      (s.plan.treeOf m s.link s.action s.property none).leaves body.leaves := by
  have htips : s.plan.tips false false = body.leaves.map Leaf.tip := by
    rw [hplan]
    exact body.tips_plan .top false
  have haround : m.Beneath s.fin [] none := rfl
  have htells := h.stands.tells (Nat.le_refl _) haround
  have hfilled : (s.plan.treeOf m s.link s.action s.property none).filled =
      idsFrom s.property s.plan.width := Plan.filled_treeOf s.plan
  rw [List.any_nil, List.any_nil, htips, List.forall₂_map_right_iff] at htells
  refine ((List.forall₂_and_left _ _).2 ⟨fun t ht => ht, htells⟩).imp fun t l ⟨ht, htell⟩ => ?_
  refine ⟨htell.kind, htell.silent, fun hyields => ?_⟩
  obtain ⟨id, name, hlink, hproperty⟩ := htell.property hyields
  obtain ⟨way, hway, hoptional, hplural⟩ := htell.way
  have hid : id ∈ s.ids := by
    rw [ids, ← hfilled]
    exact List.mem_filterMap.2 ⟨t, ht, hlink⟩
  have hwitness : t.action.isWitness = (l.isLiteral && l.optional) := by
    have hwitness : t.action.isWitness = (l.isLiteral && l.yields && l.optional) := htell.witness
    rwa [hyields, Bool.and_true] at hwitness
  have hp := Model.property_eq_ok_iff.2 hproperty
  exact ⟨id, _, hlink, hproperty, h.mem_properties hproxy hid hproperty, rfl, rfl, rfl,
    (hway.isPlural_eq hp).trans (congrArg Except.ok hplural),
    (hway.isOptional_eq hp).trans (congrArg Except.ok hoptional), hwitness⟩

end Site

namespace Build

variable {g : Grammar} {m : Model}

/-- The first two stages lead to a model whose bodies are as the rules say and have no proxies. -/
theorem ensures_stages_bodies [Unicode.Xid] (g : Grammar) (d : Draft) :
    Ensures (stages g [.bodies]) d (Halted g) fun _ d' => d'.model.OfRules g ∧
      ∃ site, d'.model.Sited site d'.model.names ∧ ∀ n ∈ d'.model.names, (site n).proxy = none := by
  rw [stages, ensures_bind]
  refine ensures_skeleton.mono (fun _ h => h) fun _ d₁ hskeleton => ?_
  obtain ⟨hrules, hbare⟩ := hskeleton
  show Ensures (Build.bodies >>= fun _ => pure ()) d₁ _ _
  rw [ensures_bind]
  refine (ensures_bodies_keep (P := fun site done _ => ∀ n ∈ done, (site n).proxy = none) hrules
    hbare.bodiless.closed (fun _ n hn => absurd hn List.not_mem_nil) ?_).mono (fun _ h => h)
    fun _ d₂ hbodies => ?_
  · intro site done m₁ m₂ entity plan _ _ _ hplain n hn
    by_cases hentity : n = entity
    · rw [hentity, Function.update_self]
      rfl
    · rw [Function.update_of_ne hentity]
      exact hplain n ((List.mem_append.1 hn).resolve_right fun hn =>
        hentity (List.mem_singleton.1 hn))
  · obtain ⟨hkin, _, site, hsited, hplain⟩ := hbodies
    exact ⟨hrules.of_sameKin hkin, site, hsited, hplain⟩

/-- After the first two stages the properties of an entity are those of the leaves of its rule that
    yield a value, from left to right: each is plural if its leaf is inside a repetition, optional
    if it is inside an option or a branch of a choice, and a flag if it is such a literal. -/
theorem leaves_realized [Unicode.Xid] (h : (Build.run (stages g [.bodies]) ∅).1 = .ok m) :
    ∀ e ∈ m.entities, ∃ r top t, g.rule? e.name = some r ∧ e.action = some top ∧
      m.tree top = .ok t ∧ e.properties.ids = t.filled ∧ e.properties.ids.Nodup ∧
      List.Forall₂ (m.Realizes e) t.leaves r.body.leaves := by
  have hrun := Ensures.run (Q := fun m => m.OfRules g ∧ ∃ site, m.Sited site m.names ∧
    ∀ n ∈ m.names, (site n).proxy = none) (ensures_stages_bodies g { model := ∅ })
  rw [h] at hrun
  obtain ⟨hrules, site, hsited, hplain⟩ := hrun
  intro e he
  obtain ⟨r, hr, hplan⟩ := hsited.plan_of_mem he
  have hosts := hsited.hosts_of_mem he
  have hproxy := hplain e.name (List.mem_map_of_mem he)
  have hids : e.properties.ids = (site e.name).ids := by
    rw [hosts.current, Site.ids_current_plain hproxy]
  refine ⟨r, _, _, (hrules.rule e he).symm.trans hr, hosts.action, hosts.tree_eq, ?_, ?_,
    hosts.realizes hproxy hplan⟩
  · rw [hids]
    exact (Plan.filled_treeOf _).symm
  · rw [hids]
    exact (List.nodup_range' ..).map fun i j hij => congrArg PropertyId.index hij

end Build

namespace Fields

/-- One rule with all that makes a difference for a leaf, and one that is a mere text. -/
def grammar : Grammar where
  rules := [
    { name := "r",
      body := .sequence (.literal none "k") (.sequence (.literal (some "x") "a")
        (.sequence (.optional (.literal none "b")) (.sequence (.repetition (.reference none "n"))
          (.literal (some "_") "c")))) },
    { name := "n", body := .group (.literal none "q") }]

/-- The entities of the rules. -/
def entities : List Entity := [
  { name := "r", rule := grammar.rule? "r",
    properties := [("x", ⟨0⟩), ("has_b", ⟨1⟩), ("n", ⟨2⟩)], action := some ⟨5⟩ },
  { name := "n", rule := grammar.rule? "n", properties := [("n", ⟨3⟩)], action := some ⟨6⟩ }]

/-- The model of the rules after the first two stages. -/
def model : Model where
  entities := entities
  properties := #[
    { name := "x", entity := "r", source := ⟨1⟩ },
    { name := "has_b", entity := "r", source := ⟨2⟩ },
    { name := "n", entity := "r", source := ⟨3⟩ },
    { name := "n", entity := "n", source := ⟨6⟩ }]
  actions := #[
    { kind := .literal "k", parent := some ⟨5⟩ },
    { kind := .literal "a", property := some ⟨0⟩, parent := some ⟨5⟩ },
    { kind := .literal "b", isOptional := true, isWitness := true, property := some ⟨1⟩,
      parent := some ⟨5⟩ },
    { kind := .entity "n", isPlural := true, property := some ⟨2⟩, parent := some ⟨5⟩ },
    { kind := .literal "c", parent := some ⟨5⟩ },
    { kind := .all [⟨0⟩, ⟨1⟩, ⟨2⟩, ⟨3⟩, ⟨4⟩] },
    { kind := .literal "q", property := some ⟨3⟩ }]
  root := some "r"

theorem run_eq : (Build.run (Build.stages grammar [.bodies]) ∅).1 = .ok model := by
  cbv

end Fields

/-- Of five leaves three have a property; the first text and the discarded one have none. -/
theorem leaves_realized_fields :
    (Build.run (Build.stages Fields.grammar [.bodies]) ∅).1 = .ok Fields.model ∧
    ∃ r top t, Fields.grammar.rule? "r" = some r ∧ Fields.entities[0].action = some top ∧
      Fields.model.tree top = .ok t ∧ Fields.entities[0].properties.ids = t.filled ∧
      List.Forall₂ (Fields.model.Realizes Fields.entities[0]) t.leaves r.body.leaves ∧
      r.body.leaves.map Leaf.yields = [false, true, true, true, false] := by
  obtain ⟨r, top, t, hr, htop, ht, hids, _, hall⟩ :=
    Build.leaves_realized Fields.run_eq Fields.entities[0] (by decide)
  refine ⟨Fields.run_eq, r, top, t, hr, htop, ht, hids, hall, ?_⟩
  cases hr
  decide

end Ebnf
