import Ebnf.Proofs.Ownership
import Ebnf.Proofs.StoredRules

/-!
# When a grammar has a model

A model can be built exactly if there are rules and the ones that count refer to declared rules
only, as long as there are ids for all actions. Where it cannot, the first reference that leads
nowhere is named: the stage of the bodies looks at the rules that count one after another and at the
references of each from left to right, and nothing after that stage ends early.

* `Grammar.broken?`: the first reference that leads nowhere;
* `Grammar.actionCount`: the number of actions that a model of the grammar takes;
* `Grammar.Yields`: what building a model may lead to, and what follows from each outcome;
* `Build.ensures_bodies_outcome`, `Build.ensures_finish`: the stage of the bodies and what follows;
* `ofGrammar_outcome`: whether there is a model, and why not.
-/

namespace Ebnf

/-! ## 1. Broken references -/

namespace Grammar

variable {g g' : Grammar} {n : Name}

/-- Some rule has the name. -/
def Declares (g : Grammar) (n : Name) : Prop :=
  ∃ r ∈ g.rules, r.name = n

instance : Decidable (g.Declares n) :=
  inferInstanceAs (Decidable (∃ r ∈ g.rules, r.name = n))

/-- The rule refers to declared rules only. -/
def Closes (g : Grammar) (r : Rule) : Prop :=
  ∀ target ∈ r.body.references, g.Declares target

/-- The first of the rules that count that refers to a rule that is not declared, and the first such
    reference in it. -/
def broken? (g : Grammar) : Option (Name × Name) :=
  g.firstRules.findSome? fun r =>
    (r.body.references.find? (¬ g.Declares ·)).map fun target => (r.name, target)

/-- A name is declared if a rule that counts has it. -/
theorem declares_iff : g.Declares n ↔ n ∈ g.firstRules.map Rule.name := by
  have hfind : (g.firstRules.find? (·.name = n)).isSome = (g.rules.find? (·.name = n)).isSome :=
    congrArg Option.isSome (find?_firstOfName g.rules n)
  rw [Bool.eq_iff_iff, List.find?_isSome, List.find?_isSome] at hfind
  rw [Declares, List.mem_map]
  simpa using hfind.symm

/-- No reference is broken where every rule that counts refers to declared rules only. -/
theorem broken?_eq_none_iff : g.broken? = none ↔ ∀ r ∈ g.firstRules, g.Closes r := by
  simp [broken?, Closes]

/-- The first rule that breaks a reference comes after rules that break none. -/
theorem broken?_eq_some {done rest : List Rule} {r : Rule} {target : Name}
    (hsplit : g.firstRules = done ++ r :: rest) (hdone : ∀ o ∈ done, g.Closes o)
    (htarget : r.body.references.find? (¬ g.Declares ·) = some target) :
    g.broken? = some (r.name, target) := by
  have hnone : done.findSome? (fun r =>
      (r.body.references.find? (¬ g.Declares ·)).map fun target => (r.name, target)) = none := by
    simpa [Closes] using hdone
  rw [broken?, hsplit, List.findSome?_append, hnone, List.findSome?_cons, htarget]
  rfl

/-- The rule of a name is told by those that count. -/
theorem rule?_congr (h : g'.firstRules = g.firstRules) : g'.rule? = g.rule? := by
  funext n
  have hfind := find?_firstOfName g.rules n
  have hfind' := find?_firstOfName g'.rules n
  rw [show firstOfName g'.rules = firstOfName g.rules from h, hfind] at hfind'
  exact hfind'.symm

end Grammar

/-! ## 2. How many entries there are -/

namespace Plan

mutual

/-- A plan has at least as many actions as properties. -/
theorem width_le_size : ∀ p : Plan, p.width ≤ p.size
  | leaf _ _ slot => by cases slot <;> simp [width, slots, size]
  | node _ _ parts => Nat.le_succ_of_le (length_slotsOf_le parts)

theorem length_slotsOf_le : ∀ ps : List Plan, (slotsOf ps).length ≤ sizes ps
  | [] => Nat.le_refl 0
  | p :: ps => by
    rw [slotsOf, List.length_append, sizes]
    exact Nat.add_le_add p.width_le_size (length_slotsOf_le ps)

end

theorem sizes_append (ps ps' : List Plan) : sizes (ps ++ ps') = sizes ps + sizes ps' := by
  induction ps with
  | nil => rw [List.nil_append, sizes, Nat.zero_add]
  | cons p ps ih => rw [List.cons_append, sizes, sizes, ih, Nat.add_assoc]

theorem slotsOf_append (ps ps' : List Plan) : slotsOf (ps ++ ps') = slotsOf ps ++ slotsOf ps' := by
  induction ps with
  | nil => rfl
  | cons p ps ih => rw [List.cons_append, slotsOf, slotsOf, ih, List.append_assoc]

end Plan

/-- What the rule describes. -/
def Rule.plan [Unicode.Xid] (r : Rule) : Plan :=
  r.body.plan r.name .top

/-- The number of actions of the rules that count. -/
def Grammar.actionCount [Unicode.Xid] (g : Grammar) : Nat :=
  Plan.sizes (g.firstRules.map Rule.plan)

/-! ## 3. Outcomes -/

theorem Grammar.rules_ne_nil_of_broken {g : Grammar} {broken : Name × Name}
    (h : g.broken? = some broken) : g.rules ≠ [] := by
  intro hrules
  rw [broken?, firstRules_eq_nil_iff.2 hrules] at h
  contradiction

theorem Grammar.rules_ne_nil_of_actionCount_pos [Unicode.Xid] {g : Grammar}
    (h : 0 < g.actionCount) :
    g.rules ≠ [] := by
  intro hrules
  rw [actionCount, firstRules_eq_nil_iff.2 hrules] at h
  contradiction

/-- What building a model of a grammar leads to. -/
inductive Grammar.Yields [Unicode.Xid] (g : Grammar) : Except BuildStop Model → Prop where
  /-- There are no rules. -/
  | empty (hrules : g.rules = []) : Yields g (.error (.error .emptyGrammar))
  /-- A reference leads nowhere. -/
  | broken {rule target : Name} (hbroken : g.broken? = some (rule, target)) :
    Yields g (.error (.error (.unknownReference rule target)))
  /-- There are more actions than ids. -/
  | crowded {i : Nat} (hfull : idCount ≤ i) (hcount : idCount < g.actionCount) :
    Yields g (.error (.fault (.tooManyEntries i)))
  /-- Nothing stands in the way of a model. -/
  | model (m : Model) (hrules : g.rules ≠ []) (hcloses : ∀ r ∈ g.firstRules, g.Closes r)
    (hfits : g.actionCount ≤ idCount) : Yields g (.ok m)

namespace Grammar.Yields

variable {g : Grammar} {result : Except BuildStop Model}

theorem emptyGrammar_iff [Unicode.Xid] (h : g.Yields result) :
    result = .error (.error .emptyGrammar) ↔ g.rules = [] := by
  cases h with
  | empty hrules => exact iff_of_true rfl hrules
  | broken hbroken => exact iff_of_false (by simp) (rules_ne_nil_of_broken hbroken)
  | crowded _ hcount => exact iff_of_false (by simp) (rules_ne_nil_of_actionCount_pos (by omega))
  | model _ hrules => exact iff_of_false (by simp) hrules

theorem ok_iff [Unicode.Xid] (h : g.Yields result) :
    (∃ m, result = .ok m) ↔
      g.rules ≠ [] ∧ (∀ r ∈ g.firstRules, g.Closes r) ∧ g.actionCount ≤ idCount := by
  cases h with
  | empty hrules => exact iff_of_false (by simp) fun h => h.1 hrules
  | broken hbroken =>
    refine iff_of_false (by simp) fun h => ?_
    rw [broken?_eq_none_iff.2 h.2.1] at hbroken
    contradiction
  | crowded _ hcount => exact iff_of_false (by simp) fun h => Nat.not_lt.2 h.2.2 hcount
  | model m hrules hcloses hfits => exact iff_of_true ⟨m, rfl⟩ ⟨hrules, hcloses, hfits⟩

theorem broken?_eq [Unicode.Xid] (h : g.Yields result) {rule target : Name}
    (hresult : result = .error (.error (.unknownReference rule target))) :
    g.broken? = some (rule, target) := by
  cases h with
  | broken hbroken =>
    cases hresult
    exact hbroken
  | _ => cases hresult

theorem unknownReference [Unicode.Xid] (h : g.Yields result) {rule target : Name}
    (hbroken : g.broken? = some (rule, target)) (hfits : g.actionCount ≤ idCount) :
    result = .error (.error (.unknownReference rule target)) := by
  cases h with
  | empty hrules => exact absurd hrules (rules_ne_nil_of_broken hbroken)
  | broken hbroken' =>
    obtain ⟨rfl, rfl⟩ := Prod.mk.inj (Option.some.inj (hbroken.symm.trans hbroken'))
    rfl
  | crowded _ hcount => exact absurd hcount (Nat.not_lt.2 hfits)
  | model _ _ hcloses =>
    rw [broken?_eq_none_iff.2 hcloses] at hbroken
    contradiction

theorem stop_cases [Unicode.Xid] (h : g.Yields result) {stop : BuildStop}
    (hresult : result = .error stop) :
    stop = .error .emptyGrammar ∨ (∃ rule target, stop = .error (.unknownReference rule target)) ∨
      idCount < g.actionCount ∧ ∃ i, idCount ≤ i ∧ stop = .fault (.tooManyEntries i) := by
  cases h with
  | empty => cases hresult; exact .inl rfl
  | @broken rule target => cases hresult; exact .inr (.inl ⟨rule, target, rfl⟩)
  | @crowded i hfull hcount => cases hresult; exact .inr (.inr ⟨hcount, i, hfull, rfl⟩)
  | model => cases hresult

end Grammar.Yields

namespace Build

variable {g : Grammar}

/-! ## 4. The stage of the bodies -/

/-- How far the stage of the bodies has got when it has made those of the rules in `done`. -/
structure Bodied [Unicode.Xid] (g : Grammar) (done : List Rule) (m : Model) : Prop where
  names : m.names = g.firstRules.map Rule.name
  actions : m.actions.size = Plan.sizes (done.map Rule.plan)
  properties : m.properties.size = (Plan.slotsOf (done.map Rule.plan)).length
  closes : ∀ r ∈ done, g.Closes r
  fits : m.actions.size ≤ idCount

/-- One more body is made, unless its rule is the first to break a reference. -/
theorem Bodied.ensures_body [Unicode.Xid] {done rest : List Rule} {r : Rule} {d : Draft}
    (h : Bodied g done d.model) (hsplit : g.firstRules = done ++ r :: rest) :
    Ensures (body r.name r.body) d (fun stop => g.Yields (.error stop)) fun _ d' =>
      Bodied g (done ++ [r]) d'.model := by
  have hdeclares : ∀ t, t ∈ d.model.names ↔ g.Declares t := by
    intro t
    rw [h.names, Grammar.declares_iff]
  refine (Build.ensures_body r.body d).mono (fun stop hstop => ?_) fun _ d' hd' => ?_
  · obtain ⟨⟨i, hfull, rfl⟩ | ⟨target, hfind, rfl⟩, hwithin⟩ := hstop
    · -- the entry without an id is an action or a property of this rule, and these are no more
      -- than the actions of all rules
      refine .crowded hfull ?_
      have hlt : i < d.model.actions.size + r.plan.size ∨
          i < d.model.properties.size + r.plan.width := hwithin i rfl
      have hdone := Plan.length_slotsOf_le (done.map Rule.plan)
      have hle := r.plan.width_le_size
      rw [h.actions, h.properties] at hlt
      rw [Grammar.actionCount, hsplit, List.map_append, List.map_cons, Plan.sizes_append,
        Plan.sizes]
      omega
    · refine .broken (Grammar.broken?_eq_some hsplit h.closes ?_)
      simpa only [hdeclares] using hfind
  · obtain ⟨hlaid, hrefs, hfits⟩ := hd'
    have hactions : d'.model.actions.size = d.model.actions.size + r.plan.size :=
      hlaid.actions_size
    have hproperties : d'.model.properties.size = d.model.properties.size + r.plan.width :=
      hlaid.properties_size
    constructor
    case names => rw [hlaid.names_eq, h.names]
    case actions => simp [hactions, h.actions, Plan.sizes_append, Plan.sizes]
    case properties =>
      simp [hproperties, h.properties, Plan.slotsOf_append, Plan.slotsOf, Plan.width]
    case closes =>
      intro o ho
      rcases List.mem_append.1 ho with ho | ho
      · exact h.closes o ho
      · obtain rfl := List.mem_singleton.1 ho
        exact fun t ht => (hdeclares t).1 (hrefs t ht)
    case fits => rw [hactions]; exact hfits

/-- The stage of the bodies ends at the first broken reference, or for want of ids. -/
theorem ensures_bodies_outcome [Unicode.Xid] {d : Draft} (hd : d.model = .ofRules g.firstRules) :
    Ensures bodies d (fun stop => g.Yields (.error stop)) fun _ d' =>
      Bodied g g.firstRules d'.model := by
  rw [bodies, ensures_bind, ensures_model, hd]
  show Ensures (forM (g.firstRules.map Entity.ofRule) bodyOf) d _ _
  rw [List.forM_map]
  refine ensures_forM (I := fun done d => Bodied g done d.model)
    (fun done r rest hsplit d h => h.ensures_body hsplit) ?_
  rw [hd]
  exact ⟨Model.names_ofRules _, rfl, rfl, fun r hr => absurd hr List.not_mem_nil, Nat.zero_le _⟩

/-! ## 5. The stages after the bodies -/

/-- After the stage of the bodies nothing ends early. -/
theorem ensures_finish [Unicode.Xid] {d : Draft} {E : BuildStop → Prop} {site : Name → Site}
    (h : Reached g d.model True) (hsited : d.model.Sited site d.model.names)
    (hfilled : d.model.Filled site d.model.names) (hfits : d.model.actions.size ≤ idCount) :
    Ensures finish d E fun _ _ => True := by
  rw [finish, ensures_bind, ensures_model, ensures_bind, ensures_model, ensures_bind, ensures_tell,
    ensures_bind]
  let told : Draft := { d with
    events := d.events.push (.bodiesMade d.model.properties.size d.model.actions.size) }
  have hproxies := ensures_alternatives_filled (d := told) h.rules.nodup h.closed hsited hfilled
  refine hproxies.mono (fun _ hcrowded => absurd hcrowded (Nat.not_lt.2 hfits)) ?_
  rintro _ d₁ ⟨hkin, hclosed, site₁, hsited₁, _⟩
  rw [ensures_bind]
  refine ((h.of_sameKin hkin hclosed hsited₁).ensures_hierarchy rfl).mono (fun _ h => h) ?_
  rintro _ d₂ ⟨hreached, _⟩
  obtain ⟨n, hn⟩ := hreached.virtualCount_ok
  rw [ensures_bind, ensures_model, ensures_bind, ensures_model, ensures_bind, ensures_check_ok hn,
    ensures_tell]
  trivial

/-! ## 6. Whole grammars -/

/-- The model of the entities alone is as the first stage leaves it. -/
theorem reached_ofRules [Unicode.Xid] (g : Grammar) :
    Reached g (.ofRules g.firstRules) False ∧ Bodiless (.ofRules g.firstRules) := by
  obtain ⟨events, hrun⟩ := exists_skeleton g { model := ∅ }
  have hreached := (ensures_skeleton_reached (g := g) (d := { model := ∅ })
    (E := fun _ => False)).of_ok hrun
  exact ⟨hreached.1, hreached.1.bodiless id⟩

/-- The outcome of building a model from rules. -/
theorem yields_grammar [Unicode.Xid] (hrules : g.rules ≠ []) :
    Ensures (grammar g) { model := ∅ } (fun stop => g.Yields (.error stop)) fun _ d =>
      g.Yields (.ok d.model) := by
  have hfirst : g.firstRules ≠ [] := fun h => hrules (Grammar.firstRules_eq_nil_iff.1 h)
  obtain ⟨events, hrun⟩ := exists_grammar_eq hfirst
  unfold Ensures
  rw [hrun]
  show Ensures (bodies >>= fun _ => finish) { model := .ofRules g.firstRules, events } _ _
  rw [ensures_bind]
  obtain ⟨hreached, hbodiless⟩ := reached_ofRules g
  have hfilled := ensures_bodies_filled (g := g)
    (d := { model := .ofRules g.firstRules, events }) hreached.rules hbodiless
  refine ((ensures_bodies_outcome rfl).and hfilled).mono (fun _ hstop => hstop.1) ?_
  rintro _ d ⟨hbodied, hkin, hclosed, site, hsited, hfilled⟩
  have hfits : g.actionCount ≤ idCount := by
    rw [Grammar.actionCount, ← hbodied.actions]
    exact hbodied.fits
  refine (ensures_finish (hreached.of_sameKin hkin hclosed hsited) hsited hfilled
    hbodied.fits).mono (fun _ h => h) fun _ d' _ => ?_
  exact .model d'.model hrules hbodied.closes hfits

end Build

/-- Building a model leads to one of these. -/
theorem yields_ofGrammar [Unicode.Xid] (g : Grammar) : g.Yields (Model.ofGrammar g) := by
  by_cases hrules : g.rules = []
  · rw [ofGrammar_of_firstRules_eq_nil (Grammar.firstRules_eq_nil_iff.2 hrules)]
    exact .empty hrules
  have hrun := (Build.yields_grammar hrules).run (Q := fun m => g.Yields (.ok m))
  unfold Model.ofGrammar
  cases hresult : (Build.run (Build.grammar g) ∅).1 with
  | ok m => rw [hresult] at hrun; exact hrun
  | error stop => rw [hresult] at hrun; exact hrun

/-- Only the rules that count have a say in the model. -/
theorem ofGrammar_congr [Unicode.Xid] {g g' : Grammar} (h : g'.firstRules = g.firstRules) :
    Model.ofGrammar g' = Model.ofGrammar g := by
  have hlike : ∀ g' : Grammar, g'.firstRules = g.firstRules →
      Model.ofGrammar g' = (Model.ofGrammar g).map (Model.withRules g'.rule?) := by
    intro g' hg'
    refine ofGrammar_of_likewise ?_
    rw [hg']
    exact List.forall₂_same.2 fun r _ => ⟨rfl, rfl⟩
  rw [hlike g' h, Grammar.rule?_congr h]
  exact (hlike g rfl).symm

/-- A grammar has a model exactly if it has rules and those that count refer to declared rules only,
    as long as there are ids for all actions. Without rules that is the error; with a broken
    reference the error names the first one; and it is never another, nor does anything else go
    wrong than that the ids run out. Rules that do not count make no difference. -/
theorem ofGrammar_outcome [Unicode.Xid] (g : Grammar) :
    (Model.ofGrammar g = .error (.error .emptyGrammar) ↔ g.rules = []) ∧
    ((∃ m, Model.ofGrammar g = .ok m) ↔
      g.rules ≠ [] ∧ (∀ r ∈ g.firstRules, ∀ target ∈ r.body.references, g.Declares target) ∧
        g.actionCount ≤ idCount) ∧
    (∀ rule target, Model.ofGrammar g = .error (.error (.unknownReference rule target)) →
      g.broken? = some (rule, target)) ∧
    (∀ rule target, g.broken? = some (rule, target) → g.actionCount ≤ idCount →
      Model.ofGrammar g = .error (.error (.unknownReference rule target))) ∧
    (∀ stop, Model.ofGrammar g = .error stop → stop = .error .emptyGrammar ∨
      (∃ rule target, stop = .error (.unknownReference rule target)) ∨
      idCount < g.actionCount ∧ ∃ i, idCount ≤ i ∧ stop = .fault (.tooManyEntries i)) ∧
    ∀ g' : Grammar, g'.firstRules = g.firstRules → Model.ofGrammar g' = Model.ofGrammar g := by
  have hyields := yields_ofGrammar g
  exact ⟨hyields.emptyGrammar_iff, hyields.ok_iff, fun _ _ => hyields.broken?_eq,
    fun _ _ => hyields.unknownReference, fun _ => hyields.stop_cases, fun _ => ofGrammar_congr⟩

namespace Dangling

/-- Two references in the first rule lead nowhere, and one in a rule that does not count. -/
def grammar : Grammar where
  rules := [
    { name := "a",
      body := .sequence (.choice (.reference none "b") (.reference none "x"))
        (.reference none "y") },
    { name := "b", body := .literal none "t" },
    { name := "b", body := .reference none "z" }]

/-- The same without the rule that counts and breaks references. -/
def mended : Grammar where
  rules := [
    { name := "b", body := .literal none "t" },
    { name := "b", body := .reference none "z" }]

end Dangling

/-- The first of three broken references is named, and the one in a rule that does not count is no
    obstacle. -/
theorem ofGrammar_outcome_dangling :
    Dangling.grammar.broken? = some ("a", "x") ∧
    Model.ofGrammar Dangling.grammar = .error (.error (.unknownReference "a" "x")) ∧
    ∃ m, Model.ofGrammar Dangling.mended = .ok m := by
  have hbroken : Dangling.grammar.broken? = some ("a", "x") := by decide
  obtain ⟨_, _, _, hnamed, _⟩ := ofGrammar_outcome Dangling.grammar
  obtain ⟨_, hok, _⟩ := ofGrammar_outcome Dangling.mended
  exact ⟨hbroken, hnamed _ _ hbroken (by cbv), hok.2 ⟨by decide, by decide, by cbv⟩⟩

end Ebnf
