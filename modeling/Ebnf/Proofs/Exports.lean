import Mathlib
import Ebnf.Proofs.Course
import Ebnf.Proofs.Marks
import Ebnf.View.Basic

/-!
# Reading by a view

A view keeps no ids, neither who owns a property nor what fills it. Still it says all that counts
for reading: a program can be made of the view alone, and that is the program of the model.

* `Program.ofView`: the program of a view;
* `Plan.Stands.op_view`: the view of a body has the instructions of the body;
* `Site.Hosts.exists_view`: an entity is read as its view says;
* `Program.ofModel_eq_ofView`: a built model has a view, and both have the same program;
* `read_of_views`: models with equal views read alike.
-/

namespace Ebnf

open Build (alternativeName getElem?_idsFrom mem_idsFrom)

/-! ## 1. The program of a view -/

/-- What something of the given form reads as a whole, unless it has parts. -/
def ActionForm.token? (patterns : Patterns) (form : ActionForm) (value? : Option String)
    (isWitness : Bool) : Option Token :=
  match form, value? with
  | literal, some text => some (.literal text isWitness)
  | pattern, some source => some (.pattern source ((patterns.lookup source).getD fun _ => none))
  | entity, some target => some (.entity target)
  | _, _ => none

mutual

/-- The patterns of an action and of everything below it. -/
def ActionView.sources : ActionView → List String
  | .node form value? _ _ _ _ children =>
    (if form = .pattern then value?.toList else []) ++ sourcesOfViews children

/-- The patterns of several actions. -/
def sourcesOfViews : List ActionView → List String
  | [] => []
  | v :: vs => v.sources ++ sourcesOfViews vs

end

mutual

/-- Whether only the success counts, for each leaf that fills a property. -/
def ActionView.witnesses : ActionView → List Bool
  | .node _ value? _ _ isWitness property? children =>
    (if value?.isSome then property?.toList.map fun _ => isWitness else []) ++
      witnessesOfViews children

/-- The same for several actions. -/
def witnessesOfViews : List ActionView → List Bool
  | [] => []
  | v :: vs => v.witnesses ++ witnessesOfViews vs

end

mutual

/-- What to do for an action. `dest` tells where the value goes of the leaf with the given number
    among those that fill a property; the first one here has the number `k`. -/
def Op.ofView (patterns : Patterns) (dest : Nat → Destination) (k : Nat) : ActionView → Op
  | .node form value? isOptional isPlural isWitness property? children =>
    match form.token? patterns value? isWitness with
    | some token =>
      .leaf ⟨isOptional, isPlural⟩ token (if property?.isSome then dest k else .nowhere)
    | none =>
      if form = .any then .any ⟨isOptional, isPlural⟩ (opsOfViews patterns dest k children)
      else .all ⟨isOptional, isPlural⟩ (opsOfViews patterns dest k children)

/-- What to do for several actions. -/
def opsOfViews (patterns : Patterns) (dest : Nat → Destination) (k : Nat) :
    List ActionView → List Op
  | [] => []
  | v :: vs =>
    Op.ofView patterns dest k v :: opsOfViews patterns dest (k + v.witnesses.length) vs

end

namespace EntityView

/-- The patterns of an entity. -/
def sources (v : EntityView) : List String :=
  v.action.elim [] ActionView.sources

/-- Whether one property stands for all others, so that every value goes to its field. -/
def hasProxy (v : EntityView) : Bool :=
  v.properties.any fun p => !p.subsumed.isEmpty

/-- Whether only the success counts, for each field. -/
def witnesses (v : EntityView) : List Bool :=
  if v.hasProxy then [false] else v.action.elim [] ActionView.witnesses

/-- The fields of an entity. -/
def fields (v : EntityView) : List Field :=
  v.properties.zipWith (fun p isWitness => ⟨p.name, p.isPlural, isWitness⟩) v.witnesses

/-- Where the value of a leaf goes. -/
def dest (v : EntityView) (k : Nat) : Destination :=
  .field (if v.hasProxy then 0 else k)

end EntityView

/-- How an entity is read by its view. -/
def Procedure.ofView (patterns : Patterns) (v : EntityView) : Procedure where
  body := v.action.map fun a => .ok (Op.ofView patterns v.dest 0 a)
  fields := .ok v.fields
  isVirtual := .ok v.isVirtual

/-- The patterns of a view, in the order of the entities. -/
def ModelView.sources (v : ModelView) : List String :=
  v.entities.flatMap EntityView.sources

/-- The program of a view, and how many patterns it has. -/
def Program.ofView (engine : Engine) (v : ModelView) (config : ReadConfig) :
    Except ReadError (Program × Nat) := do
  let some root := v.root | throw .noRoot
  let patterns ← v.sources.mapM fun source => return (source, ← engine.anchoredOrError source)
  let ignore ← config.ignore.mapM engine.anchoredOrError
  let procedures := v.entities.map fun e => (e.name, Procedure.ofView patterns e)
  return ({ root, ignore, maxDepth := config.maxDepth, procedures }, patterns.length)

/-! ## 2. The views of trees -/

namespace Plan

variable {m : Model} {entity : Name} {link : ActionId → Option PropertyId} {patterns : Patterns}
  {dest dest' : Nat → Destination}

mutual

/-- The view of a plan has the patterns of the plan. -/
theorem sources_view (a q : Nat) (parent : Option ActionId) :
    ∀ p : Plan, (ActionView.ofTree (p.treeOf m link a q parent)).sources = p.sources
  | leaf mods symbol slot => by
    rw [treeOf, ActionView.ofTree, ActionView.sources]
    cases symbol <;> rfl
  | node mods choice parts => by
    rw [treeOf, ActionView.ofTree, ActionView.sources, sources_views, sources]
    cases choice <;> rfl

theorem sources_views (a q : Nat) (parent : Option ActionId) :
    ∀ ps : List Plan, sourcesOfViews (actionViewsOfTrees (treesOf m link a q parent ps)) =
      sourcesOf ps
  | [] => rfl
  | p :: ps => by
    rw [treesOf, actionViewsOfTrees, sourcesOfViews, sources_view, sources_views, sourcesOf]

end

mutual

/-- The view of a plan that stands in a model has the flags of its leaves. -/
theorem Stands.witnesses_view {a q : Nat} {parent : Option ActionId} :
    ∀ {p : Plan}, p.Stands m entity link a q parent →
      (ActionView.ofTree (p.treeOf m link a q parent)).witnesses = p.symbols.map Symbol.isWitness
  | leaf mods symbol slot, ⟨_, hslot⟩ => by
    rw [treeOf, ActionView.ofTree, ActionView.witnesses]
    cases slot with
    | none => cases symbol <;> rfl
    | some name =>
      obtain ⟨name', hproperty⟩ := hslot rfl
      rw [Option.bind_some, hproperty]
      cases symbol <;> rfl
  | node mods choice parts, ⟨hparts, _⟩ => by
    rw [treeOf, ActionView.ofTree, ActionView.witnesses, hparts.witnesses_views, symbols]
    cases choice <;> rfl

theorem StandInRow.witnesses_views {a q : Nat} {parent : Option ActionId} :
    ∀ {ps : List Plan}, StandInRow m entity link a q parent ps →
      witnessesOfViews (actionViewsOfTrees (treesOf m link a q parent ps)) =
        (symbolsOf ps).map Symbol.isWitness
  | [], _ => rfl
  | p :: ps, ⟨hp, hps⟩ => by
    rw [treesOf, actionViewsOfTrees, witnessesOfViews, hp.witnesses_view, hps.witnesses_views,
      symbolsOf, List.map_append]

end

mutual

/-- What to do by the view of a plan is what to do for the plan, if the values go to the same
    places. -/
theorem Stands.op_view {a q k : Nat} {parent : Option ActionId} :
    ∀ {p : Plan}, p.Stands m entity link a q parent →
      (∀ i < p.width, dest (k + i) = dest' (q + i)) →
      Op.ofView patterns dest k (ActionView.ofTree (p.treeOf m link a q parent)) =
        p.op patterns dest' q
  | leaf mods symbol slot, ⟨_, hslot⟩, hdest => by
    rw [treeOf, ActionView.ofTree, Op.ofView]
    cases slot with
    | none => cases symbol <;> rfl
    | some name =>
      obtain ⟨name', hproperty⟩ := hslot rfl
      have hsame : dest k = dest' q := hdest 0 Nat.one_pos
      rw [Option.bind_some, hproperty, op, ← hsame]
      cases symbol <;> rfl
  | node mods choice parts, ⟨hparts, _⟩, hdest => by
    rw [treeOf, ActionView.ofTree, op, ← hparts.ops_views hdest, Op.ofView]
    cases choice <;> rfl

theorem StandInRow.ops_views {a q k : Nat} {parent : Option ActionId} :
    ∀ {ps : List Plan}, StandInRow m entity link a q parent ps →
      (∀ i < (slotsOf ps).length, dest (k + i) = dest' (q + i)) →
      opsOfViews patterns dest k (actionViewsOfTrees (treesOf m link a q parent ps)) =
        opsOf patterns dest' q ps
  | [], _, _ => rfl
  | p :: ps, ⟨hp, hps⟩, hdest => by
    rw [slotsOf, List.length_append] at hdest
    have hfirst := hp.op_view fun i hi =>
      hdest i (Nat.lt_of_lt_of_le hi (Nat.le_add_right ..))
    have hrest := hps.ops_views (k := k + p.width) fun i hi => by
      rw [Nat.add_assoc, Nat.add_assoc]
      exact hdest (p.width + i) (Nat.add_lt_add_left hi _)
    rw [treesOf, actionViewsOfTrees, opsOfViews, hp.witnesses_view, List.length_map,
      length_symbols, hfirst, hrest, opsOf]

end

end Plan

/-! ## 3. The views of entities -/

variable {g : Grammar} {m : Model} {e : Entity} {s : Site}

/-- What the view of a property tells. -/
structure PropertyView.Of (v : PropertyView) (m : Model) (id : PropertyId) : Prop where
  view : PropertyView.ofModel m id = .ok v
  property : ∃ p, m.property id = .ok p ∧ v.name = p.name ∧ v.subsumed.length = p.subsumed.length
  isPlural : m.isPlural id = .ok v.isPlural

namespace Site

/-- Every current property has a view. -/
theorem Hosts.exists_propertyView (h : s.Hosts m e) (htypable : m.Typable) {id : PropertyId}
    (hid : id ∈ e.properties.ids) : ∃ v : PropertyView, v.Of m id := by
  obtain ⟨⟨key, id⟩, hmem, rfl⟩ := List.mem_map.1 hid
  obtain ⟨place, hplace⟩ := List.mem_iff_getElem?.1 hmem
  obtain ⟨p, t, hp, ht, _⟩ := h.exists_source hplace
  obtain ⟨type, htype⟩ := htypable.treeType_ok [] t
  obtain ⟨p', x, hlinked, _, hsubsumed⟩ := h.lists hmem
  obtain rfl := Except.ok.inj (hp.symm.trans (Model.property_eq_ok_iff.2 hlinked.property))
  obtain ⟨way, hway⟩ : ∃ way, m.Way p.source way := hlinked.line.imp' _ fun _ hline =>
    ⟨_, hline, rfl⟩
  obtain ⟨names, hnames, hall⟩ := Checked.mapM_ok p.subsumed
    (f := fun sub => Property.name <$> m.property sub) (P := fun _ _ => True) fun sub hsub => by
      obtain ⟨q, y, hsub⟩ := hsubsumed sub hsub
      refine ⟨q.name, ?_, trivial⟩
      rw [Model.property_eq_ok_iff.2 hsub.property]
      rfl
  refine ⟨⟨p.name, type.map ValueType.render, Mark.mayMiss way, Mark.repeats way, names⟩, ?_,
    ⟨p, hp, rfl, hall.length_eq.symm⟩, hway.isPlural_eq hp⟩
  simp only [PropertyView.ofModel, Model.propertyType, Model.actionType, hp, ht, htype,
    hway.isOptional_eq hp, hway.isPlural_eq hp, hnames, bind, Except.bind, pure, Except.pure]

/-- One of the views stands for others if the entity has a proxy. -/
theorem Hosts.hasProxy_eq (h : s.Hosts m e) {views : List PropertyView}
    (hviews : List.Forall₂ (fun id v => v.Of m id) e.properties.ids views) :
    views.any (fun v => !v.subsumed.isEmpty) = s.proxy.isSome := by
  cases hproxy : s.proxy with
  | none =>
    refine List.any_eq_false.2 fun v hv => ?_
    obtain ⟨id, hid, hof⟩ := exists_answer hviews.flip hv
    obtain ⟨p, hp, _, hlength⟩ := hof.property
    rw [h.current, ids_current_plain hproxy] at hid
    obtain ⟨k, hk, rfl⟩ := mem_idsFrom.1 hid
    obtain ⟨f, i, x, _, hfills⟩ := h.exists_slot hk
    obtain ⟨name, hproperty⟩ := hfills.property
    obtain rfl := Option.some.inj (hproperty.symm.trans (Model.property_eq_ok_iff.1 hp))
    rw [List.eq_nil_of_length_eq_zero hlength]
    decide
  | some entry =>
    obtain ⟨choice, proxy⟩ := entry
    have hchooses := h.chooses choice proxy hproxy
    rw [h.current, ids_current_proxy hproxy] at hviews
    obtain ⟨v, rest, hof, hrest, rfl⟩ := List.forall₂_cons_left_iff.1 hviews
    obtain rfl := List.forall₂_nil_left_iff.1 hrest
    obtain ⟨p, hp, _, hlength⟩ := hof.property
    obtain rfl := Option.some.inj (hchooses.property.symm.trans (Model.property_eq_ok_iff.1 hp))
    have hpos : 0 < v.subsumed.length := by
      rw [hlength]
      exact s.length_ids ▸ hchooses.nonempty
    rw [List.any_cons, List.isEmpty_eq_false_iff.2 (List.ne_nil_of_length_pos hpos)]
    rfl

/-- The flags of the fields follow from the plan. -/
theorem Hosts.map_isWitness (h : s.Hosts m e) {fields : List Field}
    (hfields : List.Forall₂ (fun id f => Field.ofModel m id = .ok f) e.properties.ids fields) :
    fields.map Field.isWitness =
      if s.proxy.isSome then [false] else s.plan.symbols.map Symbol.isWitness := by
  cases hproxy : s.proxy with
  | none =>
    rw [h.current, ids_current_plain hproxy] at hfields
    have hlength : fields.length = s.plan.symbols.length := by
      rw [← hfields.length_eq, length_ids, Plan.length_symbols]
    refine List.ext_getElem (by simpa using hlength) fun k hk hk' => ?_
    rw [List.length_map] at hk
    have hwidth : k < s.plan.width := by rwa [hlength, Plan.length_symbols] at hk
    obtain ⟨f, i, x, hf, hfills⟩ := h.exists_slot hwidth
    obtain ⟨name, hproperty⟩ := hfills.property
    have hid : k < s.ids.length := by rwa [length_ids]
    have hget : s.ids[k] = ⟨s.property + k⟩ :=
      (List.getElem_eq_iff _).2 (getElem?_idsFrom hwidth)
    have hfield := hfields.get hid hk
    simp only [List.get_eq_getElem, hget] at hfield
    obtain ⟨p, x', hp, hx', _, _, hwitness⟩ := Field.of_ofModel hfield
    obtain rfl := Option.some.inj (hproperty.symm.trans (Model.property_eq_ok_iff.1 hp))
    obtain rfl := Option.some.inj (hfills.action.symm.trans (Model.action_eq_ok_iff.1 hx'))
    have hsymbol : (s.plan.symbols.map Symbol.isWitness)[k]? = some f.symbol.isWitness := by
      rw [List.getElem?_map, getElem?_symbols hf]
      rfl
    rw [List.getElem_map, hwitness, hfills.witness]
    exact ((List.getElem_eq_iff _).2 hsymbol).symm
  | some entry =>
    obtain ⟨choice, proxy⟩ := entry
    rw [h.current, ids_current_proxy hproxy] at hfields
    obtain ⟨f, rest, hfield, hrest, rfl⟩ := List.forall₂_cons_left_iff.1 hfields
    obtain rfl := List.forall₂_nil_left_iff.1 hrest
    obtain ⟨p, x, hp, hx, _, _, hwitness⟩ := Field.of_ofModel hfield
    obtain ⟨y, ids, ts, hy, _, hfalse, _⟩ := h.tree_choice hproxy
    obtain rfl := Option.some.inj
      ((h.chooses _ _ hproxy).property.symm.trans (Model.property_eq_ok_iff.1 hp))
    obtain rfl := Option.some.inj (hy.symm.trans (Model.action_eq_ok_iff.1 hx))
    simp [hwitness, hfalse]

/-- Properties with their flags make fields. -/
theorem zipWith_eq_fields {ids : List PropertyId} {views : List PropertyView} {fields : List Field}
    (hviews : List.Forall₂ (fun id v => PropertyView.Of v m id) ids views)
    (hfields : List.Forall₂ (fun id f => Field.ofModel m id = .ok f) ids fields) :
    views.zipWith (fun p isWitness => ⟨p.name, p.isPlural, isWitness⟩)
      (fields.map Field.isWitness) = fields := by
  induction hviews generalizing fields with
  | nil =>
    obtain rfl := List.forall₂_nil_left_iff.1 hfields
    rfl
  | cons hof _ ih =>
    obtain ⟨f, rest, hfield, hrest, rfl⟩ := List.forall₂_cons_left_iff.1 hfields
    obtain ⟨p, _, hp, _, hname, hplural, _⟩ := Field.of_ofModel hfield
    obtain ⟨p', hp', hname', _⟩ := hof.property
    obtain rfl := Except.ok.inj (hp.symm.trans hp')
    have hplural' := Except.ok.inj (hplural.symm.trans hof.isPlural)
    rw [List.map_cons, List.zipWith_cons_cons, ih hrest, hname', ← hname, ← hplural']

/-- An entity has a view, and is read as the view says. -/
theorem Hosts.exists_view (h : s.Hosts m e) (hnodup : m.names.Nodup) (he : e ∈ m.entities)
    (htypable : m.Typable) : ∃ v, EntityView.ofModel m e = .ok v ∧ v.name = e.name ∧
      v.sources = s.plan.sources ∧
      ∀ patterns, Procedure.ofModel m patterns e = Procedure.ofView patterns v := by
  obtain ⟨b, hb⟩ := htypable.isVirtual e.name
  obtain ⟨type, htype⟩ := htypable.entityType_ok [] e.name
  obtain ⟨views, hviews, hall⟩ := Checked.mapM_ok e.properties.ids (f := PropertyView.ofModel m)
    (P := fun id v => v.Of m id) fun id hid => by
      obtain ⟨v, hv⟩ := h.exists_propertyView htypable hid
      exact ⟨v, hv.view, hv⟩
  let tree := s.plan.treeOf m s.link s.action s.property none
  let v : EntityView := ⟨e.name, b, type.render, e.supers, e.subs, views,
    some (ActionView.ofTree tree)⟩
  have hproxy : v.hasProxy = s.proxy.isSome := h.hasProxy_eq hall
  have hwitnesses : (ActionView.ofTree tree).witnesses = s.plan.symbols.map Symbol.isWitness :=
    h.stands.witnesses_view
  refine ⟨v, ?_, rfl, Plan.sources_view _ _ _ s.plan, fun patterns => ?_⟩
  · simp only [EntityView.ofModel, hb, Model.effectiveType, htype, hviews, h.action, h.tree_eq,
      bind, Except.bind, pure, Except.pure]
    rfl
  · obtain ⟨fields, hfields, hforall⟩ := h.orderly.fields_ok patterns
    have hflags : v.witnesses = fields.map Field.isWitness := by
      rw [h.map_isWitness hforall, EntityView.witnesses, hproxy, ← hwitnesses]
      rfl
    have hsame : v.fields = fields := by
      rw [EntityView.fields, hflags]
      exact zipWith_eq_fields hall hforall
    have hop : Op.ofView patterns v.dest 0 (ActionView.ofTree tree) =
        s.plan.op patterns s.dest s.property := by
      refine h.stands.op_view fun i _ => ?_
      rw [EntityView.dest, hproxy, dest, Nat.zero_add, Nat.add_sub_cancel_left]
      cases s.proxy <;> rfl
    calc Procedure.ofModel m patterns e
        = ⟨(Procedure.ofModel m patterns e).body, (Procedure.ofModel m patterns e).fields,
            m.isVirtual e.name⟩ := rfl
      _ = ⟨some (.ok (s.plan.op patterns s.dest s.property)), .ok fields, .ok b⟩ := by
          rw [h.body_eq hnodup he patterns, hfields, hb]
      _ = Procedure.ofView patterns v := by
          rw [Procedure.ofView, hsame, ← hop]
          rfl

end Site

/-! ## 4. The views of models -/

/-- What is made of lists that correspond is the same if it is so one by one. -/
theorem map_eq_of_forall₂ {α β γ : Type} {f : α → γ} {f' : β → γ} {xs : List α} {ys : List β}
    (h : List.Forall₂ (fun x y => f x = f' y) xs ys) : xs.map f = ys.map f' := by
  induction h with
  | nil => rfl
  | cons heq _ ih => rw [List.map_cons, List.map_cons, heq, ih]

/-- The entities of a built model have views, and their patterns are those of the model. -/
theorem Build.Course.exists_views [Unicode.Xid] {m₁ m₂ m₃ : Model} (h : Build.Course g m₁ m₂ m₃ m)
    (hreached : Build.Reached g m True) :
    ∃ views, m.entities.mapM (EntityView.ofModel m) = .ok views ∧
      views.flatMap EntityView.sources = m.sources ∧
      ∀ patterns, m.entities.map (fun e => (e.name, Procedure.ofModel m patterns e)) =
        views.map fun v => (v.name, Procedure.ofView patterns v) := by
  obtain ⟨site, hsited⟩ := hreached.bodies trivial
  obtain ⟨views, hviews, hall⟩ := Checked.mapM_ok m.entities (f := EntityView.ofModel m)
    (P := fun e v => v.sources = e.sources ∧ ∀ patterns,
      (e.name, Procedure.ofModel m patterns e) = (v.name, Procedure.ofView patterns v))
    fun e he => by
      have hosts := hsited.hosts_of_mem he
      obtain ⟨r, hr, hplan⟩ := hsited.plan_of_mem he
      obtain ⟨v, hv, hname, hsources, hproc⟩ :=
        hosts.exists_view hreached.rules.nodup he hreached.typable
      refine ⟨v, hv, ?_, fun patterns => by rw [hname, hproc]⟩
      rw [hsources, hplan, Entity.sources, hr]
  refine ⟨views, hviews, ?_, fun patterns => ?_⟩
  · have hsources : m.entities.map Entity.sources = views.map EntityView.sources :=
      map_eq_of_forall₂ (hall.imp fun _ _ hview => hview.1.symm)
    rw [h.sources_eq, List.flatMap_def, List.flatMap_def, hsources]
  · exact map_eq_of_forall₂ (hall.imp fun _ _ hview => hview.2 patterns)

/-- A built model has a view, and the program of the view is that of the model. -/
theorem Program.ofModel_eq_ofView [Unicode.Xid] (h : Model.ofGrammar g = .ok m) :
    ∃ v, ModelView.ofModel m = .ok v ∧ ∀ engine config,
      Program.ofModel engine m config = Program.ofView engine v config := by
  obtain ⟨hreached, _⟩ := Build.reached_ofGrammar h
  obtain ⟨m₁, m₂, m₃, hcourse⟩ := Build.exists_course h
  obtain ⟨views, hviews, hsources, hprocedures⟩ := hcourse.exists_views hreached
  refine ⟨⟨m.root, views⟩, ?_, fun engine config => ?_⟩
  · rw [ModelView.ofModel, hviews]
    rfl
  · have hpatterns : m.patterns engine = (ModelView.sources ⟨m.root, views⟩).mapM fun source =>
        return (source, ← engine.anchoredOrError source) := by
      rw [ModelView.sources, hsources]
      rfl
    rw [ofModel, ofView, hpatterns]
    cases m.root with
    | none => rfl
    | some root =>
      refine bind_congr fun patterns => bind_congr fun ignore => ?_
      rw [hprocedures]

/-- Models with equal views read alike: either both cannot be made ready for reading, for the same
    reason, or both can, and then every text is read as the same or not read for the same reason. -/
theorem read_of_views [Unicode.Xid] {g' : Grammar} {m' : Model} (h : Model.ofGrammar g = .ok m)
    (h' : Model.ofGrammar g' = .ok m') (hviews : ModelView.ofModel m = ModelView.ofModel m')
    (engine : Engine) (config : ReadConfig) :
    (∃ v, ModelView.ofModel m = .ok v ∧ ModelView.ofModel m' = .ok v) ∧
    ((∃ error, Program.ofModel engine m config = .error error ∧
        Program.ofModel engine m' config = .error error) ∨
      ∃ p n p' n', Program.ofModel engine m config = .ok (p, n) ∧
        Program.ofModel engine m' config = .ok (p', n') ∧
        ∀ text, p.read text = p'.read text) := by
  obtain ⟨v, hv, hprogram⟩ := Program.ofModel_eq_ofView h
  obtain ⟨v', hv', hprogram'⟩ := Program.ofModel_eq_ofView h'
  obtain rfl : v = v' := Except.ok.inj (hv.symm.trans (hviews.trans hv'))
  refine ⟨⟨v, hv, hv'⟩, ?_⟩
  rw [hprogram, hprogram']
  cases Program.ofView engine v config with
  | error error => exact .inl ⟨error, rfl, rfl⟩
  | ok made => exact .inr ⟨made.1, made.2, made.1, made.2, rfl, rfl, fun _ => rfl⟩

namespace Letters

/-- Rows of letters. What is around the choice between them may say the same again. -/
def grammar (around : Expr → Expr) : Grammar where
  rules := [
    { name := "row",
      body := .repetition (around (.choice (.literal (some "x") "a") (.literal (some "y") "b"))) }]

def row (around : Expr → Expr) : Entity where
  name := "row"
  rule := (grammar around).rule? "row"
  properties := [("x", ⟨0⟩), ("y", ⟨1⟩)]
  action := some ⟨2⟩

/-- The model of the rows. -/
def model (around : Expr → Expr) : Model where
  entities := [row around]
  properties := #[
    { name := "x", entity := "row", source := ⟨0⟩ },
    { name := "y", entity := "row", source := ⟨1⟩ }]
  actions := #[
    { kind := .literal "a", isWitness := true, property := some ⟨0⟩, parent := some ⟨2⟩ },
    { kind := .literal "b", isWitness := true, property := some ⟨1⟩, parent := some ⟨2⟩ },
    { kind := .any [⟨0⟩, ⟨1⟩], isPlural := true }]
  root := some "row"

/-- A row leads nowhere. -/
theorem walk_eq (around : Expr → Expr) (events : Array Event)
    (attached : List (Name × PropertyId)) :
    Build.walk ["row"] [] ["row"] { model := model around, events, attached } =
      .ok () { model := model around, events, attached } := by
  have hrow : Build.discover (row around) { model := model around, events, attached } =
      .ok [] { model := model around, events, attached } := by
    cbv
  rw [Build.walk_cons (by decide) rfl hrow, List.nil_append, Build.walk]
  rfl

theorem ofGrammar_eq : Model.ofGrammar (grammar id) = .ok (model id) ∧
    Model.ofGrammar (grammar .group) = .ok (model .group) :=
  ⟨Build.ofGrammar_of_walk (m := model id) (by cbv) rfl
      fun events attached => ⟨_, _, walk_eq id events attached⟩,
    Build.ofGrammar_of_walk (m := model .group) (by cbv) rfl
      fun events attached => ⟨_, _, walk_eq .group events attached⟩⟩

theorem view_eq : ModelView.ofModel (model id) = ModelView.ofModel (model .group) := by
  cbv

end Letters

/-- A choice reads alike with parentheses around it and without, since its view is the same. -/
theorem read_of_views_letters :
    Model.ofGrammar (Letters.grammar id) = .ok (Letters.model id) ∧
    Model.ofGrammar (Letters.grammar .group) = .ok (Letters.model .group) ∧
    Letters.model id ≠ Letters.model .group ∧
    ModelView.ofModel (Letters.model id) = ModelView.ofModel (Letters.model .group) ∧
    ∃ p n p' n', Program.ofModel Sample.engine (Letters.model id) Sample.config = .ok (p, n) ∧
      Program.ofModel Sample.engine (Letters.model .group) Sample.config = .ok (p', n') ∧
      ∀ text, p.read text = p'.read text := by
  refine ⟨Letters.ofGrammar_eq.1, Letters.ofGrammar_eq.2, by decide, Letters.view_eq, ?_⟩
  obtain ⟨_, ⟨error, herror, _⟩ | hread⟩ := read_of_views Letters.ofGrammar_eq.1
    Letters.ofGrammar_eq.2 Letters.view_eq Sample.engine Sample.config
  · cases herror
  · exact hread
end Ebnf
