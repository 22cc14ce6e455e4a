import Ebnf.Proofs.Course
import Ebnf.Proofs.FirstRules

/-!
# The rules that a model keeps

A model keeps the rule of each of its entities. Nothing but the stage of the bodies looks at them,
and that only asks for the actions and properties that a rule makes. So two grammars whose rules
make the same actions and properties have models that are the same but for the rules they keep, or
have none for the same reason.

* `Model.withRules`: a model with other rules in place of those it keeps;
* `Build.Likewise`: two steps that do the same, whatever rules are kept and whatever was told;
* `Build.likewise_compile`, `Build.likewise_finish`: no step but one looks at the rules;
* `ofGrammar_of_likewise`: rules that make the same bodies make the same model.
-/

namespace Ebnf

/-! ## 1. Models with other rules -/

/-- An entity that keeps another rule. -/
def Entity.withRule (rules : Name → Option Rule) (e : Entity) : Entity :=
  { e with rule := rules e.name }

namespace Model

/-- A model that keeps other rules, and is the same in everything else. -/
def withRules (rules : Name → Option Rule) (m : Model) : Model :=
  { m with entities := m.entities.map (Entity.withRule rules) }

variable {rules : Name → Option Rule} {m : Model}

@[simp] theorem names_withRules : (m.withRules rules).names = m.names := by
  rw [names, withRules, List.map_map]
  rfl

@[simp] theorem contains_withRules (n : Name) :
    (m.withRules rules).contains n = m.contains n := by
  rw [contains, names_withRules, contains]

@[simp] theorem entity?_withRules (n : Name) :
    (m.withRules rules).entity? n = (m.entity? n).map (Entity.withRule rules) :=
  List.find?_map ..

@[simp] theorem lineage_withRules (id : ActionId) :
    (m.withRules rules).lineage id = m.lineage id := by
  have hactions : (m.withRules rules).actions = m.actions := rfl
  exact lineage_congr hactions id

@[simp] theorem isPlural_withRules (id : PropertyId) :
    (m.withRules rules).isPlural id = m.isPlural id := by
  simp only [isPlural, lineage_withRules]
  rfl

theorem super_withRules : (m.withRules rules).Super = m.Super := by
  funext x y
  refine propext ⟨?_, ?_⟩
  · rintro ⟨e, he, hy⟩
    rw [entity?_withRules] at he
    obtain ⟨o, ho, rfl⟩ := Option.map_eq_some_iff.1 he
    exact ⟨o, ho, hy⟩
  · rintro ⟨e, he, hy⟩
    exact ⟨e.withRule rules, by rw [entity?_withRules, he]; rfl, hy⟩

@[simp] theorem isA_withRules (x y : Name) : (m.withRules rules).isA x y = m.isA x y := by
  rw [Bool.eq_iff_iff, isA_iff, isA_iff, super_withRules]

/-- A link is made whatever rules are kept. -/
theorem register?_withRules (parent child : Name) :
    (m.withRules rules).register? parent child =
      (m.register? parent child).map (withRules rules) := by
  simp only [register?, isA_withRules, names_withRules, addSuper_addSub]
  split
  · rfl
  · refine congrArg (fun es => some { m with entities := es }) ?_
    show List.map _ (List.map _ _) = List.map _ (List.map _ _)
    rw [List.map_map, List.map_map]
    rfl

theorem hasSiblings_withRules (n : Name) : (m.withRules rules).hasSiblings n = m.hasSiblings n := by
  rw [hasSiblings, hasSiblings, entity?_withRules]
  cases m.entity? n with
  | none => rfl
  | some e =>
    have hparents : e.supers.filterMap (m.withRules rules).entity? =
        (e.supers.filterMap m.entity?).map (Entity.withRule rules) := by
      rw [List.map_filterMap]
      exact List.filterMap_congr fun n _ => entity?_withRules n
    show List.any (e.supers.filterMap (m.withRules rules).entity?) _ = _
    rw [hparents, List.any_map]
    rfl

theorem isVirtual_withRules (n : Name) : (m.withRules rules).isVirtual n = m.isVirtual n := by
  unfold isVirtual
  rw [entity?_withRules]
  cases m.entity? n with
  | none => rfl
  | some e =>
    simp only [Option.map_some, isPlural_withRules, hasSiblings_withRules]
    rfl

theorem virtualCount_withRules : (m.withRules rules).virtualCount = m.virtualCount := by
  have hvirtual : (m.withRules rules).isVirtual = m.isVirtual := funext isVirtual_withRules
  rw [virtualCount, virtualCount, hvirtual, names_withRules]

/-- A new action is the same whatever rules are kept. -/
theorem addAction_withRules (a : Action) : (m.withRules rules).addAction a =
    (m.addAction a).map (Prod.map id (withRules rules)) := by
  unfold addAction
  show (ActionId.ofIndex m.actions.size >>= _) =
    Except.map _ (ActionId.ofIndex m.actions.size >>= _)
  cases ActionId.ofIndex m.actions.size with
  | error f => rfl
  | ok id =>
    show (linkChildren m.actions id a.children >>= _) =
      Except.map _ (linkChildren m.actions id a.children >>= _)
    cases linkChildren m.actions id a.children <;> rfl

theorem modifyAction_withRules (id : ActionId) (f : Action → Action) :
    (m.withRules rules).modifyAction id f = (m.modifyAction id f).map (withRules rules) := by
  show (modifyAt m.actions id f >>= _) = Except.map _ (modifyAt m.actions id f >>= _)
  cases modifyAt m.actions id f <;> rfl

/-- So is a new property. -/
theorem addProperty_withRules (p : Property) : (m.withRules rules).addProperty p =
    (m.addProperty p).map (Prod.map id (withRules rules)) := by
  unfold addProperty
  simp only [modifyAction_withRules]
  show (PropertyId.ofIndex m.properties.size >>= _) =
    Except.map _ (PropertyId.ofIndex m.properties.size >>= _)
  cases PropertyId.ofIndex m.properties.size with
  | error f => rfl
  | ok id =>
    show (Except.map _ (m.modifyAction p.source _) >>= _) =
      Except.map _ (m.modifyAction p.source _ >>= _)
    cases m.modifyAction p.source fun a => { a with property := some id } <;> rfl

theorem renameProperty_withRules (id : PropertyId) (name : Name) :
    (m.withRules rules).renameProperty id name =
      (m.renameProperty id name).map (withRules rules) := by
  by_cases hlt : id.index < m.properties.size
  · have hlt' : id.index < (m.withRules rules).properties.size := hlt
    rw [renameProperty, renameProperty, if_pos hlt, if_pos hlt']
    rfl
  · have hlt' : ¬ id.index < (m.withRules rules).properties.size := hlt
    rw [renameProperty, renameProperty, if_neg hlt, if_neg hlt']
    rfl

/-- An entity is changed in the same way if the change does not look at its rule. -/
theorem modifyEntity_withRules {name : Name} {f f' : Entity → Entity}
    (hf : ∀ e, f' (e.withRule rules) = (f e).withRule rules) :
    (m.withRules rules).modifyEntity name f' = (m.modifyEntity name f).withRules rules := by
  refine congrArg (fun es => { m with entities := es }) ?_
  show List.map _ (List.map _ _) = List.map _ (List.map _ _)
  rw [List.map_map, List.map_map]
  refine List.map_congr_left fun e _ => ?_
  show (if (e.withRule rules).name = name then f' (e.withRule rules) else e.withRule rules) =
    Entity.withRule rules (if e.name = name then f e else e)
  by_cases hname : e.name = name
  · rw [if_pos hname, if_pos (show (e.withRule rules).name = name from hname), hf]
  · rw [if_neg hname, if_neg (show ¬ (e.withRule rules).name = name from hname)]

end Model

/-! ## 2. Steps that do the same -/

/-- Two drafts that differ at most in the rules that are kept and in what was told. -/
structure Draft.Like (rules : Name → Option Rule) (d d' : Draft) : Prop where
  model : d'.model = d.model.withRules rules
  attached : d'.attached = d.attached

namespace Build

variable {α β : Type} {rules : Name → Option Rule}

/-- Two outcomes that differ at most in the rules that are kept and in what was told. -/
def SameOutcome (rules : Name → Option Rule) :
    EStateM.Result BuildStop Draft α → EStateM.Result BuildStop Draft α → Prop
  | .ok a u, .ok b u' => a = b ∧ u.Like rules u'
  | .error stop _, .error stop' _ => stop = stop'
  | _, _ => False

/-- Two steps do the same on drafts that differ at most in the rules that are kept. -/
def Likewise (rules : Name → Option Rule) (step step' : Build α) : Prop :=
  ∀ d d', d.Like rules d' → SameOutcome rules (step d) (step' d')

/-- What is done next does the same if it does so after the same outcome. -/
theorem SameOutcome.bind {step step' : Build α} {d d' : Draft}
    (h : SameOutcome rules (step d) (step' d')) {next next' : α → Build β}
    (hnext : ∀ a, Likewise rules (next a) (next' a)) :
    SameOutcome rules ((step >>= next) d) ((step' >>= next') d') := by
  rw [bind_apply, bind_apply]
  cases hstep : step d with
  | error stop u =>
    rw [hstep] at h
    cases hstep' : step' d' with
    | error stop' u' => rw [hstep'] at h; exact h
    | ok b u' => rw [hstep'] at h; exact h.elim
  | ok a u =>
    rw [hstep] at h
    cases hstep' : step' d' with
    | error stop' u' => rw [hstep'] at h; exact h.elim
    | ok b u' =>
      rw [hstep'] at h
      obtain ⟨rfl, hu⟩ := h
      exact hnext a u u' hu

namespace Likewise

theorem pure (a : α) : Likewise rules (Pure.pure a) (Pure.pure a) :=
  fun _ _ hd => ⟨rfl, hd⟩

theorem stop (stop : BuildStop) : Likewise rules (throw stop : Build α) (throw stop) :=
  fun _ _ _ => rfl

theorem bind {step step' : Build α} (h : Likewise rules step step') {next next' : α → Build β}
    (hnext : ∀ a, Likewise rules (next a) (next' a)) :
    Likewise rules (step >>= next) (step' >>= next') :=
  fun d d' hd => (h d d' hd).bind hnext

/-- A step that looks at the model goes on with the one that keeps other rules. -/
theorem model_bind {next next' : Model → Build β}
    (h : ∀ m, Likewise rules (next m) (next' (m.withRules rules))) :
    Likewise rules (model >>= next) (model >>= next') := by
  intro d d' hd
  rw [Build.model_bind, Build.model_bind, hd.model]
  exact h d.model d d' hd

/-- A step that looks at a draft goes on with the one that keeps other rules. -/
theorem get_bind {next : Draft → Build β}
    (h : ∀ d d', d.Like rules d' → Likewise rules (next d) (next d')) :
    Likewise rules (get >>= next) (get >>= next) :=
  fun d d' hd => h d d' hd d d' hd

theorem modify_attached (f : List (Name × PropertyId) → List (Name × PropertyId)) :
    Likewise rules (modify fun d => { d with attached := f d.attached } : Build Unit)
      (modify fun d => { d with attached := f d.attached }) :=
  fun _ _ hd => ⟨rfl, hd.model, congrArg f hd.attached⟩

theorem tell (e e' : Event) : Likewise rules (Build.tell e) (Build.tell e') :=
  fun _ _ hd => ⟨rfl, hd.model, hd.attached⟩

theorem setModel (m : Model) :
    Likewise rules (Build.setModel m) (Build.setModel (m.withRules rules)) :=
  fun _ _ hd => ⟨rfl, rfl, hd.attached⟩

theorem check (x : Checked α) : Likewise rules (Build.check x) (Build.check x) := by
  cases x with
  | ok a => exact .pure a
  | error f => exact .stop (.fault f)

/-- An edit that does not look at the rules does the same. -/
theorem change {edit : Model → Checked (α × Model)}
    (h : ∀ m, edit (m.withRules rules) = (edit m).map (Prod.map id (Model.withRules rules))) :
    Likewise rules (Build.change edit) (Build.change edit) := by
  refine model_bind fun m => ?_
  rw [h m]
  cases edit m with
  | error f => exact .stop (.fault f)
  | ok result => exact (setModel result.2).bind fun _ => .pure result.1

theorem update {edit : Model → Checked Model}
    (h : ∀ m, edit (m.withRules rules) = (edit m).map (Model.withRules rules)) :
    Likewise rules (Build.update edit) (Build.update edit) := by
  refine model_bind fun m => ?_
  rw [h m]
  cases edit m with
  | error f => exact .stop (.fault f)
  | ok result => exact setModel result

theorem forM {xs ys : List α} {f f' : α → Build Unit}
    (h : List.Forall₂ (fun x y => Likewise rules (f x) (f' y)) xs ys) :
    Likewise rules (xs.forM f) (ys.forM f') := by
  induction h with
  | nil => exact .pure ()
  | cons hfirst _ ih => exact hfirst.bind fun _ => ih

theorem mapM {xs : List α} {f : α → Build β} (h : ∀ x ∈ xs, Likewise rules (f x) (f x)) :
    Likewise rules (xs.mapM f) (xs.mapM f) := by
  induction xs with
  | nil => exact .pure []
  | cons x xs ih =>
    rw [List.mapM_cons]
    refine (h x List.mem_cons_self).bind fun y => ?_
    exact (ih fun z hz => h z (List.mem_cons_of_mem _ hz)).bind fun ys => .pure (y :: ys)

end Likewise

/-! ## 3. The body of an entity -/

theorem likewise_addNode (kind : ActionKind) :
    Likewise rules (addNode kind) (addNode kind) :=
  .change fun _ => Model.addAction_withRules _

theorem likewise_markAction (id : ActionId) (f : Action → Action) :
    Likewise rules (markAction id f) (markAction id f) :=
  .update fun _ => Model.modifyAction_withRules id f

theorem likewise_attach (entity name : Name) (source : ActionId) :
    Likewise rules (attach entity name source) (attach entity name source) :=
  (Likewise.tell _ _).bind fun _ =>
    (Likewise.change fun _ => Model.addProperty_withRules _).bind fun id =>
      .modify_attached (· ++ [(name, id)])

variable {entity : Name}

/-- The actions and properties of an expression do not depend on the rules that are kept. -/
theorem likewise_compile [Unicode.Xid] (e : Expr) :
    ∀ place, Likewise rules (compile entity place e) (compile entity place e) := by
  induction e using Expr.chainInduction with
  | choice left right ih =>
    intro place
    rw [compile_choice]
    exact (Likewise.mapM fun e he => ih e he place.branch).bind fun _ => likewise_addNode _
  | sequence left right ih =>
    intro place
    rw [compile_sequence]
    exact (Likewise.mapM fun e he => ih e he place.nested).bind fun _ => likewise_addNode _
  | optional inner ih =>
    intro place
    rw [compile]
    exact (ih place.branch).bind fun id => (likewise_markAction id _).bind fun _ => .pure id
  | repetition inner ih =>
    intro place
    rw [compile]
    exact (ih place.nested).bind fun id => (likewise_markAction id _).bind fun _ => .pure id
  | group inner ih =>
    intro place
    rw [compile]
    exact ih place
  | reference label target =>
    intro place
    rw [compile]
    refine .model_bind fun m => ?_
    rw [Model.contains_withRules]
    have hleaf : Likewise rules (do
        let id ← addNode (.entity target)
        attach entity (labelOr label target) id
        return id) (do
        let id ← addNode (.entity target)
        attach entity (labelOr label target) id
        return id) :=
      (likewise_addNode _).bind fun id => (likewise_attach _ _ id).bind fun _ => .pure id
    cases m.contains target with
    | true => exact hleaf
    | false => exact (Likewise.stop _).bind fun _ => hleaf
  | literal label text =>
    intro place
    rw [compile]
    refine (likewise_addNode _).bind fun id => ?_
    cases literalName? entity label text place with
    | none => exact .pure id
    | some name =>
      exact (likewise_markAction id _).bind fun _ =>
        (likewise_attach entity name id).bind fun _ => .pure id
  | pattern label source =>
    intro place
    rw [compile]
    exact (likewise_addNode _).bind fun id => (likewise_attach _ _ id).bind fun _ => .pure id

theorem likewise_nameProperties (attached : List (Name × PropertyId)) :
    Likewise rules (nameProperties attached) (nameProperties attached) := by
  unfold nameProperties
  refine (Likewise.forM (List.forall₂_same.2 fun entry _ => ?_)).bind fun _ => .pure _
  exact .update fun _ => Model.renameProperty_withRules entry.2 entry.1

/-- The body of an entity does not depend on the rules that are kept. -/
theorem likewise_body [Unicode.Xid] (e : Expr) :
    Likewise rules (body entity e) (body entity e) := by
  unfold body
  refine (Likewise.modify_attached fun _ => []).bind fun _ =>
    (likewise_compile e .top).bind fun action => .get_bind fun d d' hd => ?_
  rw [hd.attached]
  refine (likewise_nameProperties d.attached).bind fun properties => .model_bind fun m => ?_
  have hchanged : ((m.withRules rules).modifyEntity entity fun o =>
        { o with action := some action, properties }) =
      (m.modifyEntity entity fun o => { o with action := some action, properties }).withRules
        rules := Model.modifyEntity_withRules fun _ => rfl
  rw [hchanged]
  exact .setModel _

/-! ## 4. The stages after the bodies -/

/-- An entity gets the same proxy. -/
theorem likewise_collapse (name : Name) : Likewise rules (collapse name) (collapse name) := by
  unfold collapse
  refine .model_bind fun m => ?_
  rw [Model.entity?_withRules]
  cases m.entity? name with
  | none => exact .pure ()
  | some e =>
    refine .model_bind fun m => ?_
    have hchoice : entityChoice? (m.withRules rules) (e.withRule rules) = entityChoice? m e := rfl
    simp only [hchoice]
    refine (Likewise.check _).bind fun choice => ?_
    cases choice with
    | none => exact .pure ()
    | some choice =>
      refine (Likewise.tell _ _).bind fun _ =>
        (Likewise.change fun _ => Model.addProperty_withRules _).bind fun proxy =>
          .model_bind fun m => ?_
      let proxied : Entity := { e with properties := [(alternativeName, proxy)] }
      have hreplaced : (m.withRules rules).replaceEntity (proxied.withRule rules) =
          (m.replaceEntity proxied).withRules rules :=
        Model.modifyEntity_withRules fun _ => rfl
      show Likewise rules _ (setModel ((m.withRules rules).replaceEntity (proxied.withRule rules)))
      rw [hreplaced]
      exact .setModel _

theorem likewise_alternatives : Likewise rules alternatives alternatives := by
  refine .model_bind fun m => ?_
  rw [Model.names_withRules]
  exact .forM (List.forall₂_same.2 fun name _ => likewise_collapse name)

theorem likewise_registerSub (parent child : Name) :
    Likewise rules (registerSub parent child) (registerSub parent child) := by
  refine .model_bind fun m => ?_
  rw [Model.register?_withRules]
  cases m.register? parent child with
  | none => exact .tell _ _
  | some m' => exact (Likewise.setModel m').bind fun _ => .tell _ _

theorem wrapsTerminal_withRules (m : Model) (name : Name) :
    wrapsTerminal (m.withRules rules) name = wrapsTerminal m name := by
  unfold wrapsTerminal
  rw [Model.entity?_withRules]
  cases m.entity? name <;> rfl

/-- An entity is linked in the same way, and leads to the same ones. -/
theorem likewise_discover (e : Entity) :
    Likewise rules (discover e) (discover (e.withRule rules)) := by
  refine .model_bind fun m => ?_
  have hreferences : ∀ ids, allReferences (m.withRules rules) ids = allReferences m ids :=
    fun _ => rfl
  have hids : (e.withRule rules).properties.ids = e.properties.ids := rfl
  simp only [hids, hreferences, Model.isPlural_withRules]
  split
  · refine (Likewise.check _).bind fun plural => ?_
    cases plural with
    | true => exact .check _
    | false =>
      refine (Likewise.check (m.property _)).bind fun p => ?_
      split
      · refine (Likewise.check (m.referencedEntities _)).bind fun targets => ?_
        exact (Likewise.forM (List.forall₂_same.2 fun t _ => likewise_registerSub e.name t)).bind
          fun _ => .pure targets
      · refine (Likewise.check (m.action _)).bind fun x => ?_
        split
        · rw [wrapsTerminal_withRules]
          refine (Likewise.check _).bind fun wraps => ?_
          show Likewise rules (if (wraps && !e.supers.isEmpty) = true then _ else _)
            (if (wraps && !e.supers.isEmpty) = true then _ else _)
          split
          · exact .pure []
          · exact (likewise_registerSub e.name _).bind fun _ => .pure _
        · exact .pure []
  · exact .check _

theorem likewise_walk (names visited stack : List Name) :
    Likewise rules (walk names visited stack) (walk names visited stack) := by
  induction visited, stack using walk.induct names with
  | case1 visited =>
    rw [walk]
    exact .pure ()
  | case2 visited name rest hnew ihrest ihnext =>
    rw [walk, dif_pos hnew]
    refine .model_bind fun m => ?_
    rw [Model.entity?_withRules]
    cases m.entity? name with
    | none => exact ihrest
    | some e => exact (likewise_discover e).bind ihnext
  | case3 visited name rest hold ihrest =>
    rw [walk, dif_neg hold]
    exact ihrest

theorem likewise_hierarchy : Likewise rules hierarchy hierarchy := by
  refine .model_bind fun m => ?_
  have hroot : (m.withRules rules).root = m.root := rfl
  rw [Model.names_withRules, hroot]
  cases m.root with
  | none => exact .pure ()
  | some root => exact likewise_walk m.names [] [root]

/-- What follows the stage of the bodies. -/
def finish : Build Unit := do
  tell (.bodiesMade (← model).properties.size (← model).actions.size)
  alternatives
  hierarchy
  tell (.modelMade (← model).root (← check (← model).virtualCount))

theorem likewise_finish : Likewise rules finish finish := by
  refine .model_bind fun m => .model_bind fun m => (Likewise.tell _ _).bind fun _ =>
    likewise_alternatives.bind fun _ => likewise_hierarchy.bind fun _ =>
      .model_bind fun m => .model_bind fun m => ?_
  rw [Model.virtualCount_withRules]
  exact (Likewise.check _).bind fun _ => .tell _ _

/-! ## 5. Whole grammars -/

/-- A grammar that has rules is built from those that count. -/
theorem exists_grammar_eq [Unicode.Xid] {g : Grammar} (hrules : g.firstRules ≠ []) :
    ∃ events, grammar g { model := ∅ } = ((do
      (g.firstRules.map Entity.ofRule).forM bodyOf
      finish) : Build Unit) { model := .ofRules g.firstRules, events } := by
  obtain ⟨events, hskeleton⟩ := exists_skeleton g { model := ∅ }
  have hnonempty : ¬ g.isEmpty = true := fun h =>
    hrules (Grammar.firstRules_eq_nil_iff.2 (List.isEmpty_iff.1 h))
  refine ⟨events.push (.entitiesMade (Model.ofRules g.firstRules).entities.length), ?_⟩
  rw [grammar, if_neg hnonempty]
  show (skeleton g >>= _) _ = _
  rw [bind_apply, hskeleton]
  rfl

/-- Steps that do the same lead to models that differ at most in the rules that are kept. -/
theorem SameOutcome.run_eq {step step' : Build Unit} {m m' : Model}
    (h : SameOutcome rules (step { model := m }) (step' { model := m' })) :
    (Build.run step' m').1 = (Build.run step m).1.map (Model.withRules rules) := by
  unfold Build.run EStateM.run
  cases hresult : step { model := m } with
  | error stop d =>
    rw [hresult] at h
    cases hresult' : step' { model := m' } with
    | error stop' d' =>
      rw [hresult'] at h
      rw [show stop = stop' from h]
      rfl
    | ok _ d' => rw [hresult'] at h; exact h.elim
  | ok _ d =>
    rw [hresult] at h
    cases hresult' : step' { model := m' } with
    | error stop' d' => rw [hresult'] at h; exact h.elim
    | ok _ d' =>
      rw [hresult'] at h
      exact congrArg Except.ok h.2.model

end Build

/-- A grammar without rules has no model. -/
theorem ofGrammar_of_firstRules_eq_nil [Unicode.Xid] {g : Grammar} (h : g.firstRules = []) :
    Model.ofGrammar g = .error (.error .emptyGrammar) := by
  obtain ⟨rules⟩ := g
  obtain rfl : rules = [] := Grammar.firstRules_eq_nil_iff.1 h
  rfl

/-- Rules that count make the same entities as others of the same names, but for the rules that are
    kept. -/
theorem Model.ofRules_firstRules {g g' : Grammar}
    (hnames : g.firstRules.map Rule.name = g'.firstRules.map Rule.name) :
    Model.ofRules g'.firstRules = (Model.ofRules g.firstRules).withRules g'.rule? := by
  let entity (name : Name) : Entity := { name, rule := g'.rule? name }
  have hentities : g'.firstRules.map Entity.ofRule =
      (g.firstRules.map Entity.ofRule).map (Entity.withRule g'.rule?) := by
    calc g'.firstRules.map Entity.ofRule
        = g'.firstRules.map (entity ∘ Rule.name) := by
          refine List.map_congr_left fun r hr => ?_
          show Entity.ofRule r = entity r.name
          simp only [entity, Grammar.rule?_of_mem_firstRules hr, Entity.ofRule]
      _ = (g.firstRules.map Rule.name).map entity := by rw [hnames, List.map_map]
      _ = (g.firstRules.map Entity.ofRule).map (Entity.withRule g'.rule?) := by
          rw [List.map_map, List.map_map]
          rfl
  have hroot : g'.firstRules.head?.map Rule.name = g.firstRules.head?.map Rule.name := by
    rw [← List.head?_map, ← List.head?_map, hnames]
  unfold Model.ofRules Model.withRules
  rw [hentities, hroot]

/-- Grammars whose rules make the same bodies have the same model, but for the rules that it keeps,
    or none for the same reason. -/
theorem ofGrammar_of_likewise [Unicode.Xid] {g g' : Grammar}
    (h : List.Forall₂ (fun r r' => r.name = r'.name ∧
      Build.body r.name r.body = Build.body r'.name r'.body) g.firstRules g'.firstRules) :
    Model.ofGrammar g' = (Model.ofGrammar g).map (Model.withRules g'.rule?) := by
  have hnames : g.firstRules.map Rule.name = g'.firstRules.map Rule.name := by
    rw [← List.forall₂_eq_eq_eq, List.forall₂_map_left_iff, List.forall₂_map_right_iff]
    exact h.imp fun r r' hr => hr.1
  by_cases hempty : g.firstRules = []
  · have hempty' : g'.firstRules = [] := List.forall₂_nil_left_iff.1 (hempty ▸ h)
    rw [ofGrammar_of_firstRules_eq_nil hempty, ofGrammar_of_firstRules_eq_nil hempty']
    rfl
  · have hempty' : g'.firstRules ≠ [] := by
      intro hempty'
      rw [hempty'] at h
      exact hempty (List.forall₂_nil_right_iff.1 h)
    obtain ⟨events, hrun⟩ := Build.exists_grammar_eq hempty
    obtain ⟨events', hrun'⟩ := Build.exists_grammar_eq hempty'
    have hbodies : Build.Likewise g'.rule? ((g.firstRules.map Entity.ofRule).forM Build.bodyOf)
        ((g'.firstRules.map Entity.ofRule).forM Build.bodyOf) := by
      refine .forM ?_
      rw [List.forall₂_map_left_iff, List.forall₂_map_right_iff]
      refine h.imp fun r r' ⟨hname, hbody⟩ => ?_
      show Build.Likewise _ (Build.body r.name r.body) (Build.body r'.name r'.body)
      rw [← hbody]
      exact Build.likewise_body r.body
    have hsame := hbodies.bind (fun _ => Build.likewise_finish)
      { model := .ofRules g.firstRules, events }
      { model := .ofRules g'.firstRules, events := events' }
      ⟨Model.ofRules_firstRules hnames, rfl⟩
    rw [← hrun, ← hrun'] at hsame
    exact hsame.run_eq

end Ebnf
