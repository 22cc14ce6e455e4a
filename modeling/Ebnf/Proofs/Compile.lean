import Ebnf.Proofs.Layout

/-!
# Compiling an expression

Compiling adds the code and the properties of the expression's plan to the arenas of the draft and
changes nothing that was there before. It ends early only at a reference to a rule that does not
exist, or when the ids run out.

* `Draft.Grown`: what a step has added to a draft;
* `Build.Refused`: why compiling may end early;
* `Build.Within`: which entries may get no id then;
* `ensures_compile`: the outcome of compiling an expression.
-/

namespace Ebnf

open Build

/-! ## 1. Changes in an arena -/

/-- Changing the entry in the middle of a list. -/
theorem modify_middle {α : Type} (f : α → α) (pre post : List α) (x : α) :
    (pre ++ x :: post).modify pre.length f = pre ++ f x :: post := by
  induction pre with
  | nil => rfl
  | cons y pre ih => rw [List.cons_append, List.length_cons, List.modify_succ_cons, ih]; rfl

/-- An action that is there can be changed. -/
theorem Model.modifyAt_middle {actions : Array Action} {pre post : List Action} {x : Action}
    (id : ActionId) (f : Action → Action) (h : actions.toList = pre ++ x :: post)
    (hid : id.index = pre.length) :
    ∃ changed, Model.modifyAt actions id f = .ok changed ∧
      changed.toList = pre ++ f x :: post := by
  have hlt : id.index < actions.size := by
    rw [← Array.length_toList, h, hid, List.length_append, List.length_cons]
    omega
  refine ⟨actions.modify id.index f, if_pos hlt, ?_⟩
  rw [Array.toList_modify, h, hid, modify_middle]

/-- The same for the action of a model. -/
theorem Model.modifyAction_middle {m : Model} {pre post : List Action} {x : Action} {id : ActionId}
    (f : Action → Action) (h : m.actions.toList = pre ++ x :: post)
    (hid : id.index = pre.length) :
    ∃ changed, m.modifyAction id f = .ok { m with actions := changed } ∧
      changed.toList = pre ++ f x :: post := by
  obtain ⟨changed, hok, hlist⟩ := Model.modifyAt_middle id f h hid
  exact ⟨changed, by rw [Model.modifyAction, hok]; rfl, hlist⟩

/-- Linking the topmost actions of plans to a parent is laying the plans down under it. -/
theorem Model.linkChildren_layOut (parent : ActionId) (ps : List Plan) :
    ∀ {actions : Array Action} {pre post : List Action} {a q : Nat},
      actions.toList = pre ++ Plan.layOut a q none ps ++ post → pre.length = a →
      ∃ linked, Model.linkChildren actions parent (Plan.roots a ps) = .ok linked ∧
        linked.toList = pre ++ Plan.layOut a q (some parent) ps ++ post := by
  induction ps with
  | nil => exact fun {actions _ _ _ _} h _ => ⟨actions, rfl, h⟩
  | cons p ps ih =>
    intro actions pre post a q h ha
    have hsize := p.length_beneath a q
    have htop : actions.toList = (pre ++ p.beneath a q) ++ p.top a q none ::
        (Plan.layOut (a + p.size) (q + p.width) none ps ++ post) := by
      rw [h, Plan.layOut]
      simp only [List.append_assoc, List.cons_append]
    obtain ⟨changed, hok, hlist⟩ := Model.modifyAt_middle ⟨a + p.size - 1⟩
      (fun x => { x with parent := some parent }) htop
      (by rw [List.length_append]; show _ - 1 = _; omega)
    rw [Plan.top_parent] at hlist
    have hrest : changed.toList = (pre ++ p.beneath a q ++ [p.top a q (some parent)]) ++
        Plan.layOut (a + p.size) (q + p.width) none ps ++ post := by
      rw [hlist]
      simp only [List.append_assoc, List.cons_append, List.nil_append]
    obtain ⟨linked, hlinked, hall⟩ := ih hrest (by
      simp only [List.length_append, List.length_cons, List.length_nil]
      omega)
    refine ⟨linked, ?_, ?_⟩
    · rw [Plan.roots, Model.linkChildren, hok]
      exact hlinked
    · rw [hall, Plan.layOut]
      simp only [List.append_assoc, List.cons_append, List.nil_append]

/-! ## 2. Drafts -/

/-- What a step has added to a draft: actions, properties, and names of properties of the entity in
    hand. -/
structure Draft.Grown (d d' : Draft) (as : List Action) (ps : List Property)
    (names : List (Name × PropertyId)) : Prop where
  entities : d'.model.entities = d.model.entities
  root : d'.model.root = d.model.root
  actions : d'.model.actions.toList = d.model.actions.toList ++ as
  properties : d'.model.properties.toList = d.model.properties.toList ++ ps
  attached : d'.attached = d.attached ++ names

namespace Draft.Grown

variable {d d' d'' : Draft} {as as' : List Action} {ps ps' : List Property}
  {names names' : List (Name × PropertyId)}

theorem refl (d : Draft) : d.Grown d [] [] [] :=
  ⟨rfl, rfl, (List.append_nil _).symm, (List.append_nil _).symm, (List.append_nil _).symm⟩

theorem trans (h : d.Grown d' as ps names) (h' : d'.Grown d'' as' ps' names') :
    d.Grown d'' (as ++ as') (ps ++ ps') (names ++ names') where
  entities := h'.entities.trans h.entities
  root := h'.root.trans h.root
  actions := by rw [h'.actions, h.actions, List.append_assoc]
  properties := by rw [h'.properties, h.properties, List.append_assoc]
  attached := by rw [h'.attached, h.attached, List.append_assoc]

/-- Growing keeps the names of the entities. -/
theorem names_eq (h : d.Grown d' as ps names) : d'.model.names = d.model.names :=
  congrArg (List.map Entity.name) h.entities

theorem actions_size (h : d.Grown d' as ps names) :
    d'.model.actions.size = d.model.actions.size + as.length := by
  rw [← Array.length_toList, h.actions, List.length_append, Array.length_toList]

theorem properties_size (h : d.Grown d' as ps names) :
    d'.model.properties.size = d.model.properties.size + ps.length := by
  rw [← Array.length_toList, h.properties, List.length_append, Array.length_toList]

end Draft.Grown

namespace Build

variable {d : Draft} {E : BuildStop → Prop} {entity : Name}

/-- Why compiling may end early: the ids run out, or the first of the references to a rule that
    does not exist is met. -/
def Refused (entity : Name) (names refs : List Name) (stop : BuildStop) : Prop :=
  Shortage stop ∨
    ∃ target, refs.find? (· ∉ names) = some target ∧
      stop = .error (.unknownReference entity target)

theorem Refused.append_left {names refs refs' : List Name} {stop : BuildStop}
    (h : Refused entity names refs stop) : Refused entity names (refs ++ refs') stop := by
  rcases h with h | ⟨target, hfind, rfl⟩
  · exact .inl h
  · exact .inr ⟨target, by rw [List.find?_append, hfind]; rfl, rfl⟩

theorem Refused.append_right {names refs refs' : List Name} {stop : BuildStop}
    (hrefs : ∀ t ∈ refs, t ∈ names) (h : Refused entity names refs' stop) :
    Refused entity names (refs ++ refs') stop := by
  rcases h with h | ⟨target, hfind, rfl⟩
  · exact .inl h
  · refine .inr ⟨target, ?_, rfl⟩
    have hnone : refs.find? (· ∉ names) = none :=
      List.find?_eq_none.2 fun t ht => by simpa using hrefs t ht
    rw [List.find?_append, hnone, hfind]
    rfl

/-- If an entry gets no id, it is one of the first `a` actions or one of the first `q`
    properties. -/
def Within (a q : Nat) (stop : BuildStop) : Prop :=
  ∀ i, stop = .fault (.tooManyEntries i) → i < a ∨ i < q

theorem Within.mono {a q a' q' : Nat} {stop : BuildStop} (h : Within a q stop) (ha : a ≤ a')
    (hq : q ≤ q') : Within a' q' stop := by
  intro i hi
  have hlt := h i hi
  omega

theorem within_fault {a q i : Nat} (h : i < a ∨ i < q) :
    Within a q (.fault (.tooManyEntries i)) := by
  intro j hj
  cases hj
  exact h

theorem within_error (a q : Nat) (e : BuildError) : Within a q (.error e) := by
  intro i hi
  cases hi

/-! ## 3. Leaves -/

/-- The action of a leaf goes to the end of the arena. -/
theorem ensures_addNode_leaf {kind : ActionKind} (hleaf : Action.children { kind := kind } = [])
    (hE : idCount ≤ d.model.actions.size → E (.fault (.tooManyEntries d.model.actions.size))) :
    Ensures (addNode kind) d E fun id d' =>
      id = ⟨d.model.actions.size⟩ ∧ d.Grown d' [{ kind := kind }] [] [] ∧
        d.model.actions.size < idCount := by
  rw [addNode, ensures_change, Model.addAction, hleaf, ActionId.ofIndex]
  by_cases hsize : d.model.actions.size < idCount
  · rw [if_pos hsize]
    refine ⟨rfl, ⟨rfl, rfl, ?_, (List.append_nil _).symm, (List.append_nil _).symm⟩, hsize⟩
    exact Array.toList_push ..
  · rw [if_neg hsize]
    exact hE (Nat.le_of_not_lt hsize)

/-- An action at the end of the arena gets a property. -/
theorem ensures_attach {name : Name} {source : ActionId} {pre : List Action} {x : Action}
    (hlast : d.model.actions.toList = pre ++ [x]) (hsource : source.index = pre.length)
    (hE : idCount ≤ d.model.properties.size →
      E (.fault (.tooManyEntries d.model.properties.size))) :
    Ensures (attach entity name source) d E fun _ d' =>
      d'.model.entities = d.model.entities ∧ d'.model.root = d.model.root ∧
        d'.model.actions.toList =
          pre ++ [{ x with property := some ⟨d.model.properties.size⟩ }] ∧
        d'.model.properties.toList =
          d.model.properties.toList ++
            [{ name := name, entity := entity, source := source }] ∧
        d'.attached = d.attached ++ [(name, ⟨d.model.properties.size⟩)] := by
  rw [attach, ensures_bind, ensures_tell, ensures_bind, ensures_change, Model.addProperty,
    PropertyId.ofIndex]
  by_cases hsize : d.model.properties.size < idCount
  · obtain ⟨changed, hok, hlist⟩ := Model.modifyAction_middle (m := d.model)
      (fun x => { x with property := some ⟨d.model.properties.size⟩ }) hlast hsource
    simp only [if_pos hsize, bind, Except.bind, pure, Except.pure, hok]
    rw [ensures_modify]
    exact ⟨rfl, rfl, hlist, Array.toList_push .., rfl⟩
  · simp only [if_neg hsize, bind, Except.bind]
    exact hE (Nat.le_of_not_lt hsize)

/-- A leaf that asks for a name gets its action and its property. -/
theorem ensures_leaf {kind : ActionKind} {name : Name}
    (hleaf : Action.children { kind := kind } = [])
    (hE : ∀ i, i = d.model.actions.size ∨ i = d.model.properties.size → idCount ≤ i →
      E (.fault (.tooManyEntries i))) :
    Ensures (do let id ← addNode kind; attach entity name id; return id) d E fun id d' =>
      id = ⟨d.model.actions.size⟩ ∧
        d.Grown d' [{ kind := kind, property := some ⟨d.model.properties.size⟩ }]
          [{ name := name, entity := entity, source := ⟨d.model.actions.size⟩ }]
          [(name, ⟨d.model.properties.size⟩)] ∧
        d.model.actions.size < idCount := by
  rw [ensures_bind]
  refine (ensures_addNode_leaf hleaf (hE _ (.inl rfl))).mono (fun _ h => h) ?_
  rintro id d₁ ⟨hid, h₁, hlt⟩
  rw [ensures_bind]
  have hsource : id.index = d.model.actions.toList.length := by
    rw [hid, Array.length_toList]
  have hsize : d₁.model.properties.size = d.model.properties.size := by
    rw [h₁.properties_size]
    rfl
  refine (ensures_attach h₁.actions hsource (hE _ (.inr hsize))).mono (fun _ h => h) ?_
  rintro _ d₂ ⟨hentities, hroot, hactions, hproperties, hattached⟩
  rw [ensures_pure]
  refine ⟨hid, ⟨hentities.trans h₁.entities, hroot.trans h₁.root, ?_, ?_, ?_⟩, hlt⟩
  · rw [hactions, hsize]
  · rw [hproperties, h₁.properties, List.append_nil, hid]
  · rw [hattached, h₁.attached, List.append_nil, hsize]

/-! ## 4. Expressions -/

/-- Compiling a chain of choices is compiling its branches. -/
theorem compileBranches_eq [Unicode.Xid] (place : Place) (e : Expr) :
    compileBranches entity place e = e.alternatives.mapM (compile entity place) := by
  induction e with
  | choice left right ihl ihr =>
    rw [compileBranches, ihl, ihr, Expr.alternatives, List.mapM_append]
  | _ =>
    rw [compileBranches, Expr.alternatives, List.mapM_cons, List.mapM_nil] <;> simp

/-- Compiling a chain of sequences is compiling its members. -/
theorem compileMembers_eq [Unicode.Xid] (place : Place) (e : Expr) :
    compileMembers entity place e = e.members.mapM (compile entity place) := by
  induction e with
  | sequence left right ihl ihr =>
    rw [compileMembers, ihl, ihr, Expr.members, List.mapM_append]
  | _ =>
    rw [compileMembers, Expr.members, List.mapM_cons, List.mapM_nil] <;> simp

/-- A choice is compiled branch by branch, however its chain leans. -/
theorem compile_choice [Unicode.Xid] (place : Place) (left right : Expr) :
    compile entity place (.choice left right) = (do
      let ids ← (left.alternatives ++ right.alternatives).mapM (compile entity place.branch)
      addNode (.any ids)) := by
  rw [compile, compileBranches_eq, compileBranches_eq, List.mapM_append]
  simp only [bind_assoc, pure_bind]

/-- A sequence is compiled member by member, however its chain leans. -/
theorem compile_sequence [Unicode.Xid] (place : Place) (left right : Expr) :
    compile entity place (.sequence left right) = (do
      let ids ← (left.members ++ right.members).mapM (compile entity place.nested)
      addNode (.all ids)) := by
  rw [compile, compileMembers_eq, compileMembers_eq, List.mapM_append]
  simp only [bind_assoc, pure_bind]

/-- Why compiling an expression with the given plan and references may end early: it is refused,
    and for want of ids only if its own entries are too many. -/
def Stops (entity : Name) (d : Draft) (plan : Plan) (refs : List Name) (stop : BuildStop) : Prop :=
  Refused entity d.model.names refs stop ∧
    Within (d.model.actions.size + plan.size) (d.model.properties.size + plan.width) stop

/-- Compiling the expression in the rule of the entity lays down its plan, unless it refers to a
    rule that does not exist. -/
def Compiles [Unicode.Xid] (entity : Name) (place : Place) (e : Expr) : Prop :=
  ∀ d : Draft, Ensures (compile entity place e) d
    (Stops entity d (e.plan entity place) e.references)
    fun id d' =>
      let plan := e.plan entity place
      let a := d.model.actions.size
      let q := d.model.properties.size
      id = ⟨a + plan.size - 1⟩ ∧
        d.Grown d' (plan.code a q none) (plan.props entity a) (Plan.tagged q plan.slots) ∧
        (∀ t ∈ e.references, t ∈ d.model.names) ∧ a + plan.size ≤ idCount

/-- A leaf that asks for a name ends early where there is no id for its action or its property. -/
theorem stops_leaf (mods : Modifiers) (symbol : Symbol) (name : Name) (refs : List Name) {i : Nat}
    (hi : i = d.model.actions.size ∨ i = d.model.properties.size) (hfull : idCount ≤ i) :
    Stops entity d (.leaf mods symbol (some name)) refs (.fault (.tooManyEntries i)) := by
  refine ⟨.inl ⟨i, hfull, rfl⟩, within_fault ?_⟩
  rcases hi with rfl | rfl
  · exact .inl (Nat.lt_succ_self _)
  · exact .inr (Nat.lt_succ_self _)

/-- Marks add no entries. -/
@[simp] theorem stops_withMods (mods : Modifiers → Modifiers) (plan : Plan) (refs : List Name) :
    Stops entity d (plan.withMods mods) refs = Stops entity d plan refs := by
  funext stop
  rw [Stops, Stops, Plan.width, Plan.size_withMods, Plan.slots_withMods]
  rfl

/-- Marking the action that was added last changes only that action. -/
theorem ensures_mark {d d₁ : Draft} {id : ActionId} {as : List Action} {x : Action}
    {ps : List Property} {names : List (Name × PropertyId)} (f : Action → Action)
    (h : d.Grown d₁ (as ++ [x]) ps names)
    (hid : id.index = d.model.actions.size + as.length) :
    Ensures (markAction id f) d₁ E fun _ d' => d.Grown d' (as ++ [f x]) ps names := by
  have hlist : d₁.model.actions.toList = (d.model.actions.toList ++ as) ++ x :: [] := by
    rw [h.actions, List.append_assoc]
  have hlength : id.index = (d.model.actions.toList ++ as).length := by
    rw [hid, List.length_append, @Array.length_toList _ d.model.actions]
  obtain ⟨changed, hok, hchanged⟩ := Model.modifyAction_middle f hlist hlength
  rw [markAction, ensures_update, hok]
  refine ⟨h.entities, h.root, ?_, h.properties, h.attached⟩
  rw [← List.append_assoc]
  exact hchanged

/-- The parts of a chain are laid down one after the other. -/
theorem ensures_parts [Unicode.Xid] {place : Place} {es : List Expr}
    (h : ∀ e ∈ es, Compiles entity place e) :
    ∀ d : Draft, Ensures (es.mapM (compile entity place)) d
      (fun stop => Refused entity d.model.names (es.flatMap Expr.references) stop ∧
        let plans := es.map (Expr.plan entity place)
        Within (d.model.actions.size + Plan.sizes plans)
          (d.model.properties.size + (Plan.slotsOf plans).length) stop)
      fun ids d' =>
        let plans := es.map (Expr.plan entity place)
        let a := d.model.actions.size
        let q := d.model.properties.size
        ids = Plan.roots a plans ∧
          d.Grown d' (Plan.layOut a q none plans) (Plan.propsOf entity a plans)
            (Plan.tagged q (Plan.slotsOf plans)) ∧
          ∀ t ∈ es.flatMap Expr.references, t ∈ d.model.names := by
  induction es with
  | nil =>
    intro d
    rw [List.mapM_nil, ensures_pure]
    exact ⟨rfl, .refl d, fun t ht => absurd ht List.not_mem_nil⟩
  | cons e es ih =>
    intro d
    rw [List.mapM_cons, ensures_bind, List.flatMap_cons]
    simp only [List.map_cons, Plan.sizes, Plan.slotsOf, List.length_append, ← Nat.add_assoc]
    refine (h e List.mem_cons_self d).mono (fun _ hstop => ⟨hstop.1.append_left, ?_⟩) ?_
    · exact hstop.2.mono (Nat.le_add_right ..) (Nat.le_add_right ..)
    rintro id d₁ ⟨hid, h₁, hrefs, _⟩
    rw [ensures_bind]
    have hactions : d₁.model.actions.size =
        d.model.actions.size + (e.plan entity place).size := by
      rw [h₁.actions_size, Plan.length_code]
    have hproperties : d₁.model.properties.size =
        d.model.properties.size + (e.plan entity place).width := by
      rw [h₁.properties_size, Plan.length_props]
    refine (ih (fun f hf => h f (List.mem_cons_of_mem _ hf)) d₁).mono (fun stop hstop => ?_) ?_
    · rw [h₁.names_eq, hactions, hproperties] at hstop
      exact ⟨hstop.1.append_right hrefs, hstop.2⟩
    rintro ids d₂ ⟨hids, h₂, hrefs'⟩
    rw [hactions, hproperties] at h₂
    rw [hactions] at hids
    rw [h₁.names_eq] at hrefs'
    rw [ensures_pure]
    refine ⟨?_, ?_, fun t ht => ?_⟩
    · rw [hid, hids, Plan.roots]
    · have h₁₂ := h₁.trans h₂
      rw [Plan.code, List.append_assoc, List.singleton_append] at h₁₂
      rw [Plan.layOut, Plan.propsOf, Plan.tagged_append]
      exact h₁₂
    · rcases List.mem_append.1 ht with ht | ht
      · exact hrefs t ht
      · exact hrefs' t ht

/-- A chain becomes one action with the actions of its parts as children. -/
theorem ensures_chain [Unicode.Xid] {place : Place} {es : List Expr} (choice : Bool)
    (h : ∀ e ∈ es, Compiles entity place e) (d : Draft) :
    Ensures (do
        let ids ← es.mapM (compile entity place)
        addNode (if choice then .any ids else .all ids)) d
      (Stops entity d (.node ⟨false, false⟩ choice (es.map (Expr.plan entity place)))
        (es.flatMap Expr.references))
      fun id d' =>
        let plan := Plan.node ⟨false, false⟩ choice (es.map (Expr.plan entity place))
        let a := d.model.actions.size
        let q := d.model.properties.size
        id = ⟨a + plan.size - 1⟩ ∧
          d.Grown d' (plan.code a q none) (plan.props entity a) (Plan.tagged q plan.slots) ∧
          (∀ t ∈ es.flatMap Expr.references, t ∈ d.model.names) ∧ a + plan.size ≤ idCount := by
  rw [ensures_bind]
  refine (ensures_parts h d).mono (fun _ hstop => ⟨hstop.1, ?_⟩) ?_
  · exact hstop.2.mono (Nat.le_succ _) (Nat.le_refl _)
  rintro ids d₁ ⟨rfl, h₁, hrefs⟩
  generalize hplans : es.map (Expr.plan entity place) = plans at h₁ ⊢
  have hsize : d₁.model.actions.size = d.model.actions.size + Plan.sizes plans := by
    rw [h₁.actions_size, Plan.length_layOut]
  rw [addNode, ensures_change, Model.addAction, ActionId.ofIndex]
  by_cases hlt : d₁.model.actions.size < idCount
  · have hchildren : ∀ ids : List ActionId,
        Action.children { kind := (if choice then .any ids else .all ids) } = ids := by
      intro ids
      cases choice <;> rfl
    have hlaid : d₁.model.actions.toList = d.model.actions.toList ++
        Plan.layOut d.model.actions.size d.model.properties.size none plans ++ [] := by
      rw [h₁.actions, List.append_nil]
    obtain ⟨linked, hok, hlinked⟩ :=
      Model.linkChildren_layOut ⟨d₁.model.actions.size⟩ plans hlaid Array.length_toList
    rw [if_pos hlt, hchildren]
    simp only [bind, Except.bind, hok, pure, Except.pure]
    refine ⟨?_, ⟨h₁.entities, h₁.root, ?_, h₁.properties, h₁.attached⟩, hrefs, ?_⟩
    · rw [hsize, Plan.size]
      rfl
    · rw [Array.toList_push, hlinked, hsize, List.append_nil, Plan.code, Plan.beneath, Plan.top,
        List.append_assoc]
    · rwa [hsize] at hlt
  · rw [if_neg hlt]
    refine ⟨.inl ⟨_, Nat.le_of_not_lt hlt, rfl⟩, within_fault (.inl ?_)⟩
    rw [hsize, Plan.size]
    exact Nat.lt_succ_self _

/-- A mark on the whole of an expression ends up on the topmost action of its plan. -/
theorem Compiles.mark [Unicode.Xid] {place place' : Place} {e inner : Expr} (f : Action → Action)
    (mods : Modifiers → Modifiers)
    (hf : ∀ x : Action, f x = { x with
      isOptional := (mods ⟨x.isOptional, x.isPlural⟩).optional,
      isPlural := (mods ⟨x.isOptional, x.isPlural⟩).plural })
    (hcompile : compile entity place e = do
      let id ← compile entity place' inner
      markAction id f
      return id)
    (hplan : e.plan entity place = (inner.plan entity place').withMods mods)
    (h : Compiles entity place' inner) (hrefs : e.references = inner.references) :
    Compiles entity place e := by
  intro d
  rw [hcompile, hplan, hrefs, ensures_bind]
  simp only [stops_withMods, Plan.size_withMods, Plan.props_withMods, Plan.slots_withMods,
    Plan.code_withMods]
  refine (h d).mono (fun _ hstop => hstop) ?_
  rintro id d₁ ⟨hid, h₁, hknown⟩
  generalize inner.plan entity place' = plan at hid h₁ hknown ⊢
  have hsize := plan.length_beneath d.model.actions.size d.model.properties.size
  rw [ensures_bind]
  refine (ensures_mark f h₁ ?_).mono (fun _ hstop => hstop) fun _ d₂ h₂ => ?_
  · rw [hid]
    show _ - 1 = _
    omega
  rw [ensures_pure]
  refine ⟨hid, ?_, hknown⟩
  obtain ⟨hoptional, hplural⟩ := plan.top_mods d.model.actions.size d.model.properties.size none
  rw [hf, hoptional, hplural] at h₂
  exact h₂

/-- A literal that asks for a name gets its property, and a flag in place of its text where it may
    be missing; any other literal is an action and nothing more. -/
theorem compiles_literal [Unicode.Xid] (place : Place) (label : Option Name) (text : String) :
    Compiles entity place (.literal label text) := by
  intro d
  rw [compile, ensures_bind, Expr.plan, Expr.references]
  refine (ensures_addNode_leaf rfl fun hsize => ?_).mono (fun _ hstop => hstop) ?_
  · exact ⟨.inl ⟨_, hsize, rfl⟩, within_fault (.inl (Nat.lt_succ_self _))⟩
  rintro id d₁ ⟨hid, h₁, hlt⟩
  cases literalName? entity label text place with
  | none => exact ⟨hid, h₁, fun t ht => absurd ht List.not_mem_nil, hlt⟩
  | some name =>
    rw [ensures_bind]
    have h₁' : d.Grown d₁ ([] ++ [{ kind := .literal text }]) [] [] := h₁
    have hindex : id.index = d.model.actions.size := congrArg ActionId.index hid
    refine (ensures_mark (fun a => { a with isWitness := place.optional }) h₁' hindex).mono
      (fun _ hstop => hstop) fun _ d₂ h₂ => ?_
    rw [ensures_bind]
    have hlength : id.index = d.model.actions.toList.length := by
      rw [hindex, Array.length_toList]
    have hsize : d₂.model.properties.size = d.model.properties.size := h₂.properties_size
    refine (ensures_attach h₂.actions hlength fun hfull => ?_).mono (fun _ hstop => hstop) ?_
    · refine ⟨.inl ⟨_, hfull, rfl⟩, within_fault (.inr ?_)⟩
      rw [hsize]
      exact Nat.lt_succ_self _
    rintro _ d₃ ⟨hentities, hroot, hactions, hproperties, hattached⟩
    rw [ensures_pure]
    refine ⟨hid, ⟨hentities.trans h₂.entities, hroot.trans h₂.root, ?_, ?_, ?_⟩,
      fun t ht => absurd ht List.not_mem_nil, hlt⟩
    · rw [hactions, hsize]
      rfl
    · rw [hproperties, h₂.properties, List.append_nil, hid]
      rfl
    · rw [hattached, h₂.attached, List.append_nil, hsize]
      rfl

/-- Compiling an expression adds the actions and the properties of its plan, or ends at the first
    reference to a rule that does not exist. -/
theorem ensures_compile [Unicode.Xid] (e : Expr) : ∀ place, Compiles entity place e := by
  induction e using Expr.chainInduction with
  | choice left right ih =>
    intro place d
    have hchain := ensures_chain true (fun e he => ih e he place.branch) d
    rw [Expr.plan_choice, compile_choice, Expr.references,
      ← left.flatMap_references_alternatives, ← right.flatMap_references_alternatives,
      ← List.flatMap_append]
    exact hchain
  | sequence left right ih =>
    intro place d
    have hchain := ensures_chain false (fun e he => ih e he place.nested) d
    rw [Expr.plan_sequence, compile_sequence, Expr.references,
      ← left.flatMap_references_members, ← right.flatMap_references_members,
      ← List.flatMap_append]
    exact hchain
  | optional inner ih =>
    intro place
    exact Compiles.mark (fun a => { a with isOptional := true })
      (fun mods => { mods with optional := true }) (fun _ => rfl) (by rw [compile])
      (by rw [Expr.plan]) (ih place.branch) rfl
  | repetition inner ih =>
    intro place
    exact Compiles.mark (fun a => { a with isPlural := true })
      (fun mods => { mods with plural := true }) (fun _ => rfl) (by rw [compile])
      (by rw [Expr.plan]) (ih place.nested) rfl
  | group inner ih =>
    intro place d
    rw [compile, Expr.plan, Expr.references]
    exact ih place d
  | reference label target =>
    intro place d
    rw [compile, Expr.plan, Expr.references, ensures_bind, ensures_model]
    by_cases htarget : target ∈ d.model.names
    · rw [Model.contains_iff.2 htarget]
      refine (ensures_leaf rfl fun _ => stops_leaf _ _ _ _).mono (fun _ h => h) ?_
      rintro id d₁ ⟨hid, h₁, hlt⟩
      exact ⟨hid, h₁, fun t ht => List.mem_singleton.1 ht ▸ htarget, hlt⟩
    · have hcontains : d.model.contains target = false := by
        rw [Bool.eq_false_iff]
        exact fun h => htarget (Model.contains_iff.1 h)
      rw [hcontains]
      refine ⟨.inr ⟨target, ?_, rfl⟩, within_error _ _ _⟩
      simp [htarget]
  | literal label text => exact fun place => compiles_literal place label text
  | pattern label source =>
    intro place d
    rw [compile, Expr.plan, Expr.references]
    refine (ensures_leaf rfl fun _ => stops_leaf _ _ _ _).mono (fun _ h => h) ?_
    rintro id d₁ ⟨hid, h₁, hlt⟩
    exact ⟨hid, h₁, fun t ht => absurd ht List.not_mem_nil, hlt⟩

/-! ## 5. Entities -/

/-- The ids of properties that are made in a row. -/
def idsFrom (q n : Nat) : List PropertyId :=
  (List.range' q n).map PropertyId.mk

/-- Properties under other names. -/
def renamed (ps : List Property) (names : List Name) : List Property :=
  ps.zipWith (fun p name => { p with name := name }) names

/-- Renaming properties in a row changes their names and nothing else. -/
theorem ensures_rename {names : List Name} :
    ∀ {d : Draft} {pre ps : List Property} {q : Nat}, d.model.properties.toList = pre ++ ps →
      pre.length = q → ps.length = names.length →
      Ensures ((names.zip (idsFrom q names.length)).forM fun (name, id) =>
        update fun m => m.renameProperty id name) d E fun _ d' =>
        ∃ properties : Array Property, properties.toList = pre ++ renamed ps names ∧
          d' = { d with model := { d.model with properties := properties } } := by
  induction names with
  | nil =>
    intro d pre ps q hlist _ hlength
    obtain rfl := List.length_eq_zero_iff.1 hlength
    exact ⟨d.model.properties, hlist, rfl⟩
  | cons name names ih =>
    intro d pre ps q hlist hq hlength
    cases ps with
    | nil => exact absurd hlength (by simp)
    | cons p ps =>
      have hsize : q < d.model.properties.size := by
        rw [← Array.length_toList, hlist, List.length_append, List.length_cons]
        omega
      show Ensures (update (fun m => m.renameProperty ⟨q⟩ name) >>= fun _ =>
        (names.zip (idsFrom (q + 1) names.length)).forM fun (name, id) =>
          update fun m => m.renameProperty id name) d E _
      rw [ensures_bind, ensures_update, Model.renameProperty, if_pos hsize]
      have hrenamed : (d.model.properties.modify q fun p => { p with name := name }).toList =
          (pre ++ [{ p with name := name }]) ++ ps := by
        rw [Array.toList_modify, hlist, ← hq, modify_middle, List.append_assoc]
        rfl
      refine (ih hrenamed ?_ (Nat.succ.inj hlength)).mono (fun _ h => h) ?_
      · rw [List.length_append, hq]
        rfl
      · rintro _ d' ⟨properties, hproperties, rfl⟩
        refine ⟨properties, ?_, rfl⟩
        rw [hproperties, List.append_assoc]
        rfl

theorem map_fst_tagged (q : Nat) (names : List Name) :
    (Plan.tagged q names).map Prod.fst = names := by
  rw [Plan.tagged, List.map_map]
  exact List.zipIdx_map_fst q names

theorem map_snd_tagged (q : Nat) (names : List Name) :
    (Plan.tagged q names).map Prod.snd = idsFrom q names.length := by
  rw [Plan.tagged, List.map_map, idsFrom, ← List.zipIdx_map_snd q names, List.map_map]
  rfl

/-- The body of an entity is laid down: the actions and properties of its plan are the last ones,
    and the entity has the topmost action and all the properties, under names that differ. -/
structure LaidDown (m m' : Model) (entity : Name) (plan : Plan) : Prop where
  actions : m'.actions.toList =
    m.actions.toList ++ plan.code m.actions.size m.properties.size none
  properties : m'.properties.toList = m.properties.toList ++
    renamed (plan.props entity m.actions.size) (distinctNames plan.slots)
  root : m'.root = m.root
  entities : m'.entities = (m.modifyEntity entity fun o =>
    { o with action := some ⟨m.actions.size + plan.size - 1⟩
             properties :=
              (distinctNames plan.slots).zip (idsFrom m.properties.size plan.width) }).entities

/-- Making the body of an entity lays down the plan of its rule, unless the rule refers to one that
    does not exist. -/
theorem ensures_body [Unicode.Xid] (e : Expr) (d : Draft) :
    Ensures (body entity e) d (Stops entity d (e.plan entity .top) e.references) fun _ d' =>
      LaidDown d.model d'.model entity (e.plan entity .top) ∧
        (∀ t ∈ e.references, t ∈ d.model.names) ∧
        d.model.actions.size + (e.plan entity .top).size ≤ idCount := by
  rw [body, ensures_bind, ensures_modify, ensures_bind]
  refine (ensures_compile e .top { d with attached := [] }).mono (fun _ h => h) ?_
  rintro id d₁ ⟨rfl, h₁, hrefs⟩
  rw [ensures_bind, ensures_get, ensures_bind, nameProperties]
  generalize hplan : e.plan entity .top = plan at h₁ hrefs ⊢
  have hattached : d₁.attached = Plan.tagged d.model.properties.size plan.slots := by
    rw [h₁.attached]
    rfl
  have hlength : (distinctNames plan.slots).length = plan.width := length_distinctNames plan.slots
  rw [hattached, map_fst_tagged, map_snd_tagged, ensures_bind]
  have hnamed : (plan.props entity d.model.actions.size).length =
      (distinctNames plan.slots).length := by
    rw [Plan.length_props, hlength]
  have hrename := ensures_rename (E := Stops entity d plan e.references)
    h₁.properties Array.length_toList hnamed
  rw [hlength] at hrename
  refine hrename.mono (fun _ h => h) ?_
  rintro _ d₂ ⟨properties, hproperties, rfl⟩
  rw [ensures_pure, ensures_bind, ensures_model, ensures_setModel]
  refine ⟨⟨h₁.actions, hproperties, h₁.root, ?_⟩, hrefs⟩
  show List.map _ d₁.model.entities = List.map _ d.model.entities
  rw [h₁.entities]
  rfl

end Build

end Ebnf
