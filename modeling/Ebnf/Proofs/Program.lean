import Ebnf.Proofs.Pipeline

/-!
# The program of a built model

How an entity is read follows from the plan of its rule: the instructions are those of the plan, and
the value of a leaf goes to the field of its own property, or to the only field of an entity that is
a choice. No request is a fault.

* `Plan.op`: the instructions of a plan;
* `Plan.Stands.op_eq`: they are what becomes of the actions of the plan;
* `Site.Hosts.assigns`, `Site.Hosts.delivers`: where the value of a leaf goes;
* `Site.Hosts.body_eq`, `Site.Hosts.exists_op`: how an entity is read, and any of its actions;
* `Program.Made`: what there is to know of the program of a model.
-/

namespace Ebnf

open Build (alternativeName idsFrom getElem?_idsFrom mem_idsFrom)

/-! ## 1. Instructions of a plan -/

/-- The instructions for an action, as `Procedure.ofModel` has them for the action of an entity. -/
def Model.op (m : Model) (patterns : Patterns) (ids : List PropertyId) (id : ActionId) :
    Checked Op := do
  Op.ofTree m patterns ids (← m.tree id)

/-- What a leaf reads as a whole. -/
def Symbol.token (patterns : Patterns) : Symbol → Token
  | .literal text witness => .literal text witness
  | .pattern source => .pattern source ((patterns.lookup source).getD fun _ => none)
  | .reference target => .entity target

namespace Plan

mutual

/-- The instructions of a plan whose properties stand from the place `q` on. `dest` tells where the
    value for a property goes. -/
def op (patterns : Patterns) (dest : Nat → Destination) (q : Nat) : Plan → Op
  | leaf mods symbol slot =>
    .leaf mods (symbol.token patterns) (if slot.isSome then dest q else .nowhere)
  | node mods choice parts =>
    if choice then .any mods (opsOf patterns dest q parts)
    else .all mods (opsOf patterns dest q parts)

/-- The instructions of several plans in a row. -/
def opsOf (patterns : Patterns) (dest : Nat → Destination) (q : Nat) : List Plan → List Op
  | [] => []
  | p :: ps => p.op patterns dest q :: opsOf patterns dest (q + p.width) ps

end

variable {m : Model} {entity : Name} {link : ActionId → Option PropertyId} {patterns : Patterns}
  {ids : List PropertyId} {dest : Nat → Destination}

/-- The value of the leaf that fills the property at a place goes where `dest` says. -/
def Delivers (m : Model) (ids : List PropertyId) (dest : Nat → Destination) (k : Nat) : Prop :=
  ∃ p x, m.properties[k]? = some p ∧ m.actions[p.source.index]? = some x ∧
    m.destination ids p.source x = .ok (dest k)

/-- A leaf is a token. -/
theorem token?_top (mods : Modifiers) (symbol : Symbol) (slot : Option Name) (a q : Nat)
    (parent : Option ActionId) :
    ((leaf mods symbol slot).top a q parent).token? patterns = some (symbol.token patterns) := by
  cases symbol <;> rfl

mutual

/-- The instructions for the actions of a plan are those of the plan. -/
theorem Stands.op_eq {a q : Nat} {parent : Option ActionId} :
    ∀ {p : Plan}, p.Stands m entity link a q parent →
      (∀ k, q ≤ k → k < q + p.width → Delivers m ids dest k) →
      Op.ofTree m patterns ids (p.treeOf m link a q parent) = .ok (p.op patterns dest q)
  | leaf mods symbol slot, ⟨htop, hslot⟩, hdest => by
    rw [treeOf, Op.ofTree, token?_top]
    cases slot with
    | none => rfl
    | some name =>
      obtain ⟨name', hproperty⟩ := hslot rfl
      obtain ⟨p, x, hp, hx, hto⟩ := hdest q (Nat.le_refl q) (Nat.lt_succ_self q)
      obtain rfl := Option.some.inj (hproperty.symm.trans hp)
      obtain rfl := Option.some.inj (htop.symm.trans hx)
      simp only [bind, Except.bind, hto, pure, Except.pure]
      rfl
  | node mods choice parts, ⟨hparts, _⟩, hdest => by
    have hops := hparts.ops_eq hdest
    rw [treeOf, Op.ofTree]
    cases choice <;>
      simp only [Action.token?, top, bind, Except.bind, hops, pure, Except.pure, op,
        Action.isChoice] <;> rfl

theorem StandInRow.ops_eq {a q : Nat} {parent : Option ActionId} :
    ∀ {ps : List Plan}, StandInRow m entity link a q parent ps →
      (∀ k, q ≤ k → k < q + (slotsOf ps).length → Delivers m ids dest k) →
      opsOfTrees m patterns ids (treesOf m link a q parent ps) =
        .ok (opsOf patterns dest q ps)
  | [], _, _ => by rw [treesOf, opsOfTrees]; rfl
  | p :: ps, ⟨hp, hps⟩, hdest => by
    rw [slotsOf, List.length_append, ← Nat.add_assoc] at hdest
    have hfirst := hp.op_eq fun k hk hk' =>
      hdest k hk (Nat.lt_of_lt_of_le hk' (Nat.le_add_right ..))
    have hrest := hps.ops_eq fun k hk hk' => hdest k (Nat.le_trans (Nat.le_add_right ..) hk) hk'
    rw [treesOf, opsOfTrees, hfirst, hrest]
    rfl

end

end Plan

/-! ## 2. Look-ups -/

/-- What is listed under names that differ is found there. -/
theorem Ordered.get?_of_mem {α : Type} {vs : Ordered α} {key : Name} {v : α}
    (hnodup : (vs.map Prod.fst).Nodup) (h : (key, v) ∈ vs) : Ordered.get? vs key = some v := by
  induction vs with
  | nil => exact absurd h List.not_mem_nil
  | cons entry rest ih =>
    obtain ⟨k, old⟩ := entry
    rw [List.map_cons, List.nodup_cons] at hnodup
    rcases List.mem_cons.1 h with heq | hmem
    · obtain ⟨rfl, rfl⟩ := Prod.mk.inj heq
      simp [Ordered.get?]
    · have hkey : key ∈ rest.map Prod.fst := List.mem_map.2 ⟨_, hmem, rfl⟩
      have hne : key ≠ k := fun heq => hnodup.1 (heq ▸ hkey)
      have hfalse : (key == k) = false := by simpa using hne
      simpa only [Ordered.get?, List.lookup_cons, hfalse] using ih hnodup.2 hmem

/-- Looking up what was made of the entities is finding the entity. -/
theorem lookup_map_entities {α : Type} (es : List Entity) (make : Entity → α) (name : Name) :
    (es.map fun e => (e.name, make e)).lookup name = (es.find? (·.name = name)).map make := by
  induction es with
  | nil => rfl
  | cons e es ih =>
    rw [List.map_cons, List.lookup_cons, List.find?_cons]
    by_cases hname : e.name = name
    · simp [hname]
    · have hfalse : (name == e.name) = false := by simpa using Ne.symm hname
      simp [hname, hfalse, ih]

/-- The property of an action counts if its entity still lists it. -/
theorem Model.currentProperty?_eq {m : Model} {x : Action} {id : PropertyId} {p : Property}
    {owner : Entity} (hx : x.property = some id) (hp : m.properties[id.index]? = some p)
    (howner : m.entity? p.entity = some owner) :
    m.currentProperty? x = .ok (if owner.property? p.name = some id then some id else none) := by
  rw [Model.currentProperty?, hx]
  simp only [bind, Except.bind, Model.property_eq_ok_iff.2 hp, howner, pure, Except.pure]

/-- The way up from an action starts with it. -/
theorem Model.lineage_head {m : Model} {id : ActionId} {x : Action}
    {line : List (ActionId × Action)} (hx : m.actions[id.index]? = some x)
    (hline : m.lineage id = .ok line) : ∃ around, line = (id, x) :: around := by
  rw [Model.lineage_eq, hx] at hline
  cases hparent : x.parent with
  | none =>
    simp only [hparent] at hline
    exact ⟨[], (Except.ok.inj hline).symm⟩
  | some parent =>
    simp only [hparent] at hline
    split at hline
    · cases hup : m.lineage parent with
      | error fault => rw [hup] at hline; contradiction
      | ok around =>
        rw [hup] at hline
        exact ⟨around, (Except.ok.inj hline).symm⟩
    · exact ⟨[], (Except.ok.inj hline).symm⟩

/-- The place of an id among ids in a row. -/
theorem Build.idxOf?_idsFrom {q n k : Nat} (hk : k < n) :
    (idsFrom q n).idxOf? ⟨q + k⟩ = some k := by
  rw [List.idxOf?_eq_some_iff]
  have hlength : k < (idsFrom q n).length := by rwa [Build.length_idsFrom]
  have hget : ∀ j (hj : j < (idsFrom q n).length), (idsFrom q n)[j] = ⟨q + j⟩ := by
    intro j hj
    rw [Build.length_idsFrom] at hj
    exact (List.getElem_eq_iff _).2 (getElem?_idsFrom hj)
  refine ⟨hlength, hget k hlength, fun j hj heq => ?_⟩
  rw [hget j (Nat.lt_trans hj hlength)] at heq
  have hindex := congrArg PropertyId.index heq
  have : q + j = q + k := hindex
  omega

/-! ## 3. Where values go -/

namespace Site

variable {m : Model} {e : Entity} {s : Site}

/-- The field of the property at a place: its own, or the only one of an entity with a proxy. -/
def dest (s : Site) (k : Nat) : Destination :=
  match s.proxy with
  | none => .field (k - s.property)
  | some _ => .field 0

/-- The property that the value of a leaf ends up in: its own, or the proxy. -/
def target (s : Site) (k : Nat) : PropertyId :=
  match s.proxy with
  | none => ⟨s.property + k⟩
  | some (_, proxy) => proxy

/-- Where the value of the leaf at a place goes among any properties. -/
def destAmong (s : Site) (ids : List PropertyId) (k : Nat) : Destination :=
  match ids.idxOf? (s.target (k - s.property)) with
  | some place => .field place
  | none => .elsewhere

/-- A property that is current under its name is where the value of its action ends up. -/
theorem assignmentTarget_current {m : Model} {e : Entity} {id : ActionId} {q : PropertyId}
    {p : Property} {x : Action} {line : List (ActionId × Action)}
    (howner : m.entity? p.entity = some e) (hp : m.properties[q.index]? = some p)
    (hx : m.actions[id.index]? = some x) (hlink : x.property = some q)
    (hline : m.lineage id = .ok line) (hlisted : e.property? p.name = some q) :
    m.assignmentTarget id = .ok (some q) := by
  obtain ⟨around, rfl⟩ := Model.lineage_head hx hline
  have hcurrent := Model.currentProperty?_eq hlink hp howner
  rw [if_pos hlisted] at hcurrent
  rw [Model.assignmentTarget, hline]
  simp only [bind, Except.bind, Model.firstCurrent?, hcurrent, pure, Except.pure]

/-- The value of a leaf with a property that is current ends up there. -/
theorem Hosts.assigns_plain (h : s.Hosts m e) (hnodup : m.names.Nodup) (he : e ∈ m.entities)
    (hproxy : s.proxy = none) {k : Nat} (hk : k < s.plan.width) {f : Plan.Filler} {i : Nat}
    {x : Action} (hfills : Plan.Fills m e.name s.action s.fin ⟨s.property + k⟩ f i x) :
    m.assignmentTarget ⟨i⟩ = .ok (some ⟨s.property + k⟩) := by
  obtain ⟨asked, hproperty⟩ := hfills.property
  obtain ⟨line, hline, _⟩ := hfills.line
  have hlt : k < s.names.length := by rwa [length_names]
  have hname : s.names[k]? = some s.names[k] := List.getElem?_eq_getElem hlt
  obtain ⟨p, hp, hpname⟩ := h.named k _ hname
  obtain rfl := Option.some.inj (hproperty.symm.trans hp)
  have hid : s.ids[k]? = some ⟨s.property + k⟩ := getElem?_idsFrom hk
  refine assignmentTarget_current (Model.entity?_of_mem hnodup he) hproperty hfills.action
    hfills.link hline ?_
  rw [Entity.property?, h.current, current_plain hproxy]
  refine Ordered.get?_of_mem ?_ (List.mem_of_getElem? (i := k)
    (List.getElem?_zip_eq_some.2 ⟨?_, hid⟩))
  · rw [List.map_fst_zip (Nat.le_of_eq (by rw [length_names, length_ids]))]
    exact s.nodup_names
  · rw [hname, ← hpname]

/-- An entity with a proxy lists nothing else. -/
theorem Hosts.property?_proxy (h : s.Hosts m e) {choice : ActionId} {proxy : PropertyId}
    (hproxy : s.proxy = some (choice, proxy)) (name : Name) :
    e.property? name = if name = alternativeName then some proxy else none := by
  rw [Entity.property?, h.current, current_proxy hproxy, Ordered.get?, List.lookup_cons]
  by_cases hname : name = alternativeName
  · simp [hname]
  · have hfalse : (name == alternativeName) = false := by simpa using hname
    rw [hfalse, if_neg hname]
    rfl

/-- What the choice of an entity with a proxy is linked to is the proxy. -/
theorem Hosts.assigns_choice (h : s.Hosts m e) (hnodup : m.names.Nodup) (he : e ∈ m.entities)
    {choice : ActionId} {proxy : PropertyId} (hproxy : s.proxy = some (choice, proxy)) :
    m.assignmentTarget choice = .ok (some proxy) := by
  obtain ⟨y, hlinked, _⟩ := h.linked_proxy hproxy
  obtain ⟨line, hline⟩ := hlinked.line
  exact assignmentTarget_current (Model.entity?_of_mem hnodup he) hlinked.property hlinked.source
    hlinked.link hline ((h.property?_proxy hproxy _).trans (if_pos rfl))

/-- The value of a leaf of a choice ends up in the proxy. -/
theorem Hosts.assigns_proxy (h : s.Hosts m e) (hnodup : m.names.Nodup) (he : e ∈ m.entities)
    {choice : ActionId} {proxy : PropertyId} (hproxy : s.proxy = some (choice, proxy)) {k : Nat}
    (hk : k < s.plan.width) {f : Plan.Filler} {i : Nat} {x : Action}
    (hfills : Plan.Fills m e.name s.action s.fin ⟨s.property + k⟩ f i x) :
    m.assignmentTarget ⟨i⟩ = .ok (some proxy) := by
  obtain ⟨asked, hproperty⟩ := hfills.property
  -- the property of the leaf was taken over, so the proxy is the first current one on the way up
  have hne : proxy ≠ ⟨s.property + k⟩ := by
    rintro rfl
    have hfresh : s.property + s.plan.width ≤ s.property + k :=
      (h.chooses _ _ hproxy).fresh
    omega
  have htaken := Model.currentProperty?_eq hfills.link hproperty (Model.entity?_of_mem hnodup he)
  have hleaf : ¬ e.property? asked = some ⟨s.property + k⟩ := by
    rw [h.property?_proxy hproxy]
    split
    · exact fun heq => hne (Option.some.inj heq)
    · exact fun heq => by contradiction
  rw [if_neg hleaf] at htaken
  have hchoice := h.assigns_choice hnodup he hproxy
  rw [Model.assignmentTarget] at hchoice
  rw [Model.assignmentTarget, (h.lineage_branch hproxy hk hfills).2]
  cases hline : m.lineage choice with
  | error fault => rw [hline] at hchoice; contradiction
  | ok line =>
    rw [hline] at hchoice
    simp only [Except.map, bind, Except.bind, Model.firstCurrent?, htaken]
    exact hchoice

/-- The value of a leaf ends up in a property of its entity. -/
theorem Hosts.assigns (h : s.Hosts m e) (hnodup : m.names.Nodup) (he : e ∈ m.entities) {k : Nat}
    (hk : k < s.plan.width) {f : Plan.Filler} {i : Nat} {x : Action}
    (hfills : Plan.Fills m e.name s.action s.fin ⟨s.property + k⟩ f i x) :
    m.assignmentTarget ⟨i⟩ = .ok (some (s.target k)) := by
  unfold target
  cases hproxy : s.proxy with
  | none => exact h.assigns_plain hnodup he hproxy hk hfills
  | some entry => exact h.assigns_proxy hnodup he hproxy hk hfills

/-- Every leaf with a property delivers to where that ends up among any properties. -/
theorem Hosts.delivers_among (h : s.Hosts m e) (hnodup : m.names.Nodup) (he : e ∈ m.entities)
    (ids : List PropertyId) {k : Nat} (hk : k < s.plan.width) :
    Plan.Delivers m ids (s.destAmong ids) (s.property + k) := by
  obtain ⟨f, i, x, _, hfills⟩ := h.exists_slot hk
  obtain ⟨asked, hproperty⟩ := hfills.property
  refine ⟨_, x, hproperty, hfills.action, ?_⟩
  rw [Model.destination, hfills.link, h.assigns hnodup he hk hfills, destAmong,
    Nat.add_sub_cancel_left]
  rfl

/-- Every leaf with a property delivers to a field of the entity. -/
theorem Hosts.delivers (h : s.Hosts m e) (hnodup : m.names.Nodup) (he : e ∈ m.entities) {k : Nat}
    (hk : k < s.plan.width) : Plan.Delivers m e.properties.ids s.dest (s.property + k) := by
  have hdest : s.destAmong e.properties.ids (s.property + k) = s.dest (s.property + k) := by
    rw [destAmong, dest, target, h.current]
    cases hproxy : s.proxy with
    | none =>
      have hplace : s.ids.idxOf? ⟨s.property + k⟩ = some k := Build.idxOf?_idsFrom hk
      simp [ids_current_plain hproxy, hplace]
    | some entry => simp [ids_current_proxy hproxy]
  have := h.delivers_among hnodup he e.properties.ids hk
  rwa [Plan.Delivers, hdest] at this

/-- What an action with parts is linked to is there. -/
theorem Hosts.link_property (h : s.Hosts m e) (c : ActionId) (id : PropertyId)
    (hlink : s.link c = some id) : ∃ p, m.properties[id.index]? = some p := by
  cases hproxy : s.proxy with
  | none =>
    rw [link_plain hproxy] at hlink
    contradiction
  | some entry =>
    obtain ⟨choice, proxy⟩ := entry
    rw [link_proxy hproxy] at hlink
    split at hlink
    · obtain rfl := Option.some.inj hlink
      exact ⟨_, (h.chooses _ _ hproxy).property⟩
    · contradiction

/-- The tree of an entity is that of its plan. -/
theorem Hosts.tree_eq (h : s.Hosts m e) : m.tree ⟨s.action + s.plan.size - 1⟩ =
    .ok (s.plan.treeOf m s.link s.action s.property none) :=
  h.stands.tree_eq h.link_property

/-- Every action of an entity has instructions, wherever the values go. -/
theorem Hosts.exists_op (h : s.Hosts m e) (hnodup : m.names.Nodup) (he : e ∈ m.entities)
    (patterns : Patterns) (ids : List PropertyId) {i : Nat} (hi : s.action ≤ i ∧ i < s.fin) :
    ∃ op, m.op patterns ids ⟨i⟩ = .ok op := by
  obtain ⟨p, a, q, parent, hstands, hsize, hq, hq'⟩ := h.stands.sub hi.1 hi.2
  have htree := hstands.tree_eq h.link_property
  have hop : Op.ofTree m patterns ids (p.treeOf m s.link a q parent) =
      .ok (p.op patterns (s.destAmong ids) q) := by
    refine hstands.op_eq fun k hk hk' => ?_
    have := h.delivers_among hnodup he ids (k := k - s.property) (by omega)
    rwa [Nat.add_sub_cancel' (by omega)] at this
  rw [show a + p.size - 1 = i by omega] at htree
  refine ⟨p.op patterns (s.destAmong ids) q, ?_⟩
  rw [Model.op, htree]
  exact hop

/-- An entity is read as its plan says. -/
theorem Hosts.body_eq (h : s.Hosts m e) (hnodup : m.names.Nodup) (he : e ∈ m.entities)
    (patterns : Patterns) : (Procedure.ofModel m patterns e).body =
      some (.ok (s.plan.op patterns s.dest s.property)) := by
  have hop : Op.ofTree m patterns e.properties.ids
      (s.plan.treeOf m s.link s.action s.property none) =
        .ok (s.plan.op patterns s.dest s.property) := by
    refine h.stands.op_eq fun k hk hk' => ?_
    have := h.delivers hnodup he (k := k - s.property) (by omega)
    rwa [Nat.add_sub_cancel' hk] at this
  rw [Procedure.ofModel, h.action, Option.map_some, h.tree_eq]
  exact congrArg some hop

end Site

/-! ## 4. Fields -/

/-- A listed property makes a field. -/
theorem Model.Lists.field_ok {m : Model} {key : Name} {id : PropertyId} (h : m.Lists key id) :
    ∃ f, Field.ofModel m id = .ok f := by
  obtain ⟨plural, hplural⟩ := h.isPlural_ok
  obtain ⟨p, x, hlinked, _⟩ := h
  refine ⟨{ name := p.name, isPlural := plural, isWitness := x.isWitness }, ?_⟩
  simp only [Field.ofModel, bind, Except.bind, Model.property_eq_ok_iff.2 hlinked.property, hplural,
    Model.action_eq_ok_iff.2 hlinked.source, pure, Except.pure]

/-- The fields of an orderly entity are those of its properties. -/
theorem Model.Orderly.fields_ok {m : Model} {e : Entity} (h : m.Orderly e) (patterns : Patterns) :
    ∃ fields, (Procedure.ofModel m patterns e).fields = .ok fields ∧
      List.Forall₂ (fun id f => Field.ofModel m id = .ok f) e.properties.ids fields := by
  refine Checked.mapM_ok e.properties.ids fun id hid => ?_
  obtain ⟨⟨key, id'⟩, hmem, rfl⟩ := List.mem_map.1 hid
  obtain ⟨f, hf⟩ := (h.properties key id' hmem).field_ok
  exact ⟨f, hf, hf⟩

/-! ## 5. Whole programs -/

/-- The matcher of a pattern at the start of a text; one that is not understood finds nothing. -/
def Engine.find (engine : Engine) (source : String) : Matcher :=
  match engine.anchored source with
  | .ok find => find
  | .error _ => fun _ => none

/-- What is known of a program that was made from a model. -/
structure Program.Made (p : Program) (engine : Engine) (m : Model) (config : ReadConfig)
    (patterns : Patterns) : Prop where
  root : m.root = some p.root
  maxDepth : p.maxDepth = config.maxDepth
  ignore : config.ignore.mapM engine.anchoredOrError = .ok p.ignore
  procedures : p.procedures = m.entities.map fun e => (e.name, Procedure.ofModel m patterns e)
  patterns : ∀ (i : Nat) x source, m.actions[i]? = some x → x.kind = .pattern source →
    patterns.lookup source = some (engine.find source)

/-- The patterns of a model have their matchers. -/
theorem lookup_patterns {engine : Engine} {sources : List String} {patterns : Patterns}
    (h : sources.mapM (fun source => return (source, ← engine.anchoredOrError source)) =
      (.ok patterns : Except ReadError Patterns)) {source : String} (hmem : source ∈ sources) :
    patterns.lookup source = some (engine.find source) := by
  induction sources generalizing patterns with
  | nil => exact absurd hmem List.not_mem_nil
  | cons first sources ih =>
    rw [List.mapM_cons] at h
    cases hfirst : engine.anchored first with
    | error message =>
      simp [Engine.anchoredOrError, hfirst, bind, Except.bind, Except.mapError] at h
    | ok find =>
      simp only [Engine.anchoredOrError, hfirst, bind, Except.bind, Except.mapError, pure,
        Except.pure] at h
      split at h
      · contradiction
      · next rest hrest =>
        obtain rfl := Except.ok.inj h
        rw [List.lookup_cons]
        by_cases heq : source = first
        · subst heq
          simp [Engine.find, hfirst]
        · have hfalse : (source == first) = false := by simpa using heq
          rw [hfalse]
          refine ih ?_ ((List.mem_cons.1 hmem).resolve_left heq)
          rw [← hrest]
          rfl

/-- A program that can be made is made of the model and the configuration. -/
theorem Program.made_of_ofModel {engine : Engine} {m : Model} {config : ReadConfig} {p : Program}
    {n : Nat} (h : Program.ofModel engine m config = .ok (p, n)) :
    ∃ patterns, p.Made engine m config patterns := by
  rw [Program.ofModel] at h
  cases hroot : m.root with
  | none => rw [hroot] at h; contradiction
  | some root =>
    rw [hroot] at h
    cases hpatterns : m.patterns engine with
    | error e => simp [hpatterns, bind, Except.bind] at h
    | ok patterns =>
      cases hignore : config.ignore.mapM engine.anchoredOrError with
      | error e => simp [hpatterns, hignore, bind, Except.bind] at h
      | ok ignore =>
        simp only [hpatterns, hignore, bind, Except.bind, pure, Except.pure, Except.ok.injEq,
          Prod.mk.injEq] at h
        obtain ⟨rfl, _⟩ := h
        refine ⟨patterns, hroot, rfl, hignore, rfl, fun i x source hx hkind => ?_⟩
        refine lookup_patterns hpatterns (List.mem_filterMap.2 ⟨x, ?_, ?_⟩)
        · rw [← Array.getElem?_toList] at hx
          exact List.mem_of_getElem? hx
        · rw [Action.pattern?, hkind]

variable {g : Grammar} {engine : Engine} {m : Model} {config : ReadConfig} {p : Program}
  {patterns : Patterns}

/-- An entity is read by its procedure. -/
theorem Program.Made.procedure?_eq (h : p.Made engine m config patterns) (name : Name) :
    p.procedure? name = (m.entity? name).map (Procedure.ofModel m patterns) := by
  rw [Program.procedure?, h.procedures]
  exact lookup_map_entities m.entities (Procedure.ofModel m patterns) name

end Ebnf
