import Mathlib
import Ebnf.Proofs.Instances
import Ebnf.Proofs.Kept

/-!
# The shape of instances

The fields of an instance come in the order of the properties of its entity. A field is a list if
its property repeats, and no list is in another one. Flags are in the fields of witnesses, and
nowhere else. A witness that does not repeat tells whether its text was found in the match of the
instance.

* `Value.Single`: values that are no lists, and flags only for witnesses;
* `Model.Shaped`: what can be told of the fields of an instance;
* `Program.Found`: a text was found in the match of an instance;
* `read_shaped`: the shape of every instance in a result.
-/

namespace Ebnf

/-! ## 1. Single values -/

/-- A value that is no list, and is a flag just if it belongs to a witness. -/
def Value.Single (isWitness : Bool) (v : Value) : Prop :=
  (∀ items, v ≠ .list items) ∧ ((∃ b, v = .flag b) ↔ isWitness = true)

namespace Value.Single

theorem text (s : String) : Single false (.text s) :=
  ⟨nofun, nofun, nofun⟩

theorem flag (b : Bool) : Single true (.flag b) :=
  ⟨nofun, fun _ => rfl, fun _ => ⟨b, rfl⟩⟩

theorem node (n : Node) : Single false n.toValue :=
  ⟨nofun, nofun, nofun⟩

theorem isWitness_eq_false {w : Bool} {v : Value} (h : v.Single w) (hflag : ∀ b, v ≠ .flag b) :
    w = false := by
  cases w with
  | true =>
    obtain ⟨b, hb⟩ := h.2.2 rfl
    exact absurd hb (hflag b)
  | false => rfl

end Value.Single

/-- A leaf gives flags if it is a witness, as long as no reference gives any. -/
theorem Symbol.Gives.single {symbol : Symbol} {v : Value}
    (h : symbol.Gives (fun _ v => v.Single false) v) : v.Single symbol.isWitness := by
  cases symbol with
  | literal text witness =>
    cases witness with
    | true =>
      obtain ⟨b, rfl⟩ := h
      exact .flag b
    | false =>
      obtain ⟨s, rfl⟩ := h
      exact .text s
  | pattern source =>
    obtain ⟨s, rfl⟩ := h
    exact .text s
  | reference target => exact h

variable {m : Model} {e : Entity} {s : Site}

/-- What a leaf of a property gives is a flag just if the source of the property is a witness. -/
theorem Site.Source.single {place : Nat} {id : PropertyId} {p : Property} {t : ActionTree}
    (h : s.Source e place id p t) {symbol : Symbol} {v : Value} (hfeeds : s.Feeds place symbol)
    (hgives : symbol.Gives (fun _ v => v.Single false) v) : v.Single t.action.isWitness := by
  cases h with
  | leaf kind witness feeds only =>
    obtain rfl := only symbol hfeeds
    rw [ActionTree.action, witness]
    exact hgives.single
  | choice kind witness proxy owner alone branches =>
    obtain ⟨⟨target, rfl⟩, _⟩ := branches symbol hfeeds
    rw [ActionTree.action, witness]
    exact hgives

/-- The source of the property that a virtual entity stands for is no witness. -/
theorem Site.Wraps.isWitness_eq {name : Name} {id : PropertyId} {p : Property} {t : ActionTree}
    (h : s.Wraps m name e id p t) (hranked : m.Ranked) (hsurveyed : Build.Surveyed m)
    (hvirtual : m.isVirtual name = .ok true) : t.action.isWitness = false := by
  obtain ⟨key, hproperties⟩ := h.place
  have hplace : e.properties[0]? = some (key, id) := by rw [hproperties]; rfl
  obtain ⟨e', key', id', he', hproperties', _, p', x, hp', hx, hcases⟩ :=
    Model.of_isVirtual hvirtual
  obtain rfl := Option.some.inj (h.entity.symm.trans he')
  obtain ⟨rfl, rfl⟩ : key = key' ∧ id = id' := by
    rw [hproperties] at hproperties'
    simpa using hproperties'
  obtain rfl := Except.ok.inj (h.property.symm.trans hp')
  obtain rfl := Except.ok.inj (hx.symm.trans (Model.action_of_tree h.tree))
  cases h.source with
  | choice _ witness _ _ _ _ => exact witness
  | leaf kind witness feeds only =>
    rename_i x symbol
    rcases hcases with hterminal | hsubs
    · rw [ActionTree.action, Action.isValueTerminal, kind] at hterminal
      cases symbol with
      | literal text isWitness => exact Bool.not_eq_true' _ ▸ hterminal
      | pattern source => exact witness
      | reference target => exact witness
    -- an entity has subs only if its property refers to them
    · obtain ⟨sub, hsub⟩ := List.exists_mem_of_ne_nil _ hsubs
      obtain ⟨id', ⟨e', he', hids⟩, hrefers⟩ :=
        (hsurveyed.made _ _ (hranked.super_of_mem_subs h.entity hsub)).2.hands
      obtain rfl := Option.some.inj (h.entity.symm.trans he')
      obtain rfl : id = id' := by
        rw [PropertyMap.ids, hproperties] at hids
        simpa using hids
      obtain rfl := only _ ((h.hosts.refers_iff hplace).1 hrefers)
      exact witness

/-! ## 2. Fields -/

/-- The field belongs to a property of the entity, and holds flags just if the source of the
    property is a witness: in a list if the property repeats, and else as it is. -/
def Model.FieldShaped (m : Model) (e : Entity) (key : Name) (w : Value) : Prop :=
  ∃ id plural q x, e.property? key = some id ∧ m.isPlural id = .ok plural ∧
    m.property id = .ok q ∧ m.action q.source = .ok x ∧ w.Each plural (Value.Single x.isWitness)

/-- The fields come in the order of the properties and are shaped as these say, and properties that
    repeat have one. -/
structure Model.Shaped (m : Model) (e : Entity) (fields : List (Name × Value)) : Prop where
  ordered : (fields.map Prod.fst).Sublist (e.properties.map Prod.fst)
  shaped : ∀ key w, (key, w) ∈ fields → m.FieldShaped e key w
  lists : ∀ key id, (key, id) ∈ e.properties → m.isPlural id = .ok true →
    ∃ items, (key, .list items) ∈ fields

/-- A field that is put into a node stays where it is or comes after all others. -/
theorem Ordered.keys_set {α : Type} (vs : Ordered α) (key : Name) (v : α) :
    ((Ordered.set vs key v).map Prod.fst).Sublist (vs.map Prod.fst ++ [key]) := by
  induction vs with
  | nil => exact List.Sublist.refl _
  | cons entry rest ih =>
    obtain ⟨k, old⟩ := entry
    rw [Ordered.set]
    split
    · next hkey =>
      rw [List.map_cons, List.map_cons, hkey]
      exact List.sublist_append_left _ _
    · exact ih.cons_cons k

/-- Fields are filled in the order in which they are given. -/
theorem keys_fillFields {out : Assignments} (fields : List Field) :
    ∀ (place : Nat) (n : Node), ((fillFields out place n fields).fields.map Prod.fst).Sublist
      (n.fields.map Prod.fst ++ fields.map Field.name) := by
  induction fields with
  | nil =>
    intro place n
    rw [List.map_nil, List.append_nil]
    exact List.Sublist.refl _
  | cons f fields ih =>
    intro place n
    rw [fillFields, List.map_cons]
    refine (ih _ _).trans ?_
    cases f.value? place out with
    | none => exact List.Sublist.append_left (List.sublist_cons_self _ _) _
    | some v =>
      have hset := (Ordered.keys_set n.fields f.name v).append_right (fields.map Field.name)
      rwa [List.append_assoc, List.singleton_append] at hset

variable {g : Grammar} {engine : Engine} {config : ReadConfig} {p : Program} {patterns : Patterns}
  {src : Ebnf.Source}

/-- What was put together from single values is shaped as the entity says. -/
theorem Procedure.Of.shaped [Unicode.Xid] {proc : Procedure} {r : Rule} {fields : List Field}
    (h : proc.Of g m patterns e s r fields) {out : Assignments}
    (hout : Recorded (fun _ v => v.Single false) s.dest s.property s.plan.symbols out)
    (name : Name) : m.Shaped e (assemble name fields out).fields where
  ordered := by
    rw [← h.map_name]
    exact keys_fillFields fields 0 _
  shaped := by
    intro key w hfield
    obtain ⟨place, f, hf, rfl, hvalue⟩ := mem_assemble hfield
    obtain ⟨id, plural, hplace, hplural, heach⟩ := h.filled hout hf hvalue
    obtain ⟨q, t, hq, ht, hsource⟩ := h.hosts.exists_source hplace
    have hkey : e.property? f.name = some id :=
      Ordered.get?_of_mem h.hosts.nodup_keys (List.mem_of_getElem? hplace)
    refine ⟨id, plural, q, t.action, hkey, hplural, hq, Model.action_of_tree ht, heach.mono ?_⟩
    rintro v ⟨symbol, hfeeds, hgives⟩
    exact hsource.single hfeeds hgives
  lists := by
    intro key id hmem hplural
    obtain ⟨place, hplace⟩ := List.mem_iff_getElem?.1 hmem
    obtain ⟨f, hf, rfl, hfield⟩ := h.field hplace
    obtain ⟨_, _, _, _, _, hplural', _⟩ := Field.of_ofModel hfield
    have hlist : f.isPlural = true := Except.ok.inj (hplural'.symm.trans hplural)
    exact ⟨valuesAt place out, Ordered.mem_of_get?
      ((h.get?_assemble hf name out).trans ((f.value?_eq place out).1 hlist))⟩

/-- What is read for an entity is shaped as the entity says. -/
theorem Program.Made.shaped_entity [Unicode.Xid] (hmade : p.Made engine m config patterns)
    (hreached : Build.Reached g m True) (hsurveyed : Build.Surveyed m) (depth : Nat) :
    ∀ name s n t, p.entity src depth name s = .ok (some n) t →
      ∃ e, m.entity? name = some e ∧ m.Shaped e n.fields := by
  obtain ⟨site, hsited⟩ := hreached.bodies trivial
  -- what an entity refers to is read at a smaller depth
  induction depth with
  | zero => exact fun name s n t h => by cases h
  | succ depth ih =>
    intro name s n t h
    obtain ⟨below, e, proc, r, fields, u, out, hbelow, he, _, hof, hrun, rfl⟩ :=
      hmade.of_entity hreached hsited h
    obtain rfl := Nat.succ.inj hbelow
    have hgiven : Plan.Given (p.inner src depth) fun _ v => v.Single false := by
      intro target s' found t' hfound v hv
      subst hv
      obtain ⟨n', hn', rfl, ⟨hvirtual, hfirst⟩ | ⟨_, hnode⟩⟩ := hmade.inner_eq_ok hreached hfound
      · obtain ⟨entry, hentry, rfl⟩ := Option.map_eq_some_iff.1 hfirst.symm
        obtain ⟨e', id, q, tree, hwraps⟩ := hsited.wraps hvirtual
        obtain ⟨e'', he'', hshaped⟩ := ih _ s' n' t' hn'
        obtain rfl := Option.some.inj (hwraps.entity.symm.trans he'')
        obtain ⟨id', plural, q', x, hkey, hplural, hq', hx, heach⟩ :=
          hshaped.shaped _ _ (List.mem_of_mem_head? hentry)
        obtain ⟨key, hproperties⟩ := hwraps.place
        obtain rfl : id' = id := by
          have hmem := Ordered.mem_of_get? hkey
          rw [hproperties, List.mem_singleton] at hmem
          exact (Prod.mk.inj hmem).2
        obtain rfl := Except.ok.inj (hwraps.single.symm.trans hplural)
        obtain rfl := Except.ok.inj (hwraps.property.symm.trans hq')
        obtain rfl := Except.ok.inj (hx.symm.trans (Model.action_of_tree hwraps.tree))
        rwa [hwraps.isWitness_eq hreached.ranked hsurveyed hvirtual] at heach
      · obtain rfl := Option.some.inj hnode
        exact .node n'
    have hout := (Plan.tally_run (D := fun _ => false) hgiven (site e.name).plan
      (site e.name).property (fun _ _ _ hD => by contradiction) u out t hrun).1
    exact ⟨e, he, hof.shaped hout name⟩

/-! ## 3. Witnesses -/

/-- In the match of an entity that is read from the given state on, the text was found whose flag
    goes to the field at the given place. -/
def Program.Found (p : Program) (src : Source) (depth : Nat) (name : Name) (s : RunState)
    (text : String) (place : Nat) : Prop :=
  ∃ below, ∃ proc : Procedure, ∃ op, depth = below + 1 ∧ p.procedure? name = some proc ∧
    proc.body = some (.ok op) ∧ op.Finds src (p.inner src below) text (.field place)
      { s with events := s.events.push (.entityTried name s.cursor.offset) }

/-- A property tells whether a text was there. -/
def Model.Witness (m : Model) (id : PropertyId) (text : String) : Prop :=
  ∃ q x, m.property id = .ok q ∧ m.action q.source = .ok x ∧ x.isWitness = true ∧
    x.kind = .literal text

/-- The leaf of a property that tells whether a text was there is the only one of its field. -/
theorem Site.Hosts.tells (h : s.Hosts m e) {place : Nat} {key : Name} {id : PropertyId}
    (hplace : e.properties[place]? = some (key, id)) {q : Property} {x : Action}
    (hq : m.property id = .ok q) (hx : m.action q.source = .ok x) (hwitness : x.isWitness = true) :
    ∃ text, m.Witness id text ∧
      Plan.Tells s.dest text (.field place) s.property s.plan.symbols := by
  obtain ⟨q', t, hq', ht, hsource⟩ := h.exists_source hplace
  obtain rfl := Except.ok.inj (hq.symm.trans hq')
  obtain rfl := Except.ok.inj (hx.symm.trans (Model.action_of_tree ht))
  cases hsource with
  | choice _ witness _ _ _ _ =>
    rw [ActionTree.action, witness] at hwitness
    contradiction
  | leaf kind witness feeds only =>
    rename_i x symbol
    have hsymbol : symbol.isWitness = true := witness.symm.trans hwitness
    cases symbol with
    | literal text isWitness =>
      obtain rfl : isWitness = true := hsymbol
      exact ⟨text, ⟨q, x, hq, hx, hwitness, kind⟩, fun k other hk hdest =>
        only other ⟨k, hk, hdest⟩⟩
    | pattern source => contradiction
    | reference target => contradiction

/-- A flag is recorded for a text just if the text was found. -/
theorem Program.Made.flag_iff [Unicode.Xid] (hmade : p.Made engine m config patterns)
    (hreached : Build.Reached g m True) {site : Name → Site} (hsited : m.Sited site m.names)
    {depth : Nat} {name : Name} {s t : RunState} {out : Assignments}
    (h : p.collect src depth name s = .ok (some out) t) (he : m.entity? name = some e)
    {text : String} {place : Nat} (htells : Plan.Tells (site e.name).dest text (.field place)
      (site e.name).property (site e.name).plan.symbols) :
    (∀ v, (.field place, v) ∈ out → v = .flag true) ∧
    ((.field place, .flag true) ∈ out ↔ p.Found src depth name s text place) := by
  cases depth with
  | zero => cases h
  | succ below =>
    obtain ⟨proc, r, fields, hproc, hof⟩ := hmade.procedure_some hreached hsited he
    rw [Program.collect, hproc] at h
    simp only [hof.body] at h
    have hfinds := fun v => Plan.finds_of_mem (w := v) _ htells h
    refine ⟨fun v hv => (hfinds v hv).1, fun hv => ?_, fun hfound => ?_⟩
    · exact ⟨below, proc, _, rfl, hproc, hof.body, (hfinds _ hv).2⟩
    · obtain ⟨below', proc', op, hbelow, hproc', hbody, hfinds'⟩ := hfound
      obtain rfl := Nat.succ.inj hbelow
      obtain rfl := Option.some.inj (hproc.symm.trans hproc')
      obtain rfl := Except.ok.inj (Option.some.inj (hof.body.symm.trans hbody))
      exact Op.mem_of_finds (d := .field place) (by simp) _ h hfinds'

/-- A witness that does not repeat holds a flag, which is true just if its text was found in the
    match of the instance. -/
theorem Program.Made.witness_entity [Unicode.Xid] (hmade : p.Made engine m config patterns)
    (hreached : Build.Reached g m True) {depth : Nat} {name : Name} {s t : RunState} {n : Node}
    (h : p.entity src depth name s = .ok (some n) t) (he : m.entity? name = some e) {place : Nat}
    {key : Name} {id : PropertyId} (hplace : e.properties[place]? = some (key, id))
    (hsingle : m.isPlural id = .ok false) {q : Property} {x : Action}
    (hq : m.property id = .ok q) (hx : m.action q.source = .ok x) (hwitness : x.isWitness = true) :
    ∃ text b, m.Witness id text ∧ (key, .flag b) ∈ n.fields ∧
      (b = true ↔ p.Found src depth name s text place) := by
  obtain ⟨site, hsited⟩ := hreached.bodies trivial
  obtain ⟨below, e', proc, r, fields, u, out, _, he', hcollect, hof, _, rfl⟩ :=
    hmade.of_entity hreached hsited h
  obtain rfl := Option.some.inj (he.symm.trans he')
  obtain ⟨text, hwit, htells⟩ := hof.hosts.tells hplace hq hx hwitness
  obtain ⟨hflag, hfound⟩ := hmade.flag_iff hreached hsited hcollect he htells
  obtain ⟨f, hf, rfl, hfield⟩ := hof.field hplace
  obtain ⟨q', x', hq', hx', _, hplural, hisWitness⟩ := Field.of_ofModel hfield
  obtain rfl := Except.ok.inj (hq.symm.trans hq')
  obtain rfl := Except.ok.inj (hx.symm.trans hx')
  have hplural : f.isPlural = false := Except.ok.inj (hplural.symm.trans hsingle)
  have hget := hof.get?_assemble hf name out
  cases hlast : (valuesAt place out).getLast? with
  | some v =>
    have hmem := exists_mem_of_mem_valuesAt (List.mem_of_getLast? hlast)
    obtain rfl := hflag v hmem
    exact ⟨text, true, hwit, Ordered.mem_of_get? (hget.trans ((f.value?_eq _ _).2 hplural _ hlast)),
      fun _ => hfound.1 hmem, fun _ => rfl⟩
  | none =>
    have hvalue : f.value? place out = some (.flag false) := by
      simp only [Field.value?, hplural, hlast, hisWitness, hwitness, if_true, Bool.false_eq_true,
        if_false]
    refine ⟨text, false, hwit, Ordered.mem_of_get? (hget.trans hvalue), ?_, fun hwas => ?_⟩
    · exact fun htrue => absurd htrue Bool.false_ne_true
    · have hmem : .flag true ∈ valuesAt place out :=
        List.mem_map.2 ⟨_, List.mem_filter.2 ⟨hfound.2 hwas, decide_eq_true rfl⟩, rfl⟩
      rw [List.getLast?_eq_none_iff.1 hlast] at hmem
      exact absurd hmem List.not_mem_nil

/-! ## 4. Results -/

/-- An instance in a result is not virtual, and was read for its entity. Its fields come in the
    order of the properties, lists are where properties repeat, and flags where they are witnesses;
    and whichever match it was read from, a witness that does not repeat tells whether its text was
    found there. -/
theorem read_shaped [Unicode.Xid] {n : Nat} (hmodel : Model.ofGrammar g = .ok m)
    (hprogram : Program.ofModel engine m config = .ok (p, n)) {text : String} {node : Node}
    (hread : p.read text = .ok (.ok node)) {x : Name} {fields : List (Name × Value)}
    (hinside : Value.Inside (.node x fields) node.toValue) :
    m.isVirtual x = .ok false ∧ p.Gives (p.source text) x fields ∧
    ∃ e, m.entity? x = some e ∧ m.Shaped e fields ∧
      ∀ depth s t, p.entity (p.source text) depth x s = .ok (some ⟨x, fields⟩) t →
        ∀ place key id q y, e.properties[place]? = some (key, id) →
          m.isPlural id = .ok false → m.property id = .ok q → m.action q.source = .ok y →
          y.isWitness = true → ∃ found b, m.Witness id found ∧ (key, .flag b) ∈ fields ∧
            (b = true ↔ p.Found (p.source text) depth x s found place) := by
  obtain ⟨hreached, hsurveyed⟩ := Build.reached_ofGrammar hmodel
  obtain ⟨patterns, hmade⟩ := Program.made_of_ofModel hprogram
  obtain ⟨hvirtual, hgives⟩ := hmade.instance_of_read hreached hread x fields hinside
  obtain ⟨depth, s, t, hentity⟩ := id hgives
  obtain ⟨e, he, hshaped⟩ := hmade.shaped_entity hreached hsurveyed depth x s _ t hentity
  refine ⟨hvirtual, hgives, e, he, hshaped, ?_⟩
  intro depth s t hentity place key id q y hplace hsingle hq hy hwitness
  exact hmade.witness_entity hreached hentity he hplace hsingle hq hy hwitness

namespace Switches

/-- Two letters, each of which may be there or not. -/
def grammar : Grammar where
  rules := [
    { name := "switches",
      body := .sequence (.optional (.literal (some "x") "a"))
        (.optional (.literal (some "y") "b")) }]

def switches : Entity where
  name := "switches"
  rule := grammar.rule? "switches"
  properties := [("x", ⟨0⟩), ("y", ⟨1⟩)]
  action := some ⟨2⟩

/-- The model of the switches. -/
def model : Model where
  entities := [switches]
  properties := #[
    { name := "x", entity := "switches", source := ⟨0⟩ },
    { name := "y", entity := "switches", source := ⟨1⟩ }]
  actions := #[
    { kind := .literal "a", isOptional := true, isWitness := true, property := some ⟨0⟩,
      parent := some ⟨2⟩ },
    { kind := .literal "b", isOptional := true, isWitness := true, property := some ⟨1⟩,
      parent := some ⟨2⟩ },
    { kind := .all [⟨0⟩, ⟨1⟩] }]
  root := some "switches"

/-- The program of the switches. -/
def program : Program where
  root := "switches"
  ignore := none
  maxDepth := 256
  procedures := model.entities.map fun e => (e.name, Procedure.ofModel model [] e)

/-- The switches lead nowhere. -/
theorem walk_eq (events : Array Event) (attached : List (Name × PropertyId)) :
    Build.walk ["switches"] [] ["switches"] { model, events, attached } =
      .ok () { model, events, attached } := by
  have hswitches : Build.discover switches { model, events, attached } =
      .ok [] { model, events, attached } := by
    cbv
  rw [Build.walk_cons (by decide) rfl hswitches, List.nil_append, Build.walk]
  rfl

theorem ofGrammar_eq : Model.ofGrammar grammar = .ok model :=
  Build.ofGrammar_of_walk (m := model) (by cbv) rfl
    fun events attached => ⟨_, _, walk_eq events attached⟩

theorem ofModel_eq : Program.ofModel Sample.engine model Sample.config = .ok (program, 0) :=
  rfl

/-- What the second letter alone is read as. -/
def node : Node where
  entity := "switches"
  fields := [("x", .flag false), ("y", .flag true)]

theorem read_eq : program.read "b" = .ok (.ok node) := by
  decide +kernel

end Switches

/-- Of two letters only the second one was found. -/
theorem read_shaped_switches :
    Model.ofGrammar Switches.grammar = .ok Switches.model ∧
    Program.ofModel Sample.engine Switches.model Sample.config = .ok (Switches.program, 0) ∧
    Switches.program.read "b" = .ok (.ok Switches.node) ∧
    Switches.model.isVirtual "switches" = .ok false ∧
    Switches.model.Shaped Switches.switches Switches.node.fields ∧
    ¬ Switches.program.Found (Switches.program.source "b") 257 "switches" {} "a" 0 ∧
    Switches.program.Found (Switches.program.source "b") 257 "switches" {} "b" 1 := by
  obtain ⟨t, hentity⟩ := Program.entity_of_read Switches.read_eq
  obtain ⟨hvirtual, _, e, he, hshaped, hwitness⟩ :=
    read_shaped Switches.ofGrammar_eq Switches.ofModel_eq Switches.read_eq .self
  obtain rfl : Switches.switches = e := Option.some.inj he
  refine ⟨Switches.ofGrammar_eq, Switches.ofModel_eq, Switches.read_eq, hvirtual, hshaped, ?_, ?_⟩
  · obtain ⟨text, b, ⟨_, _, hq, hx, _, hkind⟩, hmem, hfound⟩ :=
      hwitness 257 {} t hentity 0 "x" ⟨0⟩ _ _ rfl (by cbv) rfl rfl rfl
    cases hq
    cases hx
    cases hkind
    obtain rfl : b = false := by simpa [Switches.node] using hmem
    exact fun hwas => Bool.false_ne_true (hfound.2 hwas)
  · obtain ⟨text, b, ⟨_, _, hq, hx, _, hkind⟩, hmem, hfound⟩ :=
      hwitness 257 {} t hentity 1 "y" ⟨1⟩ _ _ rfl (by cbv) rfl rfl rfl
    cases hq
    cases hx
    cases hkind
    obtain rfl : b = true := by simpa [Switches.node] using hmem
    exact hfound.1 rfl

end Ebnf
